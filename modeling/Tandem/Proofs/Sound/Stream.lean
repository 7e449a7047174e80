import Mathlib.Algebra.Group.Nat.Even

/-!
Streams of samples that are dealt with piece by piece, each piece from the state in which the one before it
was left.
-/
namespace Tandem

variable {σ α β : Type} {f : σ → List α → List β × σ}

/-- Some pieces one after another: what comes out in all, and the state thereafter. -/
def inTurn (f : σ → List α → List β × σ) : σ → List (List α) → List β × σ
  | s, [] => ([], s)
  | s, piece :: later =>
    let (out, s') := f s piece
    let (rest, s'') := inTurn f s' later
    (out ++ rest, s'')

/-- A stream may be cut between any two frames of two samples. -/
structure Seamless (f : σ → List α → List β × σ) : Prop where
  nil (s : σ) : f s [] = ([], s)
  append (s : σ) {piece : List α} (rest : List α) (h : Even piece.length) :
    f s (piece ++ rest) = ((f s piece).1 ++ (f (f s piece).2 rest).1, (f (f s piece).2 rest).2)

theorem Seamless.inTurn_eq (h : Seamless f) {pieces : List (List α)}
    (heven : ∀ piece ∈ pieces, Even piece.length) (s : σ) : inTurn f s pieces = f s pieces.flatten := by
  induction pieces generalizing s with
  | nil => exact (h.nil s).symm
  | cons piece later ih =>
    obtain ⟨hpiece, hlater⟩ := List.forall_mem_cons.mp heven
    simp only [List.flatten_cons, h.append s _ hpiece, inTurn, ih hlater]

theorem even_length_tail {x y : α} {rest : List α} (h : Even (x :: y :: rest).length) : Even rest.length := by
  rw [List.length_cons, List.length_cons] at h
  grind

theorem even_length_flatten {pieces : List (List α)} (heven : ∀ piece ∈ pieces, Even piece.length) :
    Even pieces.flatten.length := by
  induction pieces with
  | nil => exact ⟨0, rfl⟩
  | cons piece later ih =>
    obtain ⟨hpiece, hlater⟩ := List.forall_mem_cons.mp heven
    rw [List.flatten_cons, List.length_append]
    exact hpiece.add (ih hlater)

end Tandem
