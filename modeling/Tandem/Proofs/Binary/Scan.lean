import Tandem.Binary.Scan

/-!
What a scan takes is fixed by the bytes in front of it, whatever follows them.
-/
namespace Tandem

/-- The action takes these bytes from the front and answers with this value. -/
def Scans {α : Type} (action : ScanM α) (front : Bytes) (a : α) : Prop :=
  ∀ rest, action.run (front ++ rest) = some (a, rest)

namespace Scans

variable {α β : Type} {front front' : Bytes} {a : α}

theorem pure (a : α) : Scans (Pure.pure a) [] a := fun _ => rfl

theorem bind {action : ScanM α} {next : α → ScanM β} {b : β} (h : Scans action front a)
    (h' : Scans (next a) front' b) : Scans (action >>= next) (front ++ front') b := by
  intro rest
  have ha := h (front' ++ rest)
  have hb := h' rest
  simp only [StateT.run] at ha hb
  rw [List.append_assoc, StateT.run_bind]
  simp only [StateT.run, ha, Option.bind_eq_bind, Option.bind_some, hb]

theorem take (bs : Bytes) {n : Nat} (h : bs.length = n) : Scans (Scan.take n) bs bs := by
  subst h
  exact Scan.take_append bs

theorem skip (bs : Bytes) {n : Nat} (h : bs.length = n) : Scans (Scan.skip n) bs () := by
  have h' : Scans (Scan.skip n) (bs ++ []) () := (take bs h).bind (pure ())
  rwa [List.append_nil] at h'

theorem number {width n : Nat} (h : n < LittleEndian.range width) :
    Scans (Scan.number width) (LittleEndian.encode width n) n := by
  intro rest
  rw [Scan.number_encode, Nat.mod_eq_of_lt h]

/-- A condition that holds takes nothing. -/
theorem require {condition : Bool} {next : Unit → ScanM α} (hc : condition = true)
    (h : Scans (next ()) front a) : Scans (Scan.require condition >>= next) front a := by
  intro rest
  subst hc
  exact h rest

theorem drop (bs : Bytes) {n : Nat} (h : bs.length = n) :
    Scans (modify fun rest => rest.drop n) bs () := by
  intro rest
  subst h
  have hdrop : (bs ++ rest).drop bs.length = rest := List.drop_left
  exact congrArg (fun r => some ((), r)) hdrop

end Scans

end Tandem
