import Mathlib.Algebra.Ring.Int.Defs
import Tandem.Machine.Request

/-!
What the calls of a journal add up to.
-/
namespace Tandem

namespace Call

/-- Ticks that a processor was told to count. -/
def counted (u : UnitId) : Call → Int
  | .count v ticks => if v = u then ticks else 0
  | _ => 0

/-- Ticks that a vector unit was clocked for. -/
def clocked (u : UnitId) : Call → Int
  | .clock v ticks => if v = u then ticks else 0
  | _ => 0

/-- One for each pass of the primary's loop that ran. -/
def passes : Call → Int
  | .count .primary _ => 1
  | _ => 0

/-- One for each vblank boundary of a kind. -/
def crossed (begins : Bool) : Call → Int
  | .vblank .primary b => if b = begins then 1 else 0
  | _ => 0

/-- One for each mixed block. -/
def blocks : Call → Int
  | .render 0 _ _ => 1
  | _ => 0

/-- Whether a call matters to the time that has passed. -/
def isTimed : Call → Bool
  | .execute _ _ (.ran _) | .clock .. | .count .. | .vblank .. | .render .. => true
  | _ => false

/-- What some calls add up to. -/
def total (f : Call → Int) (cs : List Call) : Int := (cs.map f).sum

variable (f : Call → Int)

@[simp] theorem total_nil : total f [] = 0 := rfl

@[simp] theorem total_cons (c : Call) (cs : List Call) : total f (c :: cs) = f c + total f cs := by
  simp [total]

@[simp] theorem total_append (cs ds : List Call) : total f (cs ++ ds) = total f cs + total f ds := by
  simp [total]

variable {f}

theorem total_eq_zero {cs : List Call} (h : ∀ c ∈ cs, f c = 0) : total f cs = 0 := by
  induction cs with
  | nil => rfl
  | cons c cs ih =>
    have hc := h c List.mem_cons_self
    have hcs := ih fun d hd => h d (List.mem_cons_of_mem c hd)
    rw [total_cons, hc, hcs, Int.add_zero]

section Untimed

variable {c : Call} (h : c.isTimed = false)
include h

theorem counted_untimed (u : UnitId) : c.counted u = 0 := by
  cases c <;> first | rfl | simp [isTimed] at h

theorem clocked_untimed (u : UnitId) : c.clocked u = 0 := by
  cases c <;> first | rfl | simp [isTimed] at h

theorem passes_untimed : c.passes = 0 := by
  cases c <;> first | rfl | simp [isTimed] at h

theorem crossed_untimed (begins : Bool) : c.crossed begins = 0 := by
  cases c <;> first | rfl | simp [isTimed] at h

theorem blocks_untimed : c.blocks = 0 := by
  cases c <;> first | rfl | simp [isTimed] at h

end Untimed

/-- Calls of one kind are added, and then others of the same kind. -/
theorem added_trans {P : Call → Prop} {calls calls₁ calls₂ : List Call}
    (h₁ : ∃ new, calls₁ = new ++ calls ∧ ∀ c ∈ new, P c)
    (h₂ : ∃ new, calls₂ = new ++ calls₁ ∧ ∀ c ∈ new, P c) :
    ∃ new, calls₂ = new ++ calls ∧ ∀ c ∈ new, P c := by
  obtain ⟨new₁, hc₁, hk₁⟩ := h₁
  obtain ⟨new₂, hc₂, hk₂⟩ := h₂
  refine ⟨new₂ ++ new₁, by rw [hc₂, hc₁, List.append_assoc], fun c hc => ?_⟩
  cases List.mem_append.mp hc with
  | inl hc => exact hk₂ c hc
  | inr hc => exact hk₁ c hc

/-- Calls none of which is of a kind, oldest first. -/
theorem filter_reverse_eq_nil {p : Call → Bool} {cs : List Call} (h : ∀ c ∈ cs, p c = false) :
    cs.reverse.filter p = [] := by
  rw [List.filter_eq_nil_iff]
  intro c hc
  rw [h c (List.mem_reverse.mp hc)]
  nofun

end Call

/-! ### The journal of a machine -/

namespace Journal

theorem sayAll_eq (j : Journal) (ls : List Log.Line) :
    j.sayAll ls = { j with lines := ls.reverse ++ j.lines } := by
  induction ls generalizing j with
  | nil => rfl
  | cons l ls ih =>
    have h := ih (j.say l)
    simpa [sayAll, say] using h

@[simp] theorem sayAll_calls (j : Journal) (ls : List Log.Line) : (j.sayAll ls).calls = j.calls := by
  rw [sayAll_eq]

@[simp] theorem foldl_call_calls (j : Journal) (cs : List Call) :
    (cs.foldl call j).calls = cs.reverse ++ j.calls := by
  induction cs generalizing j with
  | nil => rfl
  | cons c cs ih =>
    rw [List.foldl_cons, ih]
    simp [call]

end Journal

namespace Machine

variable {k : Console}

theorem noteAll_eq (m : Machine k) (cs : List Call) :
    m.noteAll cs = { m with calls := cs.reverse ++ m.calls } := by
  induction cs generalizing m with
  | nil => rfl
  | cons c cs ih =>
    have h := ih (m.note c)
    simpa [noteAll, note] using h

theorem sayAll_eq (m : Machine k) (ls : List Log.Line) :
    m.sayAll ls = { m with lines := ls.reverse ++ m.lines } := by
  induction ls generalizing m with
  | nil => rfl
  | cons l ls ih =>
    have h := ih (m.say l)
    simpa [sayAll, say] using h

end Machine

end Tandem
