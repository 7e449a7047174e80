/-!
Courses of a system: what happens to it, one thing after another, and what is true all along.
-/
namespace Tandem

/-- Something that happened to a system. -/
structure Passage (σ α : Type) where
  before : σ
  action : α
  after : σ

variable {σ α : Type}

/-- What happened to a system since it was as given, newest first. -/
inductive Course (step : σ → α → σ → Prop) (start : σ) : List (Passage σ α) → σ → Prop
  | start : Course step start [] start
  | step {passages s a s'} (before : Course step start passages s) (h : step s a s') :
      Course step start (⟨s, a, s'⟩ :: passages) s'

namespace Course

variable {step : σ → α → σ → Prop} {start s : σ} {passages : List (Passage σ α)} {P : σ → Prop}
  {Bad : Passage σ α → Prop}

theorem step_of_mem (h : Course step start passages s) {x : Passage σ α} (hx : x ∈ passages) :
    step x.before x.action x.after := by
  induction h with
  | start => cases hx
  | step _ hs ih =>
    cases List.mem_cons.mp hx with
    | inl hx => rw [hx]; exact hs
    | inr hx => exact ih hx

/-- Each passage has a course of its own behind it. -/
theorem split {later earlier : List (Passage σ α)} {x : Passage σ α}
    (h : Course step start (later ++ x :: earlier) s) :
    Course step start earlier x.before ∧ step x.before x.action x.after := by
  generalize hall : later ++ x :: earlier = all at h
  induction h generalizing later with
  | start => simp at hall
  | @step passages s a s' before hs ih =>
    cases later with
    | nil =>
      cases hall
      exact ⟨before, hs⟩
    | cons y later => exact ih (List.cons.inj hall).2

/-- What happened after a passage is a course of its own. -/
theorem after {later earlier : List (Passage σ α)} {x : Passage σ α}
    (h : Course step start (later ++ x :: earlier) s) : Course step x.after later s := by
  generalize hall : later ++ x :: earlier = all at h
  induction h generalizing later with
  | start => simp at hall
  | @step passages s a s' before hs ih =>
    cases later with
    | nil =>
      cases hall
      exact .start
    | cons y later =>
      obtain ⟨rfl, hlater⟩ := List.cons.inj hall
      exact (ih hlater).step hs

/-- What is true in the beginning, and is kept unless something bad happens, is true as long as nothing bad
has happened. -/
theorem invariant (hstart : P start)
    (hkeep : ∀ s a s', step s a s' → P s → ¬ Bad ⟨s, a, s'⟩ → P s') (h : Course step start passages s)
    (hbad : ∀ x ∈ passages, ¬ Bad x) : (∀ x ∈ passages, P x.after) ∧ P s := by
  induction h with
  | start => exact ⟨by simp, hstart⟩
  | @step passages s a s' _ hs ih =>
    obtain ⟨hall, hP⟩ := ih fun x hx => hbad x (List.mem_cons_of_mem _ hx)
    have hP' := hkeep s a s' hs hP (hbad _ List.mem_cons_self)
    refine ⟨fun x hx => ?_, hP'⟩
    cases List.mem_cons.mp hx with
    | inl hx => rw [hx]; exact hP'
    | inr hx => exact hall x hx

/-- Steps that are steps of another kind too make up a course of that kind. -/
theorem mono {step' : σ → α → σ → Prop} (h : Course step start passages s)
    (hstep : ∀ s a s', step s a s' → step' s a s') : Course step' start passages s := by
  induction h with
  | start => exact .start
  | step _ hs ih => exact ih.step (hstep _ _ _ hs)

theorem append {s' : σ} {later : List (Passage σ α)} (h : Course step start passages s)
    (h' : Course step s later s') : Course step start (later ++ passages) s' := by
  induction h' with
  | start => exact h
  | step _ hs ih => exact ih.step hs

theorem preserved (hstart : P start) (hkeep : ∀ s a s', step s a s' → P s → P s')
    (h : Course step start passages s) : (∀ x ∈ passages, P x.before) ∧ P s := by
  induction h with
  | start => exact ⟨by simp, hstart⟩
  | @step passages s a s' _ hs ih =>
    obtain ⟨hall, hP⟩ := ih
    refine ⟨fun x hx => ?_, hkeep s a s' hs hP⟩
    cases List.mem_cons.mp hx with
    | inl hx => rw [hx]; exact hP
    | inr hx => exact hall x hx

/-- If it is not true after something bad has happened, it is true all along just if nothing bad ever
happens. -/
theorem invariant_iff (hstart : P start)
    (hkeep : ∀ s a s', step s a s' → P s → ¬ Bad ⟨s, a, s'⟩ → P s')
    (hbreak : ∀ s a s', step s a s' → Bad ⟨s, a, s'⟩ → ¬ P s') (h : Course step start passages s) :
    (∀ x ∈ passages, P x.after) ↔ ∀ x ∈ passages, ¬ Bad x := by
  constructor
  · intro hall x hx hbad
    exact hbreak _ _ _ (h.step_of_mem hx) hbad (hall x hx)
  · intro hbad
    exact (h.invariant hstart hkeep hbad).1

end Course

end Tandem
