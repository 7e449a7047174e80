import Mathlib.Data.List.Nodup
import Tandem.Session.Handle

/-!
What becomes of all that is asked for. Whatever is asked for gets a number of its own; it waits, until it is
served or dropped, and neither happens to it twice.
-/
namespace Tandem

structure Ledger (k : Console) where
  /-- All that was ever asked for, newest first. -/
  issued : List (Errand k)
  /-- What may still be served, oldest first. -/
  waiting : List (Errand k)
  /-- What was served, and how, newest first. -/
  served : List (Errand k × Reply)

namespace Ledger

variable {k : Console}

/-- What can happen to a ledger. -/
inductive Step : Ledger k → Ledger k → Prop
  | accept {l e} (he : e.ticket = l.issued.length) :
      Step l { l with issued := e :: l.issued, waiting := l.waiting ++ [e] }
  | refuse {l e} (he : e.ticket = l.issued.length) : Step l { l with issued := e :: l.issued }
  | serve {l e waiting} (h : l.waiting = e :: waiting) (reply) :
      Step l { l with waiting, served := (e, reply) :: l.served }
  | drop {l waiting} (h : waiting.Sublist l.waiting) : Step l { l with waiting }

variable {l l' : Ledger k} {e e' : Errand k} {yes : Bool}

/-- The answer that an errand was served with, if it was answered. -/
def answer? : Errand k × Reply → Option (Nat × Bool)
  | (e, .answer yes) => some (e.ticket, yes)
  | (_, .done) | (_, .panic _) => none

def answers (l : Ledger k) : List (Nat × Bool) := l.served.filterMap answer?

/-- What has become of a ticket, if that is settled. -/
def outcome (l : Ledger k) (ticket : Nat) : Option Bool :=
  match l.answers.lookup ticket with
  | some yes => some yes
  | none => if ticket ∈ l.waiting.map Errand.ticket then none else some false

/-- Tickets are numbers in the order of issue; what waits does so in that order, and has not been served;
nothing has been served twice. -/
structure Sound (l : Ledger k) : Prop where
  issued : l.issued.Pairwise fun e e' => e'.ticket < e.ticket
  below : ∀ e ∈ l.issued, e.ticket < l.issued.length
  waiting : l.waiting.Sublist l.issued.reverse
  served : ∀ x ∈ l.served, x.1 ∈ l.issued ∧ x.1.ticket ∉ l.waiting.map Errand.ticket
  once : (l.served.map fun x => x.1.ticket).Nodup

theorem answer?_eq_some {x : Errand k × Reply} {a : Nat × Bool} :
    answer? x = some a ↔ x.1.ticket = a.1 ∧ x.2 = .answer a.2 := by
  obtain ⟨e, reply⟩ := x
  obtain ⟨ticket, yes⟩ := a
  cases reply <;> simp [answer?]

theorem answers_serve (l : Ledger k) (waiting : List (Errand k)) (x : Errand k × Reply) :
    answers { l with waiting, served := x :: l.served } = (answer? x).toList ++ l.answers := by
  rw [answers, List.filterMap_cons, answers]
  cases answer? x <;> rfl

theorem mem_answers {ticket : Nat} :
    (ticket, yes) ∈ l.answers ↔ ∃ e, (e, .answer yes) ∈ l.served ∧ e.ticket = ticket := by
  rw [answers, List.mem_filterMap]
  constructor
  · rintro ⟨⟨e, reply⟩, hx, ha⟩
    obtain ⟨hticket, rfl⟩ := answer?_eq_some.mp ha
    exact ⟨e, hx, hticket⟩
  · rintro ⟨e, hx, rfl⟩
    exact ⟨_, hx, rfl⟩

namespace Sound

theorem start : Sound (⟨[], [], []⟩ : Ledger k) := ⟨.nil, by simp, .slnil, by simp, .nil⟩

/-- A ticket belongs to one errand. -/
theorem eq_of_ticket (h : l.Sound) (he : e ∈ l.issued) (he' : e' ∈ l.issued) (ht : e.ticket = e'.ticket) :
    e = e' := by
  have hdistinct : (l.issued.map Errand.ticket).Nodup :=
    List.pairwise_map.mpr (h.issued.imp fun hlt => (Nat.ne_of_lt hlt).symm)
  exact List.inj_on_of_nodup_map hdistinct he he' ht

theorem mem_issued (h : l.Sound) (he : e ∈ l.waiting) : e ∈ l.issued :=
  List.mem_reverse.mp (h.waiting.subset he)

theorem waiting_pairwise (h : l.Sound) : l.waiting.Pairwise fun e e' => e.ticket < e'.ticket :=
  (List.pairwise_reverse.mpr h.issued).sublist h.waiting

theorem drop {waiting : List (Errand k)} (h : l.Sound) (hs : waiting.Sublist l.waiting) :
    Sound { l with waiting } where
  issued := h.issued
  below := h.below
  waiting := hs.trans h.waiting
  served x hx := ⟨(h.served x hx).1, fun hw => (h.served x hx).2 ((hs.map _).subset hw)⟩
  once := h.once

theorem issue (h : l.Sound) (he : e.ticket = l.issued.length) {waiting : List (Errand k)}
    (hw : waiting.Sublist (l.waiting ++ [e])) : Sound { l with issued := e :: l.issued, waiting } where
  issued := List.pairwise_cons.mpr ⟨fun e' he' => he ▸ h.below e' he', h.issued⟩
  below e' he' := by
    rw [List.length_cons]
    cases List.mem_cons.mp he' with
    | inl hnew => rw [hnew, he]; exact Nat.lt_succ_self _
    | inr hold => exact Nat.lt_succ_of_lt (h.below e' hold)
  waiting := by
    rw [List.reverse_cons]
    exact hw.trans (h.waiting.append (.refl _))
  served x hx := by
    obtain ⟨hissued, hwaiting⟩ := h.served x hx
    refine ⟨List.mem_cons_of_mem _ hissued, fun hmem => ?_⟩
    have hmem := (hw.map Errand.ticket).subset hmem
    rw [List.map_append, List.mem_append] at hmem
    cases hmem with
    | inl hold => exact hwaiting hold
    | inr hnew =>
      have hbelow := h.below x.1 hissued
      rw [List.mem_singleton.mp hnew, he] at hbelow
      exact Nat.lt_irrefl _ hbelow
  once := h.once

theorem serve {waiting : List (Errand k)} (h : l.Sound) (hw : l.waiting = e :: waiting) (reply : Reply) :
    Sound { l with waiting, served := (e, reply) :: l.served } := by
  have hpairwise := h.waiting_pairwise
  rw [hw, List.pairwise_cons] at hpairwise
  have hmem : e ∈ l.waiting := by rw [hw]; exact List.mem_cons_self
  have hsub : waiting.Sublist l.waiting := by rw [hw]; exact List.sublist_cons_self _ _
  have hrest := h.drop hsub
  refine ⟨h.issued, h.below, hrest.waiting, fun x hx => ?_, ?_⟩
  · cases List.mem_cons.mp hx with
    | inl hnew =>
      rw [hnew]
      refine ⟨h.mem_issued hmem, fun hmem => ?_⟩
      obtain ⟨e', he', ht⟩ := List.mem_map.mp hmem
      exact Nat.ne_of_lt (hpairwise.1 e' he') ht.symm
    | inr hold => exact hrest.served x hold
  · rw [List.map_cons, List.nodup_cons]
    refine ⟨fun hmem' => ?_, h.once⟩
    obtain ⟨x, hx, ht⟩ := List.mem_map.mp hmem'
    exact (h.served x hx).2 (ht ▸ List.mem_map_of_mem hmem)

theorem step (h : l.Sound) (hs : Step l l') : l'.Sound := by
  cases hs with
  | accept he => exact h.issue he (.refl _)
  | refuse he => exact h.issue he (List.sublist_append_left _ _)
  | serve hw reply => exact h.serve hw reply
  | drop hs => exact h.drop hs

end Sound

/-! ### Outcomes -/

theorem answers_nodup (h : l.Sound) : (l.answers.map Prod.fst).Nodup := by
  have hsub : (l.answers.map Prod.fst).Sublist (l.served.map fun x => x.1.ticket) := by
    rw [answers]
    induction l.served with
    | nil => exact .slnil
    | cons x served ih =>
      rw [List.filterMap_cons, List.map_cons]
      split
      next => exact ih.cons _
      next a ha =>
        rw [List.map_cons, ← (answer?_eq_some.mp ha).1]
        exact ih.cons_cons _
  exact h.once.sublist hsub

theorem lookup_eq_some_iff (h : l.Sound) {ticket : Nat} :
    l.answers.lookup ticket = some yes ↔ ∃ e, (e, .answer yes) ∈ l.served ∧ e.ticket = ticket := by
  rw [← mem_answers, List.lookup_eq_some_iff]
  constructor
  · rintro ⟨before, after, ha, -⟩
    rw [ha]
    exact List.mem_append_right _ List.mem_cons_self
  · intro hmem
    obtain ⟨before, after, ha⟩ := List.append_of_mem hmem
    refine ⟨before, after, ha, fun a hbefore => ?_⟩
    have hnodup := answers_nodup h
    rw [ha, List.map_append, List.map_cons, List.nodup_append] at hnodup
    simpa using (hnodup.2.2 _ (List.mem_map_of_mem hbefore) _ List.mem_cons_self).symm

theorem outcome_of_served (h : l.Sound) (hs : (e, .answer yes) ∈ l.served) :
    l.outcome e.ticket = some yes := by
  rw [outcome, (lookup_eq_some_iff h).mpr ⟨e, hs, rfl⟩]

theorem outcome_of_waiting (h : l.Sound) (hw : e ∈ l.waiting) : l.outcome e.ticket = none := by
  unfold outcome
  split
  next yes hl =>
    obtain ⟨e', hs, ht⟩ := (lookup_eq_some_iff h).mp hl
    exact absurd (ht ▸ List.mem_map_of_mem hw) (h.served _ hs).2
  next => rw [if_pos (List.mem_map_of_mem hw)]

theorem outcome_of_dropped (h : l.Sound) (he : e ∈ l.issued) (hw : e ∉ l.waiting)
    (hs : ∀ yes, (e, .answer yes) ∉ l.served) : l.outcome e.ticket = some false := by
  unfold outcome
  split
  next yes hl =>
    obtain ⟨e', hs', ht⟩ := (lookup_eq_some_iff h).mp hl
    obtain rfl := h.eq_of_ticket (h.served _ hs').1 he ht
    exact absurd hs' (hs yes)
  next =>
    rw [if_neg]
    intro hmem
    obtain ⟨e', he', ht⟩ := List.mem_map.mp hmem
    obtain rfl := h.eq_of_ticket (h.mem_issued he') he ht
    exact hw he'

/-- What is settled has been answered, or is on no list. -/
theorem outcome_eq_some_iff {ticket : Nat} : l.outcome ticket = some yes ↔
    l.answers.lookup ticket = some yes ∨
      l.answers.lookup ticket = none ∧ ticket ∉ l.waiting.map Errand.ticket ∧ yes = false := by
  unfold outcome
  cases l.answers.lookup ticket with
  | some yes' => simp
  | none => by_cases hw : ticket ∈ l.waiting.map Errand.ticket <;> simp [hw, eq_comm]

theorem Step.issued_le (hs : Step l l') : l.issued.length ≤ l'.issued.length := by
  cases hs with
  | accept | refuse => exact Nat.le_succ _
  | serve | drop => exact Nat.le_refl _

/-- What is settled stays as it is. -/
theorem Step.outcome {ticket : Nat} (hs : Step l l') (h : l.Sound) (ht : ticket < l.issued.length)
    (ho : l.outcome ticket = some yes) : l'.outcome ticket = some yes := by
  rw [outcome_eq_some_iff] at ho ⊢
  cases hs with
  | accept he =>
    refine ho.imp_right fun ⟨hl, hw, hyes⟩ => ⟨hl, ?_, hyes⟩
    rw [List.map_append, List.mem_append]
    rintro (hmem | hmem)
    · exact hw hmem
    · rw [List.mem_singleton.mp hmem, he] at ht
      exact Nat.lt_irrefl _ ht
  | refuse he => exact ho
  | @serve e waiting hwaiting reply =>
    have hmem : e.ticket ∈ l.waiting.map Errand.ticket := by
      rw [hwaiting]
      exact List.mem_map_of_mem List.mem_cons_self
    have hne : ticket ≠ e.ticket := by
      rintro rfl
      cases ho with
      | inl hl =>
        obtain ⟨e', hs, ht⟩ := (lookup_eq_some_iff h).mp hl
        exact (h.served _ hs).2 (ht ▸ hmem)
      | inr hdropped => exact hdropped.2.1 hmem
    have hlookup : ((answer? (e, reply)).toList ++ l.answers).lookup ticket = l.answers.lookup ticket := by
      cases reply with
      | answer yes => simp [answer?, List.lookup_cons, beq_false_of_ne hne]
      | done => rfl
      | panic text => rfl
    rw [answers_serve, hlookup]
    refine ho.imp_right fun ⟨hl, hw, hyes⟩ => ⟨hl, fun hmem => hw ?_, hyes⟩
    rw [hwaiting]
    exact List.mem_cons_of_mem _ hmem
  | drop hsub => exact ho.imp_right fun ⟨hl, hw, hyes⟩ => ⟨hl, fun hmem => hw ((hsub.map _).subset hmem), hyes⟩

end Ledger

end Tandem
