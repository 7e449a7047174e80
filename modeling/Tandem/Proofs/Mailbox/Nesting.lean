import Tandem.Mailbox.Consumer
import Tandem.Proofs.Mailbox.Waiting

/-!
Calls that receive while they run. The mark of what is completed never goes back, but it is one mark for all
numbers: a synchronous call that is received and completed inside another one lets the sender of the outer
call go, whose own call is still running. Nothing else lets a sender go before its call has returned.
-/
namespace Tandem

namespace Exchange

variable {α : Type} {r : Manners} {x y z : Exchange α} {e : Event α} {es before after : List (Event α)}
  {m m' : Message α}

/-- Whether an event is a release, or a half of a reset. -/
def Event.interrupts : Event α → Bool
  | .released _ | .rearmed => true
  | _ => false

/-! ### The mark -/

/-- The mark of a mailbox that nobody releases or resets moves forward, and as far as the newest synchronous
message that is completed. -/
theorem Run.processed (h : Run r x es y) (hes : ∀ e ∈ es, e.interrupts = false) {done : Nat}
    (hdone : x.mailbox.processed = some done) : ∃ done', y.mailbox.processed = some done' ∧ done ≤ done' ∧
      ∀ i, done < i → (i ≤ done' ↔ ∃ m, .completed m ∈ es ∧ m.sync = true ∧ i ≤ m.id) := by
  induction h with
  | refl => exact ⟨done, hdone, Nat.le_refl _, fun i hi => by simpa using hi⟩
  | @step es y e z _ hs ih =>
    obtain ⟨done', hy, hle, hiff⟩ := ih fun e he => hes e (List.mem_cons_of_mem _ he)
    have he := hes e List.mem_cons_self
    -- All but a completion leave the mark where it is.
    have unmoved (hz : z.mailbox.processed = y.mailbox.processed) (hne : ∀ m, e ≠ .completed m) :
        ∃ done', z.mailbox.processed = some done' ∧ done ≤ done' ∧
          ∀ i, done < i → (i ≤ done' ↔ ∃ m, .completed m ∈ e :: es ∧ m.sync = true ∧ i ≤ m.id) := by
      refine ⟨done', hz.trans hy, hle, fun i hi => (hiff i hi).trans ?_⟩
      simp [fun m => (hne m).symm]
    cases hs with
    | accept payload wait breakpoint hr =>
      rw [Mailbox.post_of_not_isReleased hr] at unmoved ⊢
      exact unmoved rfl (by simp)
    | refuse payload wait breakpoint hr =>
      rw [Mailbox.post_of_isReleased hr] at unmoved ⊢
      exact unmoved rfl (by simp)
    | take _ hpop => exact unmoved (by rw [(Mailbox.pop_eq_some hpop).2]) (by simp)
    | giveBack | setCanWait | panic => exact unmoved rfl (by simp)
    | release | beginReset | endReset => cases he
    | @complete m rest _ =>
      cases hsync : m.sync with
      | false =>
        refine ⟨done', by simp [Mailbox.complete, hsync, hy], hle, fun i hi => (hiff i hi).trans ?_⟩
        simp [or_and_right, exists_or, hsync]
      | true =>
        refine ⟨max done' m.id, by simp [Mailbox.complete, hsync, hy], by omega, fun i hi => ?_⟩
        have hmax : i ≤ max done' m.id ↔ i ≤ done' ∨ i ≤ m.id := by omega
        rw [hmax, hiff i hi]
        simp [or_and_right, exists_or, hsync, or_comm]

/-- A sender waits just as long as no synchronous message as new as its own is completed. -/
theorem Run.holds_iff_completed (h : Run r x es y) (hes : ∀ e ∈ es, e.interrupts = false) {done i : Nat}
    (hdone : x.mailbox.processed = some done) (hi : done < i) :
    y.mailbox.holds i = false ↔ ∃ m, .completed m ∈ es ∧ m.sync = true ∧ i ≤ m.id := by
  obtain ⟨done', hy, -, hiff⟩ := h.processed hes hdone
  rw [← hiff i hi]
  simp [Mailbox.holds, hy]

/-! ### Where a message is -/

/-- What was queued still is, or has been begun. -/
theorem Run.queued_or_begun (h : Run r x es y) (hes : ∀ e ∈ es, e.interrupts = false)
    (hm : m ∈ x.mailbox.queue) : m ∈ y.mailbox.queue ∨ .begun m ∈ es := by
  induction h with
  | refl => exact .inl hm
  | @step es y e z _ hs ih =>
    have he := hes e List.mem_cons_self
    refine (ih fun e he => hes e (List.mem_cons_of_mem _ he)).elim (fun hq => ?_)
      fun hb => .inr (List.mem_cons_of_mem _ hb)
    cases hs with
    | accept payload wait breakpoint hr =>
      rw [Mailbox.post_of_not_isReleased hr]
      exact .inl (List.mem_append_left _ hq)
    | refuse payload wait breakpoint hr =>
      rw [Mailbox.post_of_isReleased hr]
      exact .inl hq
    | take _ hpop =>
      rw [(Mailbox.pop_eq_some hpop).1] at hq
      cases List.mem_cons.mp hq with
      | inl he => exact .inr (he ▸ List.mem_cons_self)
      | inr hq => exact .inl hq
    | complete _ => exact .inl (by simpa using hq)
    | giveBack | setCanWait | panic => exact .inl hq
    | release | beginReset | endReset => cases he

/-- A call that was begun has come to an end, or is still running. -/
theorem Run.ended_or_running (h : Run r x es y) (hm : .begun m ∈ es) :
    .returned m ∈ es ∨ .failed m ∈ es ∨ ⟨m, false⟩ ∈ y.hand := by
  induction h with
  | refl => cases hm
  | @step es y e z _ hs ih =>
    -- What is over stays over, so only a call that was running needs a look.
    have later (hrun : ⟨m, false⟩ ∈ y.hand → .returned m ∈ e :: es ∨ .failed m ∈ e :: es ∨ ⟨m, false⟩ ∈ z.hand)
        (hm : .begun m ∈ es) : .returned m ∈ e :: es ∨ .failed m ∈ e :: es ∨ ⟨m, false⟩ ∈ z.hand :=
      (ih hm).elim (fun h => .inl (List.mem_cons_of_mem _ h)) fun h =>
        h.elim (fun h => .inr (.inl (List.mem_cons_of_mem _ h))) hrun
    cases hs with
    | @take m' _ _ _ =>
      cases List.mem_cons.mp hm with
      | inl he =>
        obtain rfl : m = m' := Event.begun.inj he
        exact .inr (.inr List.mem_cons_self)
      | inr hm => exact later (fun h => .inr (.inr (List.mem_cons_of_mem _ h))) hm
    | giveBack hh _ | setCanWait hh _ =>
      refine later (fun h => ?_) ((List.mem_cons.mp hm).resolve_left (by simp))
      rw [hh] at h
      cases List.mem_cons.mp h with
      | inl h =>
        cases h
        exact .inl List.mem_cons_self
      | inr h => exact .inr (.inr (List.mem_cons_of_mem _ h))
    | complete hh =>
      refine later (fun h => ?_) ((List.mem_cons.mp hm).resolve_left (by simp))
      rw [hh] at h
      exact .inr (.inr ((List.mem_cons.mp h).resolve_left (by simp)))
    | panic _ hh =>
      refine later (fun h => ?_) ((List.mem_cons.mp hm).resolve_left (by simp))
      rw [hh] at h
      cases List.mem_cons.mp h with
      | inl h =>
        cases h
        exact .inr (.inl List.mem_cons_self)
      | inr h => exact .inr (.inr h)
    | accept | refuse | release | beginReset | endReset =>
      exact later (fun h => .inr (.inr h)) ((List.mem_cons.mp hm).resolve_left (by simp))

/-! ### Senders of calls that receive -/

/-- A synchronous call is received and completed inside another call. -/
def Inside (es : List (Event α)) (m m' : Message α) : Prop :=
  m'.sync = true ∧ ∃ later earlier, es = later ++ .begun m' :: earlier ∧ .begun m ∈ earlier ∧
    .completed m' ∈ later

/-- What is received while a call is running is newer. -/
theorem Inside.id_lt (h : Inside es m m') (hr : Run r x es y) (hx : Ordered x) (hreturned : .returned m ∉ es)
    (hfailed : .failed m ∉ es) : m.id < m'.id := by
  obtain ⟨-, later, earlier, rfl, hbegun, -⟩ := h
  obtain ⟨w, w', hearlier, hs, -⟩ := hr.split
  have hmem {e : Event α} (he : e ∈ earlier) : e ∈ later ++ .begun m' :: earlier :=
    List.mem_append_right _ (List.mem_cons_of_mem _ he)
  have hrunning : ⟨m, false⟩ ∈ w.hand :=
    (hearlier.ended_or_running hbegun).elim (fun h => absurd (hmem h) hreturned) fun h =>
      h.elim (fun h => absurd (hmem h) hfailed) id
  cases hs with
  | take _ hpop =>
    refine ((hx.run hearlier).hand _ hrunning).2 m' ?_
    rw [(Mailbox.pop_eq_some hpop).1]
    exact List.mem_cons_self

/-- A newer message that is completed before a call has ended was received inside this call. -/
theorem Inside.of_completed (hr : Run r x es y) (hes : ∀ e ∈ es, e.interrupts = false) (hx : Ordered x)
    (hm : m ∈ x.mailbox.queue) (hhand : ∀ t ∈ x.hand, t.message ≠ m') (hcompleted : .completed m' ∈ es)
    (hsync : m'.sync = true) (hid : m.id ≤ m'.id) (hne : m ≠ m') : Inside es m m' := by
  obtain ⟨later, earlier, rfl⟩ := List.append_of_mem hcompleted
  obtain ⟨later', earlier', rfl⟩ := List.append_of_mem (hr.completed hhand).1
  refine ⟨hsync, later ++ .completed m' :: later', earlier', by simp, ?_, by simp⟩
  obtain ⟨_, _, hrun, -, -⟩ := hr.split
  obtain ⟨w, _, hearlier, hs, -⟩ := hrun.split
  have hw := hx.run hearlier
  refine (hearlier.queued_or_begun (fun e he => hes e (by simp [he])) hm).resolve_left fun hq => ?_
  -- Of what is queued the oldest is taken.
  cases hs with
  | take _ hpop =>
    have hqueue := hw.queue
    rw [(Mailbox.pop_eq_some hpop).1] at hq hqueue
    have hlt := (List.pairwise_cons.mp hqueue).1 m ((List.mem_cons.mp hq).resolve_left hne)
    omega

/-- A sender is let go by the completion of its own call. Before that call has ended, it is let go just if a
synchronous call is received and completed inside it. The mark that decides this never goes back. -/
theorem Run.holds_iff_inside {payload : Payload α} {wait breakpoint : Bool} {i : Nat}
    (hx : Run r {} before x) (hi : (x.mailbox.post payload wait breakpoint).1 = some i)
    (hz : Run r { x with mailbox := (x.mailbox.post payload wait breakpoint).2 } after z)
    (hafter : ∀ e ∈ after, e.interrupts = false) :
    (z.mailbox.holds i = false ↔ ∃ m', .completed m' ∈ after ∧ m'.sync = true ∧ i ≤ m'.id) ∧
    (.completed (x.mailbox.next payload wait breakpoint) ∈ after → z.mailbox.holds i = false) ∧
    (.returned (x.mailbox.next payload wait breakpoint) ∉ after →
      .failed (x.mailbox.next payload wait breakpoint) ∉ after →
      (z.mailbox.holds i = false ↔ ∃ m', Inside after (x.mailbox.next payload wait breakpoint) m')) ∧
    ∀ done, x.mailbox.processed = some done → ∃ done', z.mailbox.processed = some done' ∧ done ≤ done' := by
  have ho : Ordered x := Ordered.start.run hx
  obtain ⟨rfl, hsync, haccept, hwaits⟩ := Waits.of_post (r := r) ho hi
  have hy := ho.step haccept
  obtain ⟨done, hdone, hlt⟩ := hwaits.held
  have hcompleted := hz.holds_iff_completed hafter hdone hlt
  have hnew {m' : Message α} (hle : (x.mailbox.next payload wait breakpoint).id ≤ m'.id) :
      ∀ t ∈ x.hand, t.message ≠ m' := by
    intro t ht he
    have hissued := (ho.hand t ht).1
    rw [he] at hissued
    exact absurd (Nat.le_trans hle hissued) (Nat.not_succ_le_self _)
  have hqueued : x.mailbox.next payload wait breakpoint ∈
      (x.mailbox.post payload wait breakpoint).2.queue := by
    refine hwaits.outstanding.resolve_right ?_
    rintro ⟨t, ht, he⟩
    exact hnew (Nat.le_refl _) t (by rw [show x.hand = [t] from ht]; exact List.mem_singleton_self t) he
  refine ⟨hcompleted, fun h => hcompleted.mpr ⟨_, h, hsync, Nat.le_refl _⟩, fun hreturned hfailed => ?_, ?_⟩
  · rw [hcompleted]
    constructor
    · rintro ⟨m', hm', hsync', hid⟩
      refine ⟨m', .of_completed hz hafter hy hqueued (hnew hid) hm' hsync' hid fun he => hreturned ?_⟩
      obtain ⟨later, earlier, rfl⟩ := List.append_of_mem hm'
      rw [he]
      exact List.mem_append_right _ (List.mem_cons_of_mem _ (hz.completed (hnew hid)).2)
    · rintro ⟨m', hinside⟩
      have hid := Nat.le_of_lt (hinside.id_lt hz hy hreturned hfailed)
      obtain ⟨hsync', later, earlier, rfl, -, hm'⟩ := hinside
      exact ⟨m', List.mem_append_left _ hm', hsync', hid⟩
  · intro before hbefore
    have hposted : (x.mailbox.post payload wait breakpoint).2.processed = some before := by
      simp [Mailbox.post, hbefore]
    obtain ⟨done', hdone', hle, -⟩ := hz.processed hafter hposted
    exact ⟨done', hdone', hle⟩

def outer : Message Nat := ⟨.call 1, 1, true, false⟩

def inner : Message Nat := ⟨.call 2, 2, true, false⟩

/-- The outer call runs, and the inner one has been sent and received meanwhile. -/
theorem run_inner : ∃ z : Exchange Nat, Run { nests := true }
    { mailbox := (({} : Mailbox Nat).post (.call 1) true false).2 }
    [.completed inner, .returned inner, .begun inner, .accepted inner, .begun outer] z ∧
    z.mailbox.processed = some 2 ∧ z.hand = [⟨outer, false⟩] := by
  have h₁ : Run { nests := true } { mailbox := (({} : Mailbox Nat).post (.call 1) true false).2 }
      [.begun outer] _ := .step .refl (.take (.inl rfl) rfl)
  have h₂ : Run { nests := true } _ [.begun inner, .accepted inner, .begun outer] _ :=
    .step (.step h₁ (.accept (.call 2) true false rfl)) (.take (.inl rfl) rfl)
  exact ⟨_, .step (.step h₂ (.giveBack rfl rfl)) (.complete rfl), rfl, rfl⟩

theorem holds_iff_inside_inner : ∃ z : Exchange Nat, Run { nests := true }
    { mailbox := (({} : Mailbox Nat).post (.call 1) true false).2 }
    [.completed inner, .returned inner, .begun inner, .accepted inner, .begun outer] z ∧
    (({} : Mailbox Nat).post (.call 1) true false).1 = some 1 ∧
    Inside [.completed inner, .returned inner, .begun inner, .accepted inner, .begun outer] outer inner ∧
    z.mailbox.holds 1 = false := by
  obtain ⟨z, hz, -, -⟩ := run_inner
  have hinside : Inside [.completed inner, .returned inner, .begun inner, .accepted inner, .begun outer]
      outer inner := ⟨rfl, [.completed inner, .returned inner], _, rfl, by simp, by simp⟩
  have hsent : (({} : Mailbox Nat).post (.call 1) true false).1 = some 1 := rfl
  have hiff := (Run.holds_iff_inside .refl hsent hz (by simp [Event.interrupts])).2.2.1
    (by simp [Mailbox.next, inner]) (by simp)
  exact ⟨z, hz, rfl, hinside, hiff.mpr ⟨inner, hinside⟩⟩

/-- The sender of a call that is still running need not wait for it any more. -/
theorem let_go_while_running : ∃ (after : List (Event Nat)) (z : Exchange Nat),
    Run { nests := true } { mailbox := (({} : Mailbox Nat).post (.call 1) true false).2 } after z ∧
    (∀ e ∈ after, e.interrupts = false) ∧ (({} : Mailbox Nat).post (.call 1) true false).1 = some 1 ∧
    z.hand = [⟨outer, false⟩] ∧ z.mailbox.holds 1 = false := by
  obtain ⟨z, hz, hprocessed, hhand⟩ := run_inner
  refine ⟨_, z, hz, by simp [Event.interrupts], rfl, hhand, ?_⟩
  simp [Mailbox.holds, hprocessed]

/-- A call that receives and then breaks down has let its sender go. -/
example : let call : Mailbox.Procedure Nat := .sequence [.receive, .panic "broken"]
    let m := ((({} : Mailbox _).post (.call call) true false).2.post (.call .nothing) true false).2
    (Mailbox.Consumer.receive { mailbox := m }).2.mailbox.holds 1 = false := by
  cbv

end Exchange

end Tandem
