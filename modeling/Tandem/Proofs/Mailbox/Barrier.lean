import Tandem.Proofs.Mailbox.Delivery
import Tandem.Proofs.Mailbox.Nesting

/-!
Flushing. A sender that flushes a mailbox waits for a message of its own that does nothing. While senders may
wait, whatever was accepted before has come to its end by then, unless a release or a reset came between. Where
the last setting that was executed lets nobody wait, a flush returns at once and says nothing.
-/
namespace Tandem

namespace Exchange

variable {α : Type} {r : Manners} {x y z : Exchange α} {e : Event α} {es before after : List (Event α)}
  {m : Message α}

/-- Whether senders may wait, by the last setting that has been executed. The events are given newest first. -/
def waiting : List (Event α) → Bool
  | [] => true
  | .returned ⟨.setCanWait enabled, _, _, _⟩ :: _ => enabled
  | _ :: es => waiting es

theorem Run.canWait (h : Run r {} es x) : x.mailbox.canWait = waiting es := by
  induction h with
  | refl => rfl
  | @step es y e z _ hs ih =>
    cases hs with
    | accept payload wait breakpoint hr =>
      rw [Mailbox.post_of_not_isReleased hr]
      exact ih
    | refuse payload wait breakpoint hr =>
      rw [Mailbox.post_of_isReleased hr]
      exact ih
    | take _ hpop =>
      rw [(Mailbox.pop_eq_some hpop).2]
      exact ih
    | @giveBack m _ call _ hc =>
      obtain ⟨payload, id, sync, breakpoint⟩ := m
      obtain rfl : payload = .call call := hc
      exact ih
    | @setCanWait m _ enabled _ hc =>
      obtain ⟨payload, id, sync, breakpoint⟩ := m
      obtain rfl : payload = .setCanWait enabled := hc
      rfl
    | complete _ =>
      unfold Mailbox.complete
      split
      · exact ih
      · exact ih
    | panic | release | beginReset | endReset => exact ih

/-- The consumer is at one message at most. -/
def Alone (x : Exchange α) : Prop := x.hand = [] ∨ ∃ t, x.hand = [t]

theorem Alone.tail {t : Taken α} {rest : List (Taken α)} (h : Alone x) (hh : x.hand = t :: rest) :
    rest = [] := by
  cases h with
  | inl h => simp [h] at hh
  | inr h =>
    obtain ⟨t', h⟩ := h
    rw [h] at hh
    exact (List.cons.inj hh).2.symm

theorem Alone.step (h : Alone x) (hr : r.nests = false) (hs : Step r x e y) : Alone y := by
  cases hs with
  | take hn _ =>
    rcases hn with hn | hn
    · simp [hr] at hn
    · exact .inr ⟨_, by rw [hn]⟩
  | giveBack hh _ | setCanWait hh _ => exact .inr ⟨_, by rw [h.tail hh]⟩
  | complete hh | panic _ hh => exact .inl (h.tail hh)
  | accept | refuse | release | beginReset | endReset => exact h

theorem Alone.run (h : Alone x) (hr : r.nests = false) (hrun : Run r x es y) : Alone y := by
  induction hrun with
  | refl => exact h
  | step _ hs ih => exact ih.step hr hs

theorem Alone.start : Alone ({} : Exchange α) := .inl rfl

/-- Where no reset is under way, one that ends has begun by a release. -/
theorem Run.released_of_rearmed (h : Run r x es y) (hx : x.resetting = 0) (hes : .rearmed ∈ es) :
    ∃ dropped, .released dropped ∈ es := by
  have hrun : (∃ dropped, .released dropped ∈ es) ∨ (.rearmed ∉ es ∧ y.resetting = 0) := by
    clear hes
    induction h with
    | refl => exact .inr ⟨by simp, hx⟩
    | @step es y e z _ hs ih =>
      rcases ih with ⟨dropped, hd⟩ | ⟨hnone, hy⟩
      · exact .inl ⟨dropped, List.mem_cons_of_mem _ hd⟩
      · cases hs with
        | release | beginReset => exact .inl ⟨_, List.mem_cons_self⟩
        | endReset hn => simp [hy] at hn
        | accept | refuse | take | giveBack | setCanWait | complete | panic =>
          exact .inr ⟨by simpa using hnone, hy⟩
  exact hrun.resolve_right fun h => h.1 hes

/-- A call has come to its end, by returning or by breaking down. -/
def Ended (es : List (Event α)) (m : Message α) : Prop := .returned m ∈ es ∨ .failed m ∈ es

theorem mem_messages {f : Event α → List (Message α)} : m ∈ messages f es ↔ ∃ e ∈ es, m ∈ f e := by
  simp [messages]

theorem mem_accepts : m ∈ messages Event.accepts es ↔ .accepted m ∈ es := by
  refine mem_messages.trans ⟨fun ⟨e, he, hm⟩ => ?_, fun h => ⟨_, h, List.mem_singleton_self m⟩⟩
  cases e with
  | accepted m' => exact List.mem_singleton.mp hm ▸ he
  | _ => cases hm

theorem mem_begins : m ∈ messages Event.begins es ↔ .begun m ∈ es := by
  refine mem_messages.trans ⟨fun ⟨e, he, hm⟩ => ?_, fun h => ⟨_, h, List.mem_singleton_self m⟩⟩
  cases e with
  | begun m' => exact List.mem_singleton.mp hm ▸ he
  | _ => cases hm

theorem mem_drops : m ∈ messages Event.drops es ↔ ∃ dropped, .released dropped ∈ es ∧ m ∈ dropped := by
  refine mem_messages.trans ⟨fun ⟨e, he, hm⟩ => ?_, fun ⟨dropped, h, hm⟩ => ⟨_, h, hm⟩⟩
  cases e with
  | released dropped => exact ⟨dropped, he, hm⟩
  | _ => cases hm

/-- What was accepted and not dropped is begun or still queued. -/
theorem Run.accepted (h : Run r {} es x) (hm : .accepted m ∈ es)
    (hdropped : ∀ dropped, .released dropped ∈ es → m ∉ dropped) : .begun m ∈ es ∨ m ∈ x.mailbox.queue := by
  obtain ⟨gone, hf⟩ := Filed.start.run h
  rw [List.append_nil] at hf
  have hplace := hf.places.mem_iff.mp (mem_accepts.mpr hm)
  rw [List.mem_append, List.mem_append, mem_begins, mem_drops] at hplace
  refine hplace.resolve_right ?_
  rintro ⟨dropped, hd, hmd⟩
  exact hdropped dropped hd hmd

theorem Run.id_le_issued (h : Run r {} es x) (hm : .accepted m ∈ es) : m.id ≤ x.mailbox.issued := by
  obtain ⟨gone, hf⟩ := Filed.start.run h
  rw [List.append_nil] at hf
  exact hf.issued m (mem_accepts.mpr hm)

/-- When a message is completed, everything older has come to its end, but for the calls inside which it
was received. -/
theorem Run.ended_of_completed {later earlier : List (Event α)} {m' : Message α}
    (h : Run r {} (later ++ .completed m' :: earlier) z) (hm : .accepted m ∈ earlier)
    (hdropped : ∀ dropped, .released dropped ∈ earlier → m ∉ dropped) (hid : m.id < m'.id) :
    Ended earlier m ∨ r.nests = true ∧ .begun m ∈ earlier := by
  obtain ⟨y, _, hearlier, hs, -⟩ := h.split
  cases hs with
  | complete hh =>
    have hhand := (Ordered.start.run hearlier).hand ⟨m', true⟩ (by simp [hh])
    have hbegun : .begun m ∈ earlier := (hearlier.accepted hm hdropped).resolve_right fun hq =>
      absurd (hhand.2 m hq) (Nat.lt_asymm hid)
    cases hr : r.nests with
    | true => exact .inr ⟨rfl, hbegun⟩
    | false =>
      have halone := (Alone.start.run hr hearlier).tail hh
      refine .inl ((or_assoc.mpr (hearlier.ended_or_running hbegun)).resolve_right fun hrunning => ?_)
      simp [hh, halone] at hrunning

/-- What interrupts the mailbox while a sender waits is a release, or one of several resets. -/
theorem Run.interrupted (hx : Run r {} es x) {done : Nat} (hdone : x.mailbox.processed = some done)
    (hz : Run r x after z) (h : ∃ e ∈ after, e.interrupts = true) :
    (∃ dropped, .released dropped ∈ after) ∨ (r.overlaps = true ∧ .rearmed ∈ after) := by
  obtain ⟨e, he, hinterrupts⟩ := h
  cases e with
  | released dropped => exact .inl ⟨dropped, he⟩
  | rearmed =>
    cases ho : r.overlaps with
    | true => exact .inr ⟨rfl, he⟩
    | false =>
      have hcalm := (Calm.start.run ho hx).released
      have hresetting : x.resetting = 0 := Nat.eq_zero_of_not_pos fun hpos => by
        simp [hcalm hpos] at hdone
      exact .inl (hz.released_of_rearmed hresetting he)
  | _ => cases hinterrupts

/-- Once a message is completed that is as new as a flush, what was accepted before the flush has come to its
end, but for the calls that are still running around it. -/
theorem Run.ended_before_flush {flush m' : Message α} (h : Run r {} (after ++ .accepted flush :: before) z)
    (hafter : ∀ e ∈ after, e.interrupts = false) (hm' : .completed m' ∈ after) (hid : m.id < m'.id)
    (hm : .accepted m ∈ before) (hdropped : ∀ dropped, .released dropped ∈ before → m ∉ dropped) :
    Ended (after ++ before) m ∨ (r.nests = true ∧ .begun m ∈ after ++ before ∧ ⟨m, false⟩ ∈ z.hand) := by
  obtain ⟨later, earlier, rfl⟩ := List.append_of_mem hm'
  rw [List.append_assoc, List.cons_append] at h
  -- No release has come between, so what was dropped was dropped before.
  have hdropped' (dropped : List (Message α)) (hd : .released dropped ∈ earlier ++ .accepted flush :: before) :
      m ∉ dropped := by
    refine hdropped dropped ?_
    rcases List.mem_append.mp hd with hd | hd
    · cases hafter _ (List.mem_append_right _ (List.mem_cons_of_mem _ hd))
    · exact (List.mem_cons.mp hd).resolve_left (by simp)
  have hearlier {e : Event α} (he : e ∈ earlier ++ .accepted flush :: before) :
      e ∈ later ++ .completed m' :: (earlier ++ .accepted flush :: before) :=
    List.mem_append_right _ (List.mem_cons_of_mem _ he)
  have hother {e : Event α} (hne : e ≠ .accepted flush)
      (he : e ∈ later ++ .completed m' :: (earlier ++ .accepted flush :: before)) :
      e ∈ later ++ .completed m' :: earlier ++ before := by
    grind
  rcases h.ended_of_completed (by simp [hm]) hdropped' hid with hended | ⟨hnests, hbegun⟩
  · exact .inl (hended.imp (hother (by simp) <| hearlier ·) (hother (by simp) <| hearlier ·))
  · rcases h.ended_or_running (hearlier hbegun) with hreturned | hfailed | hrunning
    · exact .inl (.inl (hother (by simp) hreturned))
    · exact .inl (.inr (hother (by simp) hfailed))
    · exact .inr ⟨hnests, hother (by simp) (hearlier hbegun), hrunning⟩

/-- Where a flush has to wait, what was accepted before has come to its end once the sender is let go, unless
it was dropped before or the mailbox has been released since. The calls inside which something is received,
and a reset that runs into another one, are the exceptions. A flush need not wait just if the mailbox is
released or senders may not wait. -/
theorem Run.flushed (nothing : α) (hx : Run r {} before x)
    (hz : Run r { x with mailbox := (x.mailbox.post (.call nothing) true false).2 } after z) :
    ((x.mailbox.post (.call nothing) true false).1 = none ↔
      x.mailbox.isReleased = true ∨ waiting before = false) ∧
    ∀ i, (x.mailbox.post (.call nothing) true false).1 = some i → z.mailbox.holds i = false →
      (∃ dropped, .released dropped ∈ after) ∨ (r.overlaps = true ∧ .rearmed ∈ after) ∨
      ∀ m, .accepted m ∈ before → (∀ dropped, .released dropped ∈ before → m ∉ dropped) →
        Ended (after ++ before) m ∨ (r.nests = true ∧ .begun m ∈ after ++ before ∧ ⟨m, false⟩ ∈ z.hand) := by
  constructor
  · rw [← hx.canWait]
    cases hr : x.mailbox.isReleased with
    | true => simp [Mailbox.post_of_isReleased hr]
    | false => simp [Mailbox.post_of_not_isReleased hr, Mailbox.next]
  · intro i hi hlet
    obtain ⟨rfl, -, haccept, hwaits⟩ := Waits.of_post (r := r) (Ordered.start.run hx) hi
    obtain ⟨done, hdone, hlt⟩ := hwaits.held
    have hy := Run.step hx haccept
    by_cases hafter : ∀ e ∈ after, e.interrupts = false
    · refine .inr (.inr fun m hm hdropped => ?_)
      obtain ⟨m', hm', -, hid⟩ := (hz.holds_iff_completed hafter hdone hlt).mp hlet
      have hid' : m.id < m'.id := Nat.lt_of_lt_of_le (Nat.lt_succ_of_le (hx.id_le_issued hm)) hid
      exact (hy.append hz).ended_before_flush hafter hm' hid' hm hdropped
    · obtain ⟨e, he, hinterrupts⟩ : ∃ e ∈ after, e.interrupts = true := by simpa using hafter
      rcases hy.interrupted hdone hz ⟨e, he, hinterrupts⟩ with h | h
      · exact .inl h
      · exact .inr (.inl h)

def errand : Message Unit := ⟨.call (), 1, false, false⟩

def flushing : Message Unit := ⟨.call (), 2, true, false⟩

theorem flushed_errand : ∃ x z : Exchange Unit, Run {} {} [.accepted errand] x ∧
    (x.mailbox.post (.call ()) true false).1 = some 2 ∧
    Run {} { x with mailbox := (x.mailbox.post (.call ()) true false).2 }
      [.completed flushing, .returned flushing, .begun flushing, .completed errand, .returned errand,
        .begun errand] z ∧
    z.mailbox.holds 2 = false ∧ Ended [.completed flushing, .returned flushing, .begun flushing,
      .completed errand, .returned errand, .begun errand, .accepted errand] errand := by
  have hx : Run {} ({} : Exchange Unit) [.accepted errand] _ := .step .refl (.accept (.call ()) false false rfl)
  have h₁ : Run {} { mailbox := ⟨[errand, flushing], true, 2, some 0⟩ } [.begun errand] _ :=
    .step .refl (.take (.inr rfl) rfl)
  have h₂ : Run {} _ [.completed errand, .returned errand, .begun errand] _ :=
    .step (.step h₁ (.giveBack rfl rfl)) (.complete rfl)
  have h₃ : Run {} _ [.begun flushing, .completed errand, .returned errand, .begun errand] _ :=
    .step h₂ (.take (.inr rfl) rfl)
  have hz := Run.step (.step h₃ (.giveBack rfl rfl)) (.complete rfl)
  refine ⟨_, _, hx, rfl, hz, rfl, ?_⟩
  rcases (Run.flushed () hx hz).2 2 rfl rfl with hreleased | hrearmed | hended
  · simp at hreleased
  · simp at hrearmed
  · simpa using hended errand (by simp) (by simp)

/-- Nobody may wait any more. -/
def unwaiting : Message Unit := ⟨.setCanWait false, 1, true, true⟩

def unserved : Message Unit := ⟨.call (), 2, false, false⟩

/-- Where nobody may wait, a flush returns at once, with the call before it still to be begun. -/
theorem flush_returns_early : ∃ (before : List (Event Unit)) (x : Exchange Unit), Run {} {} before x ∧
    x.mailbox.isReleased = false ∧ (∀ dropped, .released dropped ∉ before) ∧
    .accepted unserved ∈ before ∧ .begun unserved ∉ before ∧ unserved ∈ x.mailbox.queue ∧
    (x.mailbox.post (.call ()) true false).1 = none := by
  have h₁ : Run {} ({} : Exchange Unit) [.begun unwaiting, .accepted unwaiting] _ :=
    .step (.step .refl (.accept (.setCanWait false) true true rfl)) (.take (.inr rfl) rfl)
  have h₂ : Run {} ({} : Exchange Unit) _ _ := .step (.step h₁ (.setCanWait rfl rfl)) (.complete rfl)
  have h₃ := Run.step h₂ (.accept (.call ()) false false rfl)
  refine ⟨_, _, h₃, rfl, by simp, List.mem_cons_self, ?_, List.mem_singleton_self unserved, rfl⟩
  simp [unwaiting, unserved]

end Exchange

end Tandem
