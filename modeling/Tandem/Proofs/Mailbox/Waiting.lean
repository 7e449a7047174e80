import Tandem.Proofs.Mailbox.Exchange

/-!
Synchronous sends. A sender that waits is let go by the completion of its own call or by a release, by
nothing else and never to be held again.
-/
namespace Tandem

namespace Exchange

variable {α : Type} {r : Manners} {x y z : Exchange α} {e : Event α} {es : List (Event α)}

/-! ### The numbers in an exchange -/

/-- What is in hand is older than what is queued, and nothing is newer than the last number issued. -/
structure Ordered (x : Exchange α) : Prop where
  hand : ∀ t ∈ x.hand, t.message.id ≤ x.mailbox.issued ∧
    ∀ m ∈ x.mailbox.queue, t.message.id < m.id
  queue : x.mailbox.queue.Pairwise (·.id < ·.id)
  issued : ∀ m ∈ x.mailbox.queue, m.id ≤ x.mailbox.issued
  processed : ∀ done, x.mailbox.processed = some done → done ≤ x.mailbox.issued

theorem Ordered.start : Ordered ({} : Exchange α) where
  hand := by simp
  queue := .nil
  issued := by simp
  processed := by simp

/-- An empty queue is in order, whatever else happens to the mailbox. -/
theorem Ordered.of_queue_nil {mailbox : Mailbox α} {n : Nat} (h : Ordered x) (hq : mailbox.queue = [])
    (hi : mailbox.issued = x.mailbox.issued)
    (hp : ∀ done, mailbox.processed = some done → done ≤ mailbox.issued) :
    Ordered { x with mailbox, resetting := n } where
  hand t ht := ⟨hi ▸ (h.hand t ht).1, by simp [hq]⟩
  queue := by simp [hq]
  issued := by simp [hq]
  processed := hp

theorem Ordered.accept (h : Ordered x) (payload : Payload α) (wait breakpoint : Bool)
    (hr : x.mailbox.isReleased = false) :
    Ordered { x with mailbox := (x.mailbox.post payload wait breakpoint).2 } := by
  rw [Mailbox.post_of_not_isReleased hr]
  refine ⟨fun t ht => ⟨Nat.le_succ_of_le (h.hand t ht).1, ?_⟩, ?_, ?_, ?_⟩
  · intro m hm
    cases List.mem_append.mp hm with
    | inl hm => exact (h.hand t ht).2 m hm
    | inr hm =>
      obtain rfl := List.mem_singleton.mp hm
      exact Nat.lt_succ_of_le (h.hand t ht).1
  · refine List.pairwise_append.mpr ⟨h.queue, List.pairwise_singleton _ _, fun m hm m' hm' => ?_⟩
    obtain rfl := List.mem_singleton.mp hm'
    exact Nat.lt_succ_of_le (h.issued m hm)
  · intro m hm
    cases List.mem_append.mp hm with
    | inl hm => exact Nat.le_succ_of_le (h.issued m hm)
    | inr hm =>
      obtain rfl := List.mem_singleton.mp hm
      exact Nat.le_refl _
  · exact fun done hd => Nat.le_succ_of_le (h.processed done hd)

theorem Ordered.take {m : Message α} {mailbox : Mailbox α} (h : Ordered x)
    (hpop : x.mailbox.pop = some (m, mailbox)) : Ordered { x with mailbox, hand := ⟨m, false⟩ :: x.hand } := by
  obtain ⟨hq, hm⟩ := Mailbox.pop_eq_some hpop
  have hqueue := h.queue
  rw [hq, List.pairwise_cons] at hqueue
  have hissued : mailbox.issued = x.mailbox.issued := by rw [hm]
  have hmem (m' : Message α) (h' : m' ∈ mailbox.queue) : m' ∈ x.mailbox.queue := by
    rw [hq]
    exact List.mem_cons_of_mem _ h'
  refine ⟨fun t ht => ?_, hqueue.2, ?_, ?_⟩
  · cases List.mem_cons.mp ht with
    | inl ht =>
      subst ht
      exact ⟨hissued ▸ h.issued m (by rw [hq]; exact List.mem_cons_self), hqueue.1⟩
    | inr ht => exact ⟨hissued ▸ (h.hand t ht).1, fun m' h' => (h.hand t ht).2 m' (hmem m' h')⟩
  · exact fun m' h' => hissued ▸ h.issued m' (hmem m' h')
  · intro done hd
    rw [hm] at hd
    exact hissued ▸ h.processed done hd

theorem Ordered.complete {t : Taken α} {rest : List (Taken α)} (h : Ordered x)
    (hh : x.hand = t :: rest) :
    Ordered { x with mailbox := x.mailbox.complete t.message, hand := rest } := by
  refine ⟨fun t' ht' => ?_, ?_, ?_, fun done hd => ?_⟩
  · rw [Mailbox.complete_queue, Mailbox.complete_issued]
    exact h.hand t' (by rw [hh]; exact List.mem_cons_of_mem _ ht')
  · rw [Mailbox.complete_queue]
    exact h.queue
  · rw [Mailbox.complete_queue, Mailbox.complete_issued]
    exact h.issued
  · have hhead := h.hand t (by rw [hh]; exact List.mem_cons_self)
    obtain ⟨before, hb, _, hle⟩ := Mailbox.processed_of_complete hd
    rw [Mailbox.complete_issued]
    exact Nat.le_trans hle (Nat.max_le.mpr ⟨h.processed before hb, hhead.1⟩)

theorem Ordered.hand_of_returned {m : Message α} {rest : List (Taken α)} (h : Ordered x)
    (hh : x.hand = ⟨m, false⟩ :: rest) : ∀ t ∈ ⟨m, true⟩ :: rest,
    t.message.id ≤ x.mailbox.issued ∧ ∀ m ∈ x.mailbox.queue, t.message.id < m.id := by
  intro t ht
  cases List.mem_cons.mp ht with
  | inl ht =>
    subst ht
    exact h.hand ⟨m, false⟩ (by rw [hh]; exact List.mem_cons_self)
  | inr ht => exact h.hand t (by rw [hh]; exact List.mem_cons_of_mem _ ht)

theorem Ordered.step (h : Ordered x) (hs : Step r x e y) : Ordered y := by
  cases hs with
  | accept payload wait breakpoint hr => exact h.accept payload wait breakpoint hr
  | refuse payload wait breakpoint hr =>
    rw [Mailbox.post_of_isReleased hr]
    exact h
  | take _ hpop => exact h.take hpop
  | giveBack hh _ => exact ⟨h.hand_of_returned hh, h.queue, h.issued, h.processed⟩
  | setCanWait hh _ => exact ⟨h.hand_of_returned hh, h.queue, h.issued, h.processed⟩
  | complete hh => exact h.complete hh
  | panic _ hh =>
    exact ⟨fun t ht => h.hand t (by rw [hh]; exact List.mem_cons_of_mem _ ht), h.queue, h.issued,
      h.processed⟩
  | release => exact h.of_queue_nil rfl rfl (by simp [Mailbox.release])
  | beginReset _ => exact h.of_queue_nil rfl rfl (by simp [Mailbox.release])
  | endReset hn =>
    refine ⟨h.hand, h.queue, h.issued, fun done hd => ?_⟩
    exact Nat.le_of_eq (Option.some.inj hd).symm

theorem Ordered.run (h : Ordered x) (hr : Run r x es y) : Ordered y := by
  induction hr with
  | refl => exact h
  | step _ hs ih => exact ih.step hs

/-- One reset is under way at most, and the mailbox is released meanwhile. -/
structure Calm (x : Exchange α) : Prop where
  single : x.resetting ≤ 1
  released : 0 < x.resetting → x.mailbox.processed = none

theorem Calm.step (h : Calm x) (hr : r.overlaps = false) (hs : Step r x e y) : Calm y := by
  cases hs with
  | accept payload wait breakpoint hr =>
    refine ⟨h.single, fun hn => ?_⟩
    have hp := h.released hn
    simp [Mailbox.isReleased, hp] at hr
  | refuse payload wait breakpoint hr =>
    rw [Mailbox.post_of_isReleased hr]
    exact h
  | take _ hpop =>
    refine ⟨h.single, fun hn => ?_⟩
    rw [(Mailbox.pop_eq_some hpop).2]
    exact h.released hn
  | complete _ =>
    refine ⟨h.single, fun hn => ?_⟩
    have hp := h.released hn
    unfold Mailbox.complete
    split
    · simp [hp]
    · exact hp
  | giveBack | setCanWait | panic => exact ⟨h.single, h.released⟩
  | release => exact ⟨h.single, fun _ => rfl⟩
  | beginReset ho =>
    rcases ho with ho | ho
    · simp [hr] at ho
    · exact ⟨by simp [ho], fun _ => rfl⟩
  | endReset hn =>
    have hs := h.single
    exact ⟨by simp only; omega, fun hpos => by simp only at hpos; omega⟩

theorem Calm.run (h : Calm x) (hr : r.overlaps = false) (hrun : Run r x es y) : Calm y := by
  induction hrun with
  | refl => exact h
  | step _ hs ih => exact ih.step hr hs

theorem Calm.start : Calm ({} : Exchange α) := ⟨Nat.zero_le _, by simp⟩

/-! ### A waiting sender -/

/-- The sender of a message has to wait for it. -/
structure Waits (m : Message α) (x : Exchange α) : Prop where
  held : ∃ done, x.mailbox.processed = some done ∧ done < m.id
  outstanding : m ∈ x.mailbox.queue ∨ ∃ t, x.hand = [t] ∧ t.message = m

/-- The sender of a message does not have to wait for it, and need never wait again. -/
structure LetGo (m : Message α) (x : Exchange α) : Prop where
  issued : m.id ≤ x.mailbox.issued
  free : ∀ done, x.mailbox.processed = some done → m.id ≤ done

/-- What lets the sender of a message go. -/
def Event.frees (m : Message α) (e : Event α) : Prop := e = .completed m ∨ ∃ dropped, e = .released dropped

theorem Waits.holds {m : Message α} (h : Waits m x) : x.mailbox.holds m.id = true := by
  obtain ⟨done, hp, hlt⟩ := h.held
  simpa [Mailbox.holds, hp] using hlt

theorem LetGo.holds {m : Message α} (h : LetGo m x) : x.mailbox.holds m.id = false := by
  unfold Mailbox.holds
  split
  next done hp => simpa using h.free done hp
  · rfl

theorem LetGo.step {m : Message α} (h : LetGo m x) (hs : Step r x e y) : LetGo m y := by
  refine ⟨Nat.le_trans h.issued hs.issued_le, fun done hd => ?_⟩
  cases hs with
  | accept payload wait breakpoint hr =>
    rw [Mailbox.post_of_not_isReleased hr] at hd
    exact h.free done hd
  | refuse payload wait breakpoint hr =>
    rw [Mailbox.post_of_isReleased hr] at hd
    exact h.free done hd
  | take _ hpop =>
    rw [(Mailbox.pop_eq_some hpop).2] at hd
    exact h.free done hd
  | complete _ =>
    obtain ⟨before, hb, hle, _⟩ := Mailbox.processed_of_complete hd
    exact Nat.le_trans (h.free before hb) hle
  | giveBack | setCanWait | panic => exact h.free done hd
  | release | beginReset => cases hd
  | endReset _ => exact Option.some.inj hd ▸ h.issued

theorem Waits.take {m m' : Message α} {mailbox : Mailbox α} (h : Waits m x) (hhand : x.hand = [])
    (hpop : x.mailbox.pop = some (m', mailbox)) : Waits m { x with mailbox, hand := ⟨m', false⟩ :: x.hand } := by
  obtain ⟨done, hp, hlt⟩ := h.held
  obtain ⟨hq, hm⟩ := Mailbox.pop_eq_some hpop
  refine ⟨⟨done, by rw [hm]; exact hp, hlt⟩, ?_⟩
  rcases h.outstanding with hmem | ⟨t, ht, _⟩
  · rw [hq] at hmem
    cases List.mem_cons.mp hmem with
    | inl he => exact .inr ⟨⟨m', false⟩, by rw [hhand], he.symm⟩
    | inr hmem => exact .inl hmem
  · simp [hhand] at ht

/-- Nothing changes for the sender when a call returns. -/
theorem Waits.of_returned {m m' : Message α} {rest : List (Taken α)} (h : Waits m x)
    (hh : x.hand = ⟨m', false⟩ :: rest) (hp : y.mailbox.processed = x.mailbox.processed)
    (hq : y.mailbox.queue = x.mailbox.queue) (hy : y.hand = ⟨m', true⟩ :: rest) : Waits m y := by
  refine ⟨hp ▸ h.held, ?_⟩
  rcases h.outstanding with hmem | ⟨t, ht, hm⟩
  · exact .inl (hq ▸ hmem)
  · rw [hh] at ht
    obtain ⟨rfl, rfl⟩ := List.cons.inj ht
    exact .inr ⟨⟨m', true⟩, hy, hm⟩

theorem Waits.complete {m : Message α} {t : Taken α} {rest : List (Taken α)} (h : Waits m x)
    (hsync : m.sync = true) (ho : Ordered x) (hissued : m.id ≤ x.mailbox.issued)
    (hh : x.hand = t :: rest) : let y := { x with mailbox := x.mailbox.complete t.message, hand := rest }
    (Waits m y ∧ t.message ≠ m) ∨ (LetGo m y ∧ t.message = m) := by
  obtain ⟨done, hp, hlt⟩ := h.held
  rcases h.outstanding with hmem | ⟨t', ht', hm⟩
  · -- An older call is completed, so the mark stays below the number that is waited for.
    have hlt' : t.message.id < m.id := (ho.hand t (by simp [hh])).2 m hmem
    have hne : t.message ≠ m := fun he => absurd hlt' (by simp [he])
    refine .inl ⟨⟨?_, .inl (by simpa using hmem)⟩, hne⟩
    unfold Mailbox.complete
    split
    · exact ⟨max done t.message.id, by simp [hp], Nat.max_lt.mpr ⟨hlt, hlt'⟩⟩
    · exact ⟨done, hp, hlt⟩
  · obtain rfl : t.message = m := by
      rw [hh] at ht'
      rw [← hm, ← (List.cons.inj ht').1]
    refine .inr ⟨⟨by simpa using hissued, fun done' hd => ?_⟩, rfl⟩
    simp only [Mailbox.complete, hsync, if_true, hp, Option.map_some, Option.some.injEq] at hd
    exact hd ▸ Nat.le_max_right _ _

/-- A sender that waits goes on waiting until one of two things happens. -/
theorem Waits.step {m : Message α} (h : Waits m x) (hsync : m.sync = true) (ho : Ordered x)
    (hx : Calm x) (hs : Step {} x e y) :
    (Waits m y ∧ ¬ Event.frees m e) ∨ (LetGo m y ∧ Event.frees m e) := by
  have hissued : m.id ≤ x.mailbox.issued := by
    rcases h.outstanding with hm | ⟨t, ht, rfl⟩
    · exact ho.issued m hm
    · exact (ho.hand t (by simp [ht])).1
  cases hs with
  | accept payload wait breakpoint hr =>
    rw [Mailbox.post_of_not_isReleased hr]
    refine .inl ⟨⟨h.held, ?_⟩, by simp [Event.frees]⟩
    exact h.outstanding.imp_left (List.mem_append_left _)
  | refuse payload wait breakpoint hr =>
    rw [Mailbox.post_of_isReleased hr]
    exact .inl ⟨h, by simp [Event.frees]⟩
  | take hn hpop => exact .inl ⟨h.take (hn.resolve_left (by simp)) hpop, by simp [Event.frees]⟩
  | giveBack hh _ => exact .inl ⟨h.of_returned hh rfl rfl rfl, by simp [Event.frees]⟩
  | setCanWait hh _ => exact .inl ⟨h.of_returned hh rfl rfl rfl, by simp [Event.frees]⟩
  | complete hh =>
    cases h.complete hsync ho hissued hh with
    | inl hw => exact .inl ⟨hw.1, by simpa [Event.frees] using hw.2⟩
    | inr hl => exact .inr ⟨hl.1, .inl (by rw [← hl.2])⟩
  | panic hpanic _ => cases hpanic
  | release => exact .inr ⟨⟨hissued, fun _ hd => by cases hd⟩, .inr ⟨_, rfl⟩⟩
  | beginReset _ => exact .inr ⟨⟨hissued, fun _ hd => by cases hd⟩, .inr ⟨_, rfl⟩⟩
  | endReset hn =>
    obtain ⟨done, hp, _⟩ := h.held
    have hreleased := hx.released (by omega)
    simp [hp] at hreleased

theorem Waits.run {m : Message α} (h : Waits m x) (hsync : m.sync = true) (ho : Ordered x)
    (hx : Calm x) (hr : Run {} x es y) :
    (Waits m y ∧ ∀ e ∈ es, ¬ Event.frees m e) ∨ (LetGo m y ∧ ∃ e ∈ es, Event.frees m e) := by
  induction hr with
  | refl => exact .inl ⟨h, by simp⟩
  | @step es y e z before hs ih =>
    cases ih with
    | inl ih =>
      cases ih.1.step hsync (ho.run before) (hx.run rfl before) hs with
      | inl hw =>
        refine .inl ⟨hw.1, fun e' he' => ?_⟩
        cases List.mem_cons.mp he' with
        | inl he' => exact he' ▸ hw.2
        | inr he' => exact ih.2 e' he'
      | inr hl => exact .inr ⟨hl.1, e, List.mem_cons_self, hl.2⟩
    | inr ih =>
      obtain ⟨hl, e', he', hf⟩ := ih
      exact .inr ⟨hl.step hs, e', List.mem_cons_of_mem _ he', hf⟩

/-- A sender that has to wait waits at first. -/
theorem Waits.of_post {payload : Payload α} {wait breakpoint : Bool} {i : Nat} (ho : Ordered x)
    (hi : (x.mailbox.post payload wait breakpoint).1 = some i) :
    i = (x.mailbox.next payload wait breakpoint).id ∧
      (x.mailbox.next payload wait breakpoint).sync = true ∧
      Step r x (.accepted (x.mailbox.next payload wait breakpoint))
        { x with mailbox := (x.mailbox.post payload wait breakpoint).2 } ∧
      Waits (x.mailbox.next payload wait breakpoint)
        { x with mailbox := (x.mailbox.post payload wait breakpoint).2 } := by
  cases hr : x.mailbox.isReleased with
  | true =>
    rw [Mailbox.post_of_isReleased hr] at hi
    cases hi
  | false =>
    have haccept : Step r x _ _ := .accept payload wait breakpoint hr
    rw [Mailbox.post_of_not_isReleased hr] at hi haccept ⊢
    dsimp only at hi
    split at hi
    next hsync =>
      obtain ⟨done, hp⟩ : ∃ done, x.mailbox.processed = some done := by
        cases hp : x.mailbox.processed with
        | none => simp [Mailbox.isReleased, hp] at hr
        | some done => exact ⟨done, rfl⟩
      refine ⟨(Option.some.inj hi).symm, hsync, haccept, ⟨done, hp, ?_⟩, .inl ?_⟩
      · exact Nat.lt_succ_of_le (ho.processed done hp)
      · exact List.mem_append_right _ (List.mem_singleton_self _)
    · cases hi

/-- What is in hand was taken out, and what has returned did so. -/
theorem Run.seen {m : Message α} (h : Run r x es y) (hm : ∀ t ∈ x.hand, t.message ≠ m) :
    ∀ t ∈ y.hand, t.message = m → .begun m ∈ es ∧ (t.returned = true → .returned m ∈ es) := by
  induction h with
  | refl => exact fun t ht he => absurd he (hm t ht)
  | @step es y e z _ hs ih =>
    have later {t : Taken α} (ht : t ∈ y.hand) (he : t.message = m) :
        .begun m ∈ e :: es ∧ (t.returned = true → .returned m ∈ e :: es) :=
      ⟨List.mem_cons_of_mem _ (ih t ht he).1, fun hr => List.mem_cons_of_mem _ ((ih t ht he).2 hr)⟩
    have returned {m' : Message α} {rest : List (Taken α)} (hh : y.hand = ⟨m', false⟩ :: rest)
        (he' : e = .returned m') : ∀ t ∈ ⟨m', true⟩ :: rest, t.message = m →
        .begun m ∈ e :: es ∧ (t.returned = true → .returned m ∈ e :: es) := by
      intro t ht he
      cases List.mem_cons.mp ht with
      | inl ht =>
        subst ht he'
        obtain rfl : m' = m := he
        exact ⟨(later (t := ⟨m', false⟩) (by simp [hh]) rfl).1, fun _ => List.mem_cons_self⟩
      | inr ht => exact later (by rw [hh]; exact List.mem_cons_of_mem _ ht) he
    intro t ht he
    cases hs with
    | @take m' _ _ _ =>
      cases List.mem_cons.mp ht with
      | inl ht =>
        subst ht
        obtain rfl : m' = m := he
        exact ⟨List.mem_cons_self, by simp⟩
      | inr ht => exact later ht he
    | giveBack hh _ => exact returned hh rfl t ht he
    | setCanWait hh _ => exact returned hh rfl t ht he
    | complete hh => exact later (by rw [hh]; exact List.mem_cons_of_mem _ ht) he
    | panic _ hh => exact later (by rw [hh]; exact List.mem_cons_of_mem _ ht) he
    | accept | refuse | release | beginReset | endReset => exact later ht he

/-- A message is completed only after its call was begun and has returned. -/
theorem Run.completed {m : Message α} {later earlier : List (Event α)}
    (h : Run r x (later ++ .completed m :: earlier) y) (hm : ∀ t ∈ x.hand, t.message ≠ m) :
    .begun m ∈ earlier ∧ .returned m ∈ earlier := by
  obtain ⟨_, _, before, hs, -⟩ := h.split
  cases hs with
  | complete hh =>
    obtain ⟨hb, hr⟩ := before.seen hm ⟨m, true⟩ (by simp [hh]) rfl
    exact ⟨hb, hr rfl⟩

/-- A synchronous sender waits until its own call has run and been completed, or until the mailbox is
released, and not once more after that. -/
theorem Run.holds_iff {before after : List (Event α)} {payload : Payload α} {wait breakpoint : Bool}
    {i : Nat} (hx : Run {} {} before x) (hi : (x.mailbox.post payload wait breakpoint).1 = some i)
    (hz : Run {} { x with mailbox := (x.mailbox.post payload wait breakpoint).2 } after z) :
    (z.mailbox.holds i = true ↔ .completed (x.mailbox.next payload wait breakpoint) ∉ after ∧
      ∀ dropped, .released dropped ∉ after) ∧
    ∀ later earlier, after = later ++ .completed (x.mailbox.next payload wait breakpoint) :: earlier →
      .begun (x.mailbox.next payload wait breakpoint) ∈ earlier ∧
      .returned (x.mailbox.next payload wait breakpoint) ∈ earlier := by
  have ho : Ordered x := Ordered.start.run hx
  obtain ⟨rfl, hsync, haccept, hwaits⟩ := Waits.of_post (r := {}) ho hi
  have hy := Run.step hx haccept
  refine ⟨?_, fun later earlier he => ?_⟩
  · cases hwaits.run hsync (Ordered.start.run hy) (Calm.start.run rfl hy) hz with
    | inl h =>
      refine iff_of_true h.1.holds ⟨fun hc => h.2 _ hc (.inl rfl), fun dropped hd => ?_⟩
      exact h.2 _ hd (.inr ⟨dropped, rfl⟩)
    | inr h =>
      obtain ⟨hl, e, he, hf⟩ := h
      refine iff_of_false (by simp [hl.holds]) fun hn => ?_
      rcases hf with rfl | ⟨dropped, rfl⟩
      · exact hn.1 he
      · exact hn.2 dropped he
  · subst he
    refine hz.completed fun t ht he => ?_
    have hle := (ho.hand t ht).1
    rw [he] at hle
    exact absurd hle (Nat.not_succ_le_self _)

/-- While its call runs, a sender waits. -/
theorem holds_iff_begun : ∃ z : Exchange Unit,
    Run {} { mailbox := (({} : Mailbox Unit).post (.call ()) true false).2 }
        [.begun ⟨.call (), 1, true, false⟩] z ∧
      z.mailbox.holds 1 = true := by
  have h : Run {} { mailbox := (({} : Mailbox Unit).post (.call ()) true false).2 }
      [.begun ⟨.call (), 1, true, false⟩] _ := .step .refl (.take (.inr rfl) rfl)
  exact ⟨_, h, (Run.holds_iff .refl rfl h).1.mpr ⟨by simp [Mailbox.next], by simp⟩⟩

end Exchange

end Tandem
