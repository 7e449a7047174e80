import Tandem.Proofs.Mailbox.Waiting
import Tandem.Proofs.Session.Handles

/-!
The mailbox of a service. A thread that serves it has it open, and a request to pause is pending until the
machine is paused or the thread has gone.
-/
namespace Tandem

namespace Session

variable {k : Console}

/-- The machine pauses, or there is no thread that has it. -/
def IsHalted (s : Session k) : Prop := s.status = .paused ∨ s.isServed = false

theorem unserved_depart (s : Session k) (d : Departure k) : (s.depart d).isServed = false := by
  cases d <;> rfl

theorem mailbox_send (s : Session k) (r : Request k) (wait : Bool) (events : List Event) :
    (s.send r wait events).2.mailbox = (s.mailbox.post (.call ⟨s.tickets, r⟩) wait false).2 := by
  unfold send
  dsimp only
  split
  · rfl
  · rw [emitAll_eq]

end Session

namespace Service

variable {k : Console} {x y : Service k} {a : Deed k}

theorem Tidy.departure_of_hand {t : Taken (Errand k)} (h : Tidy x) (hh : x.hand = some t) :
    x.departure = none := by
  by_contra hd
  rw [h.leaving hd] at hh
  cases hh

/-! ### The mailbox -/

def exchange (x : Service k) : Exchange (Errand k) where
  mailbox := x.session.mailbox
  hand := x.hand.toList

/-- Messages are in order, and a thread that serves them has its mailbox open. -/
structure Queued (x : Service k) : Prop where
  ordered : x.exchange.Ordered
  serving : x.session.isServed = true → x.session.mailbox.isReleased = false

theorem Queued.of_session {s' : Session k} (h : Queued x) (hm : s'.mailbox = x.session.mailbox)
    (hs : s'.isServed = true → x.session.isServed = true) : Queued { x with session := s' } := by
  refine ⟨?_, fun hserved => ?_⟩
  · have he : exchange { x with session := s' } = x.exchange := by
      unfold exchange
      dsimp only
      rw [hm]
    rw [he]
    exact h.ordered
  · dsimp only
    rw [hm]
    exact h.serving (hs hserved)

theorem Queued.send (h : Queued x) (r : Request k) (wait : Bool) (events : List Event) :
    Queued { x with session := (x.session.send r wait events).2 } := by
  have hserved := (Session.same_send x.session r wait events).isServed
  have hm := Session.mailbox_send x.session r wait events
  cases hr : x.session.mailbox.isReleased with
  | true =>
    rw [Mailbox.post_of_isReleased hr] at hm
    exact h.of_session hm fun hs => hserved ▸ hs
  | false =>
    refine ⟨?_, fun _ => ?_⟩
    · have ho := h.ordered.accept (.call ⟨x.session.tickets, r⟩) wait false hr
      unfold exchange
      dsimp only
      rw [hm]
      exact ho
    · dsimp only
      rw [hm, Mailbox.post_of_not_isReleased hr]
      exact hr

theorem Queued.ask (h : Queued x) (r : Request k) : Queued { x with session := (x.session.ask r).2 } := by
  obtain ha | ⟨wait, events, ha⟩ := Session.ask_cases x.session r
  · rw [ha]
    exact h.of_session rfl id
  · rw [ha]
    exact h.send r wait events

theorem Queued.apart {b : Session.Act k} {s' : Session k} (h : Queued x) (hb : b.isApart = true)
    (hs : Session.Step x.session b s') : Queued { x with session := s' } := by
  cases hs with
  | join hj =>
    obtain ⟨_, _, he, rfl⟩ | ⟨_, he, rfl⟩ := Session.join?_eq_some hj
    · exact h.of_session rfl nofun
    · exact ⟨h.ordered.of_queue_nil rfl rfl nofun, nofun⟩
  | rebuild he => exact h.of_session rfl nofun
  | signal he => exact h.of_session rfl fun _ => Session.isServed_of_running he
  | elsewhere => exact h.of_session rfl id
  | switchOn | ask | requestEnd | advance => cases hb

theorem isReleased_complete (mailbox : Mailbox (Errand k)) (message : Message (Errand k)) :
    (mailbox.complete message).isReleased = mailbox.isReleased := by
  unfold Mailbox.complete Mailbox.isReleased
  split
  · exact Option.isNone_map
  · rfl

theorem Step.queued (hs : Step x a y) (h : Queued x) : Queued y := by
  -- A message that has been run is in hand as it was before.
  have hreturned {message : Message (Errand k)} (hh : x.hand = some ⟨message, false⟩) :=
    h.ordered.hand_of_returned (show x.exchange.hand = ⟨message, false⟩ :: [] by rw [exchange, hh]; rfl)
  cases hs with
  | ask r => exact h.ask r
  | send r wait events => exact h.send r wait events
  | wake =>
    rw [Session.emitAll_eq]
    exact h.of_session rfl id
  | apart hb hs => exact h.apart hb hs
  | start =>
    refine ⟨?_, fun _ => rfl⟩
    exact h.ordered.of_queue_nil rfl rfl fun done hd => Nat.le_of_eq (Option.some.inj hd).symm
  | take hd hh he hp =>
    have ho := h.ordered.take hp
    rw [exchange, hh] at ho
    refine ⟨ho, fun hserved => ?_⟩
    have hopen := h.serving hserved
    rw [(Mailbox.pop_eq_some hp).2]
    exact hopen
  | serve hh hm he =>
    exact ⟨⟨hreturned hh, h.ordered.queue, h.ordered.issued, h.ordered.processed⟩,
      fun _ => h.serving (Session.isServed_of_running he)⟩
  | setCanWait hh =>
    exact ⟨⟨hreturned hh, h.ordered.queue, h.ordered.issued, h.ordered.processed⟩, h.serving⟩
  | @complete message hh =>
    have hran : x.exchange.hand = ⟨message, true⟩ :: [] := by
      rw [exchange, hh]
      rfl
    exact ⟨h.ordered.complete hran, fun hserved => (isReleased_complete _ _).trans (h.serving hserved)⟩
  | work hd hh he =>
    exact h.of_session rfl fun _ => Session.isServed_of_running he
  | leave | find => exact ⟨h.ordered, h.serving⟩
  | breakDown => exact ⟨⟨nofun, h.ordered.queue, h.ordered.issued, h.ordered.processed⟩, h.serving⟩
  | @release d hd =>
    refine ⟨?_, fun hserved => ?_⟩
    · cases d <;> exact h.ordered.of_queue_nil rfl rfl nofun
    · rw [Session.unserved_depart] at hserved
      cases hserved

/-! ### Whoever waits for a pause -/

/-- A request to pause has not been served, and the thread has not gone. -/
structure Pending (m : Message (Errand k)) (x : Service k) : Prop where
  held : ∃ done, x.session.mailbox.processed = some done ∧ done < m.id
  outstanding : m ∈ x.session.mailbox.queue ∨ x.hand = some ⟨m, false⟩ ∨ x.departure ≠ none

variable {m : Message (Errand k)}

theorem Pending.holds (h : Pending m x) : x.session.mailbox.holds m.id = true := by
  obtain ⟨done, hp, hlt⟩ := h.held
  simpa [Mailbox.holds, hp] using hlt

theorem Pending.isServed (h : Pending m x) (ht : x.Tidy) : x.session.isServed = true := by
  by_contra hn
  obtain ⟨done, hp, _⟩ := h.held
  rw [(ht.shut (eq_false_of_ne_true hn)).processed] at hp
  cases hp

theorem Pending.of_session {s' : Session k} (h : Pending m x)
    (hm : s'.mailbox = x.session.mailbox) : Pending m { x with session := s' } := by
  refine ⟨?_, h.outstanding.imp_left fun hq => ?_⟩
  · dsimp only
    rw [hm]
    exact h.held
  · dsimp only
    rw [hm]
    exact hq

theorem Pending.send (h : Pending m x) (r : Request k) (wait : Bool) (events : List Event) :
    Pending m { x with session := (x.session.send r wait events).2 } := by
  obtain ⟨done, hp, hlt⟩ := h.held
  have hr : x.session.mailbox.isReleased = false := by rw [Mailbox.isReleased, hp]; rfl
  have hm := Session.mailbox_send x.session r wait events
  rw [Mailbox.post_of_not_isReleased hr] at hm
  refine ⟨⟨done, ?_, hlt⟩, h.outstanding.imp_left fun hq => ?_⟩
  · dsimp only
    rw [hm]
    exact hp
  · dsimp only
    rw [hm]
    exact List.mem_append_left _ hq

/-- The thread completes an older message while a pause is pending. -/
theorem Pending.complete {message : Message (Errand k)} (h : Pending m x) (hq : Queued x) (ht : x.Tidy)
    (hh : x.hand = some ⟨message, true⟩) :
    Pending m { x with session.mailbox := x.session.mailbox.complete message, hand := none } := by
  obtain ⟨done, hp, hlt⟩ := h.held
  rcases h.outstanding with hmem | hhand | hd
  · have hhand : (⟨message, true⟩ : Taken (Errand k)) ∈ x.exchange.hand := by
      rw [exchange, hh]
      exact List.mem_singleton_self _
    have hlt' : message.id < m.id := (hq.ordered.hand _ hhand).2 m hmem
    refine ⟨?_, .inl (by simpa using hmem)⟩
    dsimp only
    unfold Mailbox.complete
    split
    · exact ⟨max done message.id, by simp [hp], Nat.max_lt.mpr ⟨hlt, hlt'⟩⟩
    · exact ⟨done, hp, hlt⟩
  · rw [hh] at hhand
    cases hhand
  · exact absurd (ht.departure_of_hand hh) hd

/-- A pause is pending until the machine is halted. -/
theorem Step.pending (hs : Step x a y) (ht : x.Tidy) (hq : Queued x) (h : Pending m x)
    (hm : ∃ ticket, m.payload = .call ⟨ticket, .pause⟩) : Pending m y ∨ y.session.IsHalted := by
  obtain ⟨ticket, hpause⟩ := hm
  have hserved := h.isServed ht
  have hgone (hn : x.session.isServed = false) : False := by
    rw [hserved] at hn
    cases hn
  cases hs with
  | ask r =>
    obtain ha | ⟨wait, events, ha⟩ := Session.ask_cases x.session r
    · rw [ha]
      exact .inl (h.of_session rfl)
    · rw [ha]
      exact .inl (h.send r wait events)
  | send r wait events => exact .inl (h.send r wait events)
  | wake =>
    rw [Session.emitAll_eq]
    exact .inl (h.of_session rfl)
  | apart hb hs =>
    cases hs with
    | join hj =>
      obtain ⟨_, _, he, _⟩ | ⟨_, he, _⟩ := Session.join?_eq_some hj
      · exact (hgone (by rw [Session.isServed, he])).elim
      · exact (hgone (by rw [Session.isServed, he])).elim
    | rebuild | signal | elsewhere => exact .inl (h.of_session rfl)
    | switchOn | ask | requestEnd | advance => cases hb
  | start he => exact (hgone (by rw [Session.isServed, he])).elim
  | @take core message mailbox hd hh he hp =>
    obtain ⟨done, hdone, hlt⟩ := h.held
    obtain ⟨hqueue, hmailbox⟩ := Mailbox.pop_eq_some hp
    have hheld : mailbox.processed = some done := by
      rw [hmailbox]
      exact hdone
    refine .inl ⟨⟨done, hheld, hlt⟩, ?_⟩
    rcases h.outstanding with hmem | hhand | hd'
    · rw [hqueue] at hmem
      cases List.mem_cons.mp hmem with
      | inl he' => exact .inr (.inl (by rw [he']))
      | inr hmem => exact .inl hmem
    · rw [hh] at hhand
      cases hhand
    · exact absurd hd hd'
  | @serve core message errand reply m' hh hm he hr hreply =>
    rcases h.outstanding with hmem | hhand | hd
    · exact .inl ⟨h.held, .inl hmem⟩
    · -- The pause itself is served.
      obtain rfl : message = m := by
        rw [hh] at hhand
        cases hhand
        rfl
      rw [hpause] at hm
      obtain rfl := Payload.call.inj hm
      cases hr
      exact .inr (.inl rfl)
    · exact absurd (ht.departure_of_hand hh) hd
  | @setCanWait message enabled hh hm =>
    rcases h.outstanding with hmem | hhand | hd
    · exact .inl ⟨h.held, .inl hmem⟩
    · rw [hh] at hhand
      cases hhand
      rw [hpause] at hm
      cases hm
    · exact absurd (ht.departure_of_hand hh) hd
  | complete hh => exact .inl (h.complete hq ht hh)
  | work => exact .inl (h.of_session rfl)
  | leave | breakDown => exact .inl ⟨h.held, .inr (.inr fun hd => by cases hd)⟩
  | release => exact .inr (.inr (Session.unserved_depart _ _))
  | find => exact .inl ⟨h.held, h.outstanding⟩

end Service

end Tandem
