import Tandem.Proofs.Session.Service

/-!
What becomes of requests and of the handles on them, whatever turns the thread and all others take at a
session, and however the thread ends.
-/
namespace Tandem

/-- The result that can be told from what there is. -/
def Delivery.result? : Delivery → Option Bool
  | .awaited => none
  | .arrived yes => some yes
  | .closed => some false

namespace Handle

variable {h : Handle}

/-- A handle does not take an answer out and forget it. -/
def Minds (h : Handle) : Prop := h.isTaken = true → h.result ≠ none

theorem get_fst (hm : h.Minds) (d : Delivery) : (h.get d).1 = h.result.or d.result? := by
  unfold get receive
  cases hr : h.result with
  | some yes => rfl
  | none =>
    have ht : h.isTaken = false := eq_false_of_ne_true fun ht => hm ht hr
    cases d <;> simp [ht, Delivery.result?]

/-- What has been found is remembered. -/
theorem get_snd (h : Handle) (d : Delivery) : (h.get d).2.result = (h.get d).1 := by
  unfold get
  cases hr : h.result with
  | some yes => exact hr
  | none =>
    unfold receive
    cases d with
    | awaited => exact hr
    | arrived yes => cases h.isTaken <;> rfl
    | closed => rfl

theorem Minds.get (hm : h.Minds) (d : Delivery) : (h.get d).2.Minds := by
  unfold Handle.get receive
  cases hr : h.result with
  | some yes => exact hm
  | none =>
    cases d with
    | awaited => exact hm
    | arrived yes =>
      have ht : h.isTaken = false := eq_false_of_ne_true fun ht => hm ht hr
      simp [ht, Minds]
    | closed => simp [Minds]

theorem wait_eq (h : Handle) (d : Delivery) : h.wait d = (h.get d).1 := by
  unfold wait get
  cases h.result with
  | some yes => rfl
  | none =>
    unfold receive
    cases d with
    | awaited => rfl
    | arrived yes => cases h.isTaken <;> rfl
    | closed => rfl

end Handle

/-! ### Asking -/

namespace Session

variable {k : Console} {s s' : Session k}

/-- Something is asked for. It gets the next ticket, and is queued unless it makes no sense or the mailbox
is shut. -/
structure Asked (s s' : Session k) (r : Request k) : Prop where
  engine : s'.engine = s.engine
  answers : s'.answers = s.answers
  tickets : s'.tickets = s.tickets + 1
  mailbox : s'.mailbox = s.mailbox ∨ s.mailbox.isReleased = false ∧
    ∃ m, s'.mailbox.queue = s.mailbox.queue ++ [m] ∧ m.call? = some ⟨s.tickets, r⟩

theorem send_of_isReleased (h : s.mailbox.isReleased = true) (r : Request k) (wait : Bool)
    (events : List Event) :
    s.send r wait events = (s.tickets, { s with tickets := s.tickets + 1 }.emitAll events) := by
  unfold send
  dsimp only
  rw [Mailbox.post_of_isReleased h]

theorem asked_send (s : Session k) (r : Request k) (wait : Bool) (events : List Event) :
    Asked s (s.send r wait events).2 r := by
  cases hr : s.mailbox.isReleased with
  | true =>
    rw [send_of_isReleased hr, emitAll_eq]
    exact ⟨rfl, rfl, rfl, .inl rfl⟩
  | false =>
    unfold send
    dsimp only
    rw [Mailbox.post_of_not_isReleased hr]
    dsimp only
    split
    · exact ⟨rfl, rfl, rfl, .inr ⟨hr, _, rfl, rfl⟩⟩
    · rw [emitAll_eq]
      exact ⟨rfl, rfl, rfl, .inr ⟨hr, _, rfl, rfl⟩⟩

theorem asked_ask (s : Session k) (r : Request k) : Asked s (s.ask r).2 r := by
  obtain h | ⟨wait, events, h⟩ := ask_cases s r
  · rw [h]
    exact ⟨rfl, rfl, rfl, .inl rfl⟩
  · rw [h]
    exact asked_send s r wait events

/-- Nothing is done, and nobody waits, at a mailbox that is shut. -/
theorem ask_of_isReleased (h : s.mailbox.isReleased = true) (r : Request k) :
    s.ask r = (s.tickets, { s with tickets := s.tickets + 1 }) := by
  unfold ask
  cases r <;> simp [h, decline, send_of_isReleased h, emitAll]

end Session

namespace Service

variable {k : Console} {x y : Service k} {a : Deed k} {passages : List (Passage (Service k) (Deed k))}

/-! ### The ledger of a service -/

def Deed.issued? : Deed k → Option (Errand k)
  | .issued e => some e
  | .served .. | .found .. | .other => none

def Deed.served? : Deed k → Option (Errand k × Reply)
  | .served e reply => some (e, reply)
  | .issued _ | .found .. | .other => none

/-- All that was asked for and served, and what still waits. -/
def ledger (passages : List (Passage (Service k) (Deed k))) (x : Service k) : Ledger k where
  issued := passages.filterMap fun p => p.action.issued?
  waiting := x.waiting
  served := passages.filterMap fun p => p.action.served?

/-- Nothing is asked for, and nothing is run to its end. What waits may be dropped. -/
structure Calm (x y : Service k) : Prop where
  waiting : y.waiting.Sublist x.waiting
  tickets : y.session.tickets = x.session.tickets
  answers : y.session.answers = x.session.answers

theorem Calm.of_queue (hc : y.current? = x.current?) (hq : y.session.mailbox.queue = x.session.mailbox.queue)
    (ht : y.session.tickets = x.session.tickets) (ha : y.session.answers = x.session.answers) : Calm x y := by
  refine ⟨?_, ht, ha⟩
  rw [Service.waiting, hc, hq]
  exact .refl _

/-- The queue is dropped. -/
theorem Calm.of_empty (hc : y.current? = x.current?) (hq : y.session.mailbox.queue = [])
    (ht : y.session.tickets = x.session.tickets) (ha : y.session.answers = x.session.answers) : Calm x y := by
  refine ⟨?_, ht, ha⟩
  rw [Service.waiting, hc, hq]
  exact List.Sublist.append (.refl _) (List.nil_sublist _)

theorem calm_of_apart {b : Session.Act k} {s' : Session k} (hb : b.isApart = true)
    (hs : Session.Step x.session b s') : Calm x { x with session := s' } := by
  cases hs with
  | join hj =>
    obtain ⟨_, _, _, rfl⟩ | ⟨_, _, rfl⟩ := Session.join?_eq_some hj
    · exact .of_queue rfl rfl rfl rfl
    · exact .of_empty rfl rfl rfl rfl
  | rebuild | signal | elsewhere => exact .of_queue rfl rfl rfl rfl
  | switchOn | ask | requestEnd | advance => cases hb

theorem calm_of_depart (x : Service k) (d : Departure k) :
    Calm x { x with session := x.session.depart d, departure := none } := by
  cases d with
  | leaves m fault => exact .of_empty rfl rfl rfl rfl
  | breaks m => exact .of_empty rfl rfl rfl rfl

theorem Step.calm (hs : Step x a y) (hi : a.issued? = none) (hv : a.served? = none) : Calm x y := by
  cases hs with
  | ask | send => cases hi
  | serve => cases hv
  | wake hw hf =>
    rw [Session.emitAll_eq]
    exact .of_queue rfl rfl rfl rfl
  | apart hb h => exact calm_of_apart hb h
  | start => exact .of_empty rfl rfl rfl rfl
  | @take core message mailbox hd hh he hp =>
    -- The errand goes from the queue to the hand.
    have hwaiting : waiting { x with session := { x.session with mailbox }, hand := some ⟨message, false⟩ } =
        x.waiting := by
      simp only [waiting, current?, hh, (Mailbox.pop_eq_some hp).1, List.filterMap_cons]
      cases message.call? <;> rfl
    exact ⟨by rw [hwaiting], rfl, rfl⟩
  | setCanWait hh hm =>
    refine .of_queue ?_ rfl rfl rfl
    simp only [current?, hh, Message.call?, hm]
  | complete hh =>
    refine .of_queue ?_ (Mailbox.complete_queue _ _) rfl rfl
    simp only [current?, hh]
  | work | leave | find => exact .of_queue rfl rfl rfl rfl
  | breakDown => exact ⟨List.sublist_append_right _ _, rfl, rfl⟩
  | release => exact calm_of_depart x _

/-- An errand is run to its end, and leaves the hand. -/
theorem Step.waiting_of_served {e : Errand k} {reply : Reply} (hs : Step x (.served e reply) y) :
    x.waiting = e :: y.waiting ∧ y.session.tickets = x.session.tickets ∧
      y.session.answers = (Ledger.answer? (e, reply)).toList ++ x.session.answers := by
  cases hs with
  | serve hh hm he hr hreply =>
    refine ⟨?_, rfl, ?_⟩
    · simp only [waiting, current?, hh, Message.call?, hm]
      rfl
    · cases reply <;> rfl

theorem Step.asked {e : Errand k} (hs : Step x (.issued e) y) :
    e.ticket = x.session.tickets ∧ Session.Asked x.session y.session e.request ∧
      y.current? = x.current? := by
  cases hs with
  | ask r => exact ⟨rfl, Session.asked_ask _ r, rfl⟩
  | send r wait events => exact ⟨rfl, Session.asked_send _ r wait events, rfl⟩

/-- The books of a session agree with what happened. -/
structure Agrees (l : Ledger k) (x : Service k) : Prop where
  tickets : x.session.tickets = l.issued.length
  answers : x.session.answers = l.answers

theorem ledger_issued (x : Service k) (e : Errand k) (y : Service k) :
    ledger (⟨x, .issued e, y⟩ :: passages) y =
      { ledger passages x with issued := e :: (ledger passages x).issued, waiting := y.waiting } := rfl

theorem ledger_served (x : Service k) (e : Errand k) (reply : Reply) (y : Service k) :
    ledger (⟨x, .served e reply, y⟩ :: passages) y =
      { ledger passages x with waiting := y.waiting, served := (e, reply) :: (ledger passages x).served } := rfl

theorem ledger_calm (hi : a.issued? = none) (hv : a.served? = none) :
    ledger (⟨x, a, y⟩ :: passages) y = { ledger passages x with waiting := y.waiting } := by
  simp only [ledger, List.filterMap_cons, hi, hv]

theorem Step.books (hs : Step x a y) (h : Agrees (ledger passages x) x) :
    (ledger passages x).Step (ledger (⟨x, a, y⟩ :: passages) y) ∧
      Agrees (ledger (⟨x, a, y⟩ :: passages) y) y := by
  have hcalm (hi : a.issued? = none) (hv : a.served? = none) :
      (ledger passages x).Step (ledger (⟨x, a, y⟩ :: passages) y) ∧
        Agrees (ledger (⟨x, a, y⟩ :: passages) y) y := by
    have hc := hs.calm hi hv
    rw [ledger_calm hi hv]
    exact ⟨.drop hc.waiting, hc.tickets.trans h.tickets, hc.answers.trans h.answers⟩
  cases a with
  | issued e =>
    obtain ⟨ht, hasked, hcurrent⟩ := hs.asked
    rw [ledger_issued]
    refine ⟨?_, ?_, hasked.answers.trans h.answers⟩
    · cases hasked.mailbox with
      | inl hsame =>
        have hw : y.waiting = (ledger passages x).waiting := by
          rw [waiting, hcurrent, hsame]
          rfl
        rw [hw]
        exact .refuse (ht.trans h.tickets)
      | inr hqueued =>
        obtain ⟨-, m, hq, hm⟩ := hqueued
        have hw : y.waiting = (ledger passages x).waiting ++ [e] := by
          rw [waiting, hcurrent, hq, List.filterMap_append, ← List.append_assoc]
          simp only [List.filterMap_cons, hm, ← ht]
          rfl
        rw [hw]
        exact .accept (ht.trans h.tickets)
    · rw [hasked.tickets, h.tickets]
      rfl
  | served e reply =>
    obtain ⟨hw, ht, ha⟩ := hs.waiting_of_served
    rw [ledger_served]
    refine ⟨.serve hw reply, ht.trans h.tickets, ?_⟩
    rw [Ledger.answers_serve, ha, h.answers]
  | found ticket result => exact hcalm rfl rfl
  | other => exact hcalm rfl rfl

/-! ### What is true all along -/

/-- The thread is gone and the mailbox is shut. -/
structure Shut (x : Service k) : Prop where
  processed : x.session.mailbox.processed = none
  queue : x.session.mailbox.queue = []
  hand : x.hand = none
  departure : x.departure = none

/-- A thread on its way out has nothing in hand, and leaves nothing open. -/
structure Tidy (x : Service k) : Prop where
  leaving : x.departure ≠ none → x.hand = none
  shut : x.session.isServed = false → x.Shut

theorem Tidy.of_same (h : Tidy x) (he : y.session.engine = x.session.engine)
    (hm : y.session.mailbox = x.session.mailbox) (hh : y.hand = x.hand) (hd : y.departure = x.departure) :
    Tidy y := by
  constructor
  · rw [hd, hh]
    exact h.leaving
  · intro hu
    have hx := h.shut ((Session.isServed_congr he).symm.trans hu)
    exact ⟨hm ▸ hx.processed, hm ▸ hx.queue, hh.trans hx.hand, hd.trans hx.departure⟩

theorem Tidy.of_asked {r : Request k} {s' : Session k} (h : Tidy x) (ha : Session.Asked x.session s' r) :
    Tidy { x with session := s' } := by
  refine ⟨h.leaving, fun hu => ?_⟩
  have hx := h.shut ((Session.isServed_congr ha.engine).symm.trans hu)
  cases ha.mailbox with
  | inl hsame => exact ⟨hsame ▸ hx.processed, hsame ▸ hx.queue, hx.hand, hx.departure⟩
  | inr hqueued => simp [Mailbox.isReleased, hx.processed] at hqueued

theorem Tidy.of_apart {b : Session.Act k} {s' : Session k} (h : Tidy x) (hb : b.isApart = true)
    (hs : Session.Step x.session b s') : Tidy { x with session := s' } := by
  refine ⟨h.leaving, fun hu => ?_⟩
  cases hs with
  | join hj =>
    obtain ⟨_, _, he, rfl⟩ | ⟨_, he, rfl⟩ := Session.join?_eq_some hj
    · have hx := h.shut (by rw [Session.isServed, he])
      exact ⟨hx.processed, hx.queue, hx.hand, hx.departure⟩
    · have hx := h.shut (by rw [Session.isServed, he])
      exact ⟨rfl, rfl, hx.hand, hx.departure⟩
  | rebuild he =>
    have hx := h.shut (by rw [Session.isServed, he])
    exact ⟨hx.processed, hx.queue, hx.hand, hx.departure⟩
  | signal => cases hu
  | elsewhere =>
    have hx := h.shut hu
    exact ⟨hx.processed, hx.queue, hx.hand, hx.departure⟩
  | switchOn | ask | requestEnd | advance => cases hb

theorem Tidy.step (h : Tidy x) (hs : Step x a y) : Tidy y := by
  have hgone {core : Core k} {phase : Phase} (he : x.session.engine = .running core phase)
      (hu : x.session.isServed = false) : False := by
    rw [Session.isServed_of_running he] at hu
    cases hu
  -- A thread that has something in hand has not gone, and is not on its way.
  have hidle {t : Taken (Errand k)} (hh : x.hand = some t) (hu : x.session.isServed = false) : False := by
    rw [(h.shut hu).hand] at hh
    cases hh
  have hstays {t : Taken (Errand k)} (hh : x.hand = some t) : x.departure = none := by
    by_contra hd
    rw [h.leaving hd] at hh
    cases hh
  cases hs with
  | ask r => exact h.of_asked (Session.asked_ask _ r)
  | send r wait events => exact h.of_asked (Session.asked_send _ r wait events)
  | wake hw hf =>
    rw [Session.emitAll_eq]
    exact h.of_same rfl rfl rfl rfl
  | apart hb h' => exact h.of_apart hb h'
  | start => exact ⟨h.leaving, fun hu => nomatch hu⟩
  | take hd hh he hp => exact ⟨fun hd' => absurd hd hd', fun hu => (hgone he hu).elim⟩
  | serve hh => exact ⟨fun hd => absurd (hstays hh) hd, fun hu => nomatch hu⟩
  | setCanWait hh hm => exact ⟨fun hd => absurd (hstays hh) hd, fun hu => (hidle hh hu).elim⟩
  | complete hh => exact ⟨fun _ => rfl, fun hu => (hidle hh hu).elim⟩
  | work hd => exact ⟨fun hd' => absurd hd hd', fun hu => nomatch hu⟩
  | leave hd hh he => exact ⟨fun _ => hh, fun hu => (hgone he hu).elim⟩
  | breakDown he => exact ⟨fun _ => rfl, fun hu => (hgone he hu).elim⟩
  | @release d hd =>
    have hh := h.leaving (by rw [hd]; nofun)
    refine ⟨fun _ => hh, fun _ => ?_⟩
    cases d with
    | leaves m fault => exact ⟨rfl, rfl, hh, rfl⟩
    | breaks m => exact ⟨rfl, rfl, hh, rfl⟩
  | find => exact h.of_same rfl rfl rfl rfl

structure Sound (passages : List (Passage (Service k) (Deed k))) (x : Service k) : Prop extends Tidy x where
  ledger : (ledger passages x).Sound
  agrees : Agrees (Service.ledger passages x) x
  minds : ∀ ticket, (x.handles ticket).Minds
  knows : ∀ ticket yes, (x.handles ticket).result = some yes →
    ticket < x.session.tickets ∧ (Service.ledger passages x).outcome ticket = some yes

theorem isQueued_iff (s : Session k) (ticket : Nat) : s.isQueued ticket = true ↔
    ticket ∈ (s.mailbox.queue.filterMap Message.call?).map Errand.ticket := by
  rw [Session.isQueued, List.any_eq_true, List.mem_map]
  constructor
  · rintro ⟨m, hm, ht⟩
    split at ht
    next e hp => exact ⟨e, List.mem_filterMap.mpr ⟨m, hm, by simp only [Message.call?, hp]⟩, by simpa using ht⟩
    next => cases ht
  · rintro ⟨e, he, ht⟩
    obtain ⟨m, hm, hcall⟩ := List.mem_filterMap.mp he
    refine ⟨m, hm, ?_⟩
    unfold Message.call? at hcall
    split at hcall
    next call hp =>
      obtain rfl := Option.some.inj hcall
      simpa only [hp] using decide_eq_true ht
    next => cases hcall

/-- What there is for a ticket is what has become of it. -/
theorem Sound.delivery (h : Sound passages x) (ticket : Nat) :
    (x.delivery ticket).result? = (Service.ledger passages x).outcome ticket := by
  have hmem : ticket ∈ (Service.ledger passages x).waiting.map Errand.ticket ↔
      ticket ∈ x.current?.toList.map Errand.ticket ∨ x.session.isQueued ticket = true := by
    rw [isQueued_iff, ← List.mem_append, ← List.map_append]
    rfl
  unfold Service.delivery
  split
  next hc =>
    obtain ⟨e, he, ht⟩ := Option.map_eq_some_iff.mp hc
    have hw : e ∈ (Service.ledger passages x).waiting := by
      refine List.mem_append_left _ ?_
      rw [he]
      exact List.mem_singleton_self e
    rw [← ht, Ledger.outcome_of_waiting h.ledger hw]
    rfl
  next hc =>
    have hw : ticket ∈ (Service.ledger passages x).waiting.map Errand.ticket ↔
        x.session.isQueued ticket = true := by
      rw [hmem, or_iff_right]
      simpa using hc
    rw [Ledger.outcome, ← h.agrees.answers, Session.delivery]
    cases x.session.answers.lookup ticket with
    | some yes => rfl
    | none =>
      by_cases hq : x.session.isQueued ticket = true
      · rw [if_pos (hw.mpr hq), if_pos hq]
        rfl
      · rw [if_neg fun hmem => hq (hw.mp hmem), if_neg hq]
        rfl

theorem Sound.find (h : Sound passages x) (ticket : Nat) :
    (x.find ticket).1 = (Service.ledger passages x).outcome ticket := by
  rw [Service.find, Handle.get_fst (h.minds ticket), h.delivery]
  cases hr : (x.handles ticket).result with
  | none => rfl
  | some yes => exact (h.knows ticket yes hr).2.symm

/-- Only the handle that is asked changes. -/
theorem Step.handles (hs : Step x a y) : y.handles = x.handles ∨
    ∃ ticket, ticket < x.session.tickets ∧ a = .found ticket (x.find ticket).1 ∧
      y.handles = Function.update x.handles ticket (x.find ticket).2 := by
  cases hs with
  | find ticket ht => exact .inr ⟨ticket, ht, rfl, rfl⟩
  | _ => exact .inl rfl

theorem Sound.step (h : Sound passages x) (hs : Step x a y) : Sound (⟨x, a, y⟩ :: passages) y := by
  obtain ⟨hledger, hagrees⟩ := hs.books h.agrees
  have hkept {ticket : Nat} {yes : Bool} (ht : ticket < x.session.tickets)
      (ho : (Service.ledger passages x).outcome ticket = some yes) : ticket < y.session.tickets ∧
        (Service.ledger (⟨x, a, y⟩ :: passages) y).outcome ticket = some yes := by
    rw [h.agrees.tickets] at ht
    rw [hagrees.tickets]
    exact ⟨Nat.lt_of_lt_of_le ht hledger.issued_le, hledger.outcome h.ledger ht ho⟩
  refine ⟨h.toTidy.step hs, h.ledger.step hledger, hagrees, fun ticket => ?_, fun ticket yes hr => ?_⟩
  · cases hs.handles with
    | inl hsame => rw [hsame]; exact h.minds ticket
    | inr hfound =>
      obtain ⟨found, -, -, hy⟩ := hfound
      rw [hy]
      by_cases he : ticket = found
      · rw [he, Function.update_self]
        exact (h.minds found).get _
      · rw [Function.update_of_ne he]
        exact h.minds ticket
  · cases hs.handles with
    | inl hsame =>
      rw [hsame] at hr
      exact hkept (h.knows ticket yes hr).1 (h.knows ticket yes hr).2
    | inr hfound =>
      obtain ⟨found, ht, -, hy⟩ := hfound
      rw [hy] at hr
      by_cases he : ticket = found
      · rw [he, Function.update_self] at hr
        rw [he]
        exact hkept ht ((h.find found).symm.trans ((Handle.get_snd _ _).symm.trans hr))
      · rw [Function.update_of_ne he] at hr
        exact hkept (h.knows ticket yes hr).1 (h.knows ticket yes hr).2

theorem sound_start (directory : Storage.Path) (blocks : Nat) (hardware : Hardware k)
    (surroundings : Surroundings k) :
    Sound [] ({ session := .ofHardware directory blocks hardware surroundings } : Service k) where
  leaving _ := rfl
  shut _ := ⟨rfl, rfl, rfl, rfl⟩
  ledger := .start
  agrees := ⟨rfl, rfl⟩
  minds _ := nofun
  knows _ _ hr := nomatch hr

theorem sound_of_course {start : Service k} (hstart : Sound [] start) (h : Course Step start passages x) :
    Sound passages x := by
  induction h with
  | start => exact hstart
  | step _ hs ih => exact ih.step hs

/-! ### Results -/

theorem find_of_result {ticket : Nat} {yes : Bool} (h : (x.handles ticket).result = some yes) :
    (x.find ticket).1 = some yes := by
  rw [find, Handle.get, h]

/-- Whoever knows a result goes on to know it. -/
theorem Step.remembers {ticket : Nat} {yes : Bool} (hs : Step x a y)
    (h : (x.handles ticket).result = some yes) : (y.handles ticket).result = some yes := by
  cases hs.handles with
  | inl hsame => rwa [hsame]
  | inr hfound =>
    obtain ⟨found, -, -, hy⟩ := hfound
    rw [hy]
    by_cases he : ticket = found
    · subst he
      rw [Function.update_self]
      exact (Handle.get_snd _ _).trans (find_of_result h)
    · rwa [Function.update_of_ne he]

theorem Step.of_found {ticket : Nat} {result : Option Bool} (hs : Step x (.found ticket result) y) :
    result = (x.find ticket).1 ∧ (y.handles ticket).result = result := by
  cases hs with
  | find _ ht =>
    refine ⟨rfl, ?_⟩
    change (Function.update x.handles ticket (x.find ticket).2 ticket).result = _
    rw [Function.update_self]
    exact Handle.get_snd _ _

theorem remembered {start : Service k} {later earlier : List (Passage (Service k) (Deed k))}
    {p : Passage (Service k) (Deed k)} {ticket : Nat} {yes : Bool}
    (h : Course Step start (later ++ p :: earlier) x) (hp : p.action = .found ticket (some yes)) :
    (x.handles ticket).result = some yes ∧
      ∀ q ∈ later, ∀ result, q.action = .found ticket result → result = some yes := by
  induction later generalizing x with
  | nil =>
    cases h with
    | step _ hs =>
      obtain rfl := hp
      exact ⟨hs.of_found.2, by simp⟩
  | cons q later ih =>
    cases h with
    | step hbefore hs =>
      obtain ⟨hknown, hall⟩ := ih hbefore
      refine ⟨hs.remembers hknown, fun q hq result hr => ?_⟩
      cases List.mem_cons.mp hq with
      | inl hq =>
        subst hq
        obtain rfl := hr
        exact hs.of_found.1.trans (find_of_result hknown)
      | inr hq => exact hall q hq result hr

/-- An errand has been run to its end. -/
def Ran (passages : List (Passage (Service k) (Deed k))) (e : Errand k) (reply : Reply) : Prop :=
  ∃ p ∈ passages, p.action = .served e reply

theorem mem_served {e : Errand k} {reply : Reply} :
    (e, reply) ∈ (ledger passages x).served ↔ Ran passages e reply := by
  have hd (a : Deed k) : a.served? = some (e, reply) ↔ a = .served e reply := by
    cases a <;> simp [Deed.served?]
  simp only [ledger, List.mem_filterMap, hd, Ran]

theorem mem_issued {e : Errand k} :
    e ∈ (ledger passages x).issued ↔ ∃ p ∈ passages, p.action = .issued e := by
  have hd (a : Deed k) : a.issued? = some e ↔ a = .issued e := by
    cases a <;> simp [Deed.issued?]
  simp only [ledger, List.mem_filterMap, hd]

/-- A handle on an errand finds the answer that the errand was served with, nothing as long as the errand
waits, and no if it was dropped. -/
structure Resolves (passages : List (Passage (Service k) (Deed k))) (x : Service k) (e : Errand k) : Prop where
  ran : ∀ yes, Ran passages e (.answer yes) → (x.find e.ticket).1 = some yes
  waits : e ∈ x.waiting → (x.find e.ticket).1 = none
  dropped : e ∉ x.waiting → (∀ yes, ¬ Ran passages e (.answer yes)) → (x.find e.ticket).1 = some false

theorem Sound.resolves (h : Sound passages x) {e : Errand k} (he : e ∈ (Service.ledger passages x).issued) :
    Resolves passages x e := by
  refine ⟨fun yes hran => ?_, fun hw => ?_, fun hw hran => ?_⟩
  · rw [h.find]
    exact Ledger.outcome_of_served h.ledger (mem_served.mpr hran)
  · rw [h.find]
    exact Ledger.outcome_of_waiting h.ledger hw
  · rw [h.find]
    exact Ledger.outcome_of_dropped h.ledger he hw fun yes hs => hran yes (mem_served.mp hs)

/-- Without a thread nobody has to wait, nothing is queued, nothing that is asked for has any effect, and
every handle has its result. -/
structure Rests (passages : List (Passage (Service k) (Deed k))) (x : Service k) : Prop where
  free : ∀ id, x.session.mailbox.holds id = false
  empty : x.session.mailbox.queue = []
  idle : x.hand = none
  refuses : ∀ r, x.session.ask r = (x.session.tickets, { x.session with tickets := x.session.tickets + 1 })
  settled : ∀ p ∈ passages, ∀ e, p.action = .issued e →
    ∃ yes, (x.find e.ticket).1 = some yes ∧ (x.handles e.ticket).wait (x.delivery e.ticket) = some yes

theorem Sound.rests (h : Sound passages x) (hu : x.session.isServed = false) : Rests passages x := by
  have hs := h.shut hu
  have hwaiting : x.waiting = [] := by
    simp only [waiting, current?, hs.hand, hs.queue]
    rfl
  refine ⟨fun id => ?_, hs.queue, hs.hand, fun r => ?_, fun p hp e he => ?_⟩
  · rw [Mailbox.holds, hs.processed]
  · exact Session.ask_of_isReleased (by rw [Mailbox.isReleased, hs.processed]; rfl) r
  · have hresolves := h.resolves (mem_issued.mpr ⟨p, hp, he⟩)
    have hdropped : e ∉ x.waiting := by
      rw [hwaiting]
      exact List.not_mem_nil
    obtain ⟨yes, hyes⟩ : ∃ yes, (x.find e.ticket).1 = some yes := by
      by_cases hran : ∃ yes, Ran passages e (.answer yes)
      · obtain ⟨yes, hran⟩ := hran
        exact ⟨yes, hresolves.ran yes hran⟩
      · exact ⟨false, hresolves.dropped hdropped fun yes hyes => hran ⟨yes, hyes⟩⟩
    exact ⟨yes, hyes, (Handle.wait_eq _ _).trans hyes⟩

/-! ### The answers of a session -/

theorem Sound.answer {s : Session k} {handles : Nat → Handle} (h : Sound passages { session := s, handles })
    (ticket : Nat) : s.answer? ticket = (Service.ledger passages { session := s, handles }).outcome ticket := by
  rw [← h.delivery]
  simp only [Service.delivery, current?, Option.map_none, reduceCtorEq, if_false]
  unfold Session.answer? Session.delivery
  cases s.answers.lookup ticket with
  | some yes => rfl
  | none =>
    dsimp only
    split <;> rfl

section

variable {directory : Storage.Path} {blocks : Nat} {hardware : Hardware k} {surroundings : Surroundings k}
  {s s' : Session k} {earlier later : List (Passage (Session k) (Session.Act k))}

/-- A session without a thread owes nobody an answer. -/
theorem answer_of_unserved (h : Course Session.Step (.ofHardware directory blocks hardware surroundings) earlier s)
    (hu : s.isServed = false) (ticket : Nat) : s.answer? ticket ≠ none := by
  obtain ⟨_, hc⟩ := leads_of_course (fun _ => {}) h
  have hrests := (sound_of_course (sound_start _ _ _ _) hc).rests hu
  have hqueued : s.isQueued ticket = false := by
    rw [Session.isQueued, hrests.empty]
    rfl
  unfold Session.answer?
  cases s.answers.lookup ticket with
  | some yes => simp
  | none => simp [hqueued]

/-- An answer is not taken back, whatever happens to the session. -/
theorem answer_kept (h : Course Session.Step (.ofHardware directory blocks hardware surroundings) earlier s)
    (hlater : Course Session.Step s later s') {ticket : Nat} {yes : Bool} (ht : ticket < s.tickets)
    (hyes : s.answer? ticket = some yes) : s'.answer? ticket = some yes := by
  obtain ⟨_, hc⟩ := leads_of_course (fun _ => {}) h
  have hsound := sound_of_course (sound_start _ _ _ _) hc
  have hfind : (({ session := s } : Service k).find ticket).1 = some yes := by
    rw [hsound.find, ← hsound.answer, hyes]
  -- Somebody looks at the answer now, and the handle knows it ever after.
  obtain ⟨_, hrest⟩ := leads_of_course _ hlater
  have hsound' := sound_of_course (sound_start _ _ _ _) ((hc.step (.find ticket ht)).append hrest)
  rw [hsound'.answer]
  refine (hsound'.knows ticket yes ?_).2
  dsimp only
  rw [Function.update_self]
  exact (Handle.get_snd _ _).trans hfind

end

/-- The machine of the thread replies to an errand; to a save or a load, with yes or no. -/
structure Replies (x : Service k) (e : Errand k) (reply : Reply) : Prop where
  machine : ∃ core, x.session.engine = .running core .between ∧
    (Machine.serve { core, x.session.surroundings with } e.request).1 = reply
  answers : ∀ path, e.request = .save path ∨ e.request = .load path → ∃ yes, reply = .answer yes

theorem answer_of_save (m : Machine k) (path : Storage.Path) :
    ∃ yes, (m.serve (.save path)).1 = .answer yes := ⟨(m.save path).1, rfl⟩

theorem answer_of_load (m : Machine k) (path : Storage.Path)
    (h : ∀ text, (m.serve (.load path)).1 ≠ .panic text) : ∃ yes, (m.serve (.load path)).1 = .answer yes := by
  unfold Machine.serve Machine.serveLoad at h ⊢
  dsimp only at h ⊢
  split
  next hg hr => simp [hg, hr] at h
  next => exact ⟨(m.takeOver path (Archive.Reader.load m.files path)).1, rfl⟩

theorem Step.replies {e : Errand k} {reply : Reply} (hs : Step x (.served e reply) y) : Replies x e reply := by
  cases hs with
  | @serve core message _ _ m' hh hm he hr hreply =>
    have hfst : (Machine.serve { core, x.session.surroundings with } e.request).1 = reply :=
      congrArg Prod.fst hr
    refine ⟨⟨core, he, hfst⟩, fun path hp => ?_⟩
    cases hp with
    | inl hsave =>
      rw [hsave] at hfst
      rw [← hfst]
      exact answer_of_save _ path
    | inr hload =>
      rw [hload] at hfst
      rw [← hfst] at hreply ⊢
      exact answer_of_load _ path hreply

/-- However the thread and all others take turns, a session without a thread is at rest; whatever was asked
for is run once at most, and its handle finds what came of it; and a handle that has found a result finds no
other. -/
theorem handles_resolve {directory : Storage.Path} {blocks : Nat} {hardware : Hardware k}
    {surroundings : Surroundings k}
    (h : Course Step { session := .ofHardware directory blocks hardware surroundings } passages x) :
    (x.session.isServed = false → Rests passages x) ∧
    (∀ p ∈ passages, ∀ e, p.action = .issued e → Resolves passages x e) ∧
    (∀ p ∈ passages, ∀ e reply, p.action = .served e reply → Replies p.before e reply) ∧
    ((ledger passages x).served.map fun served => served.1.ticket).Nodup ∧
    ∀ later p earlier ticket yes, passages = later ++ p :: earlier →
      p.action = .found ticket (some yes) → (x.find ticket).1 = some yes ∧
        ∀ q ∈ later, ∀ result, q.action = .found ticket result → result = some yes := by
  have hsound := sound_of_course (sound_start _ _ _ _) h
  refine ⟨hsound.rests, fun p hp e he => hsound.resolves (mem_issued.mpr ⟨p, hp, he⟩), fun p hp e reply he => ?_,
    hsound.ledger.once, ?_⟩
  · have hs := h.step_of_mem hp
    rw [he] at hs
    exact hs.replies
  rintro later p earlier ticket yes rfl hp
  obtain ⟨hknown, hall⟩ := remembered h hp
  exact ⟨find_of_result hknown, hall⟩

/-- A save is run to its end; the thread breaks down over the load behind it. -/
theorem handles_resolve_broken : ∃ passages x yes, Course Step { session := Session.resting } passages x ∧
    x.session.isServed = false ∧ Ran passages ⟨0, .save "first"⟩ (.answer yes) ∧
      (x.find 0).1 = some yes ∧ (x.find 1).1 = some false ∧ Rests passages x := by
  have hstart : Course Step { session := Session.resting } [] _ := .start
  have hasked := ((hstart.step (.start rfl)).step (.ask (.save "first"))).step (.ask (.load "second"))
  have hserved := (hasked.step (.take rfl rfl rfl rfl)).step (.serve rfl rfl rfl rfl nofun)
  have htaken := (hserved.step (.complete rfl)).step (.take rfl rfl rfl rfl)
  have hbroken := (htaken.step (.breakDown rfl (Scripted.bare {}))).step (.release rfl)
  obtain ⟨hrests, hresolves, -, -, -⟩ := handles_resolve hbroken
  have hsave := hresolves _ (.tail _ (.tail _ (.tail _ (.tail _ (.tail _ (.tail _ (.tail _ (.head _)))))))) _ rfl
  have hfound := hsave.ran _ ⟨_, .tail _ (.tail _ (.tail _ (.tail _ (.head _)))), rfl⟩
  refine ⟨_, _, _, hbroken, rfl, ⟨_, .tail _ (.tail _ (.tail _ (.tail _ (.head _)))), rfl⟩, hfound, ?_, hrests rfl⟩
  rfl

end Service

end Tandem
