import Tandem.Proofs.Mailbox.Delivery

/-!
A consumer that processes messages up to a breakpoint. It waits, looks, takes and serves one message after
another, while others take their turns at the mailbox between any two of its critical sections. Its own calls
may send, but not wait. As long as nobody releases the mailbox, it serves the messages in the order of the
queue, and stops behind the first breakpoint.
-/
namespace Tandem

open Exchange (Event messages)

namespace Mailbox

variable {α : Type} {m : Mailbox α}

theorem pop_eq_none_iff : m.pop = none ↔ m.queue = [] := by
  unfold pop
  split <;> simp [*]

theorem starves_of_isReleased (h : m.isReleased = true) : m.starves = false := by
  cases hp : m.processed with
  | none => simp [starves, hp]
  | some done => simp [isReleased, hp] at h

theorem starves_eq_false_iff (h : m.isReleased = false) : m.starves = false ↔ m.queue ≠ [] := by
  cases hp : m.processed with
  | none => simp [isReleased, hp] at h
  | some done => simp [starves, hp]

end Mailbox

namespace Exchange

/-- Whether an event is what others than the consumer do. -/
def Event.isForeign {α : Type} : Event α → Bool
  | .accepted _ | .refused _ | .released _ | .rearmed => true
  | _ => false

/-- Whether an event is something sent that nobody waits for. -/
def Event.isUnawaited {α : Type} : Event α → Bool
  | .accepted m => !m.sync
  | .refused _ => true
  | _ => false

end Exchange

/-- Where the consumer stands. -/
inductive Station
  /-- It waits until something is queued, or the mailbox is released. -/
  | waiting
  /-- It looks whether something is queued. -/
  | looking
  /-- Nothing was. It asks whether the mailbox is released. -/
  | asking
  | taking
  | serving
  | stopped
  deriving DecidableEq, Repr

/-- What is done, and by whom. -/
inductive Act (α : Type)
  /-- The consumer does something that leaves the mailbox as it is. -/
  | quiet
  | own (e : Event α)
  /-- The call that is running sends something. -/
  | sent (e : Event α)
  | foreign (e : Event α)

structure Processing (α : Type) where
  exchange : Exchange α
  station : Station := .waiting

namespace Processing

variable {α : Type} {r : Manners}

inductive Step (r : Manners) : Processing α → Act α → Processing α → Prop
  | wake {x} (h : x.mailbox.starves = false) : Step r ⟨x, .waiting⟩ .quiet ⟨x, .looking⟩
  | look {x} : Step r ⟨x, .looking⟩ .quiet ⟨x, if x.mailbox.isPending then .taking else .asking⟩
  | ask {x} : Step r ⟨x, .asking⟩ .quiet ⟨x, if x.mailbox.isReleased then .stopped else .taking⟩
  | miss {x} (h : x.mailbox.pop = none) : Step r ⟨x, .taking⟩ .quiet ⟨x, .waiting⟩
  | take {x m y} (h : Exchange.Step r x (.begun m) y) : Step r ⟨x, .taking⟩ (.own (.begun m)) ⟨y, .serving⟩
  | giveBack {x m y} (h : Exchange.Step r x (.returned m) y) :
      Step r ⟨x, .serving⟩ (.own (.returned m)) ⟨y, .serving⟩
  | complete {x m y} (h : Exchange.Step r x (.completed m) y) : Step r ⟨x, .serving⟩ (.own (.completed m))
      ⟨y, if m.breakpoint then .stopped else .waiting⟩
  | send {x m call rest e y} (hhand : x.hand = ⟨m, false⟩ :: rest) (hcall : m.payload = .call call)
      (he : e.isUnawaited = true) (h : Exchange.Step r x e y) :
      Step r ⟨x, .serving⟩ (.sent e) ⟨y, .serving⟩
  | interfere {x e y station} (he : e.isForeign = true) (h : Exchange.Step r x e y) :
      Step r ⟨x, station⟩ (.foreign e) ⟨y, station⟩

/-- Any number of acts, newest first. -/
inductive Run (r : Manners) (p : Processing α) : List (Act α) → Processing α → Prop
  | refl : Run r p [] p
  | step {acts q a q'} (before : Run r p acts q) (h : Step r q a q') : Run r p (a :: acts) q'

end Processing

namespace Act

variable {α : Type}

/-- Whether it is the consumer's own move. -/
def isOwn : Act α → Bool
  | .quiet | .own _ => true
  | _ => false

def events : Act α → List (Event α)
  | .quiet => []
  | .own e | .sent e | .foreign e => [e]

/-- What the consumer does with messages. -/
def dealings : Act α → List (Event α)
  | .own e => [e]
  | _ => []

end Act

namespace Processing

variable {α : Type} {r : Manners} {p q q' : Processing α} {a : Act α} {acts : List (Act α)}

/-- All events of some acts, newest first. -/
def events (acts : List (Act α)) : List (Event α) := acts.flatMap Act.events

/-- What the consumer does with messages, oldest first. -/
def dealings (acts : List (Act α)) : List (Event α) := acts.reverse.flatMap Act.dealings

/-- The number of the consumer's own moves. -/
def moves (acts : List (Act α)) : Nat := acts.countP Act.isOwn

/-- What is accepted meanwhile, oldest first. -/
def accepted (acts : List (Act α)) : List (Message α) := messages Event.accepts (events acts)

/-- Everything that is done with one message. -/
def service (m : Message α) : List (Event α) := [.begun m, .returned m, .completed m]

@[simp] theorem events_cons (a : Act α) (acts : List (Act α)) : events (a :: acts) = a.events ++ events acts := rfl

@[simp] theorem dealings_cons (a : Act α) (acts : List (Act α)) :
    dealings (a :: acts) = dealings acts ++ a.dealings := by
  simp [dealings]

@[simp] theorem moves_cons (a : Act α) (acts : List (Act α)) :
    moves (a :: acts) = moves acts + if a.isOwn then 1 else 0 := by
  simp [moves, List.countP_cons]

theorem Step.exchange (h : Step r q a q') : (a.events = [] ∧ q'.exchange = q.exchange) ∨
    ∃ e, a.events = [e] ∧ Exchange.Step r q.exchange e q'.exchange := by
  cases h with
  | wake | look | ask | miss => exact .inl ⟨rfl, rfl⟩
  | take h | giveBack h | complete h | send _ _ _ h | interfere _ h => exact .inr ⟨_, rfl, h⟩

/-- What is seen of the mailbox is a run of it. -/
theorem Run.exchange (h : Run r p acts q) : Exchange.Run r p.exchange (events acts) q.exchange := by
  induction h with
  | refl => exact .refl
  | @step acts q a q' _ hs ih =>
    rw [events_cons]
    rcases hs.exchange with ⟨hquiet, hexchange⟩ | ⟨e, he, hstep⟩
    · rw [hquiet, hexchange]
      exact ih
    · rw [he]
      exact .step ih hstep

/-- The consumer can move on by itself. -/
def GoesOn (r : Manners) (q : Processing α) : Prop := ∃ a q', a.isOwn = true ∧ Step r q a q'

/-! ### Message after message -/

/-- How far the consumer is, with some messages served before: what it has done with messages, and the number
of its moves. Each message takes five: it wakes, looks, takes, gives back and completes. The consumer may have
been at some calls before it started. -/
inductive Stage (base : List (Taken α)) (past : List (Message α)) : Processing α → List (Event α) → Nat → Prop
  | waiting {x done n} (hhand : x.hand = base) (hpast : ∀ m ∈ past, m.breakpoint = false)
      (hdone : done = past.flatMap service) (hn : n = 5 * past.length) : Stage base past ⟨x, .waiting⟩ done n
  | looking {x done n} (hhand : x.hand = base) (hpast : ∀ m ∈ past, m.breakpoint = false)
      (hdone : done = past.flatMap service) (hn : n = 5 * past.length + 1) (hqueue : x.mailbox.queue ≠ []) :
      Stage base past ⟨x, .looking⟩ done n
  | taking {x done n} (hhand : x.hand = base) (hpast : ∀ m ∈ past, m.breakpoint = false)
      (hdone : done = past.flatMap service) (hn : n = 5 * past.length + 2) (hqueue : x.mailbox.queue ≠ []) :
      Stage base past ⟨x, .taking⟩ done n
  | begun {x m done n} (hhand : x.hand = ⟨m, false⟩ :: base) (hpast : ∀ m ∈ past, m.breakpoint = false)
      (hdone : done = past.flatMap service ++ [.begun m]) (hn : n = 5 * past.length + 3) :
      Stage base past ⟨x, .serving⟩ done n
  | returned {x m done n} (hhand : x.hand = ⟨m, true⟩ :: base) (hpast : ∀ m ∈ past, m.breakpoint = false)
      (hdone : done = past.flatMap service ++ [.begun m, .returned m]) (hn : n = 5 * past.length + 4) :
      Stage base past ⟨x, .serving⟩ done n
  | stopped {x front b done n} (hhand : x.hand = base) (hpast : past = front ++ [b])
      (hfront : ∀ m ∈ front, m.breakpoint = false) (hb : b.breakpoint = true)
      (hdone : done = past.flatMap service) (hn : n = 5 * past.length) : Stage base past ⟨x, .stopped⟩ done n

/-- The messages in hand on top of the calls that the consumer was at before. -/
def above (base : List (Taken α)) (x : Exchange α) : List (Message α) :=
  (x.hand.take (x.hand.length - base.length)).map (·.message)

theorem above_of_eq {base : List (Taken α)} {x : Exchange α} (h : x.hand = base) : above base x = [] := by
  simp [above, h]

theorem above_of_eq_cons {base : List (Taken α)} {x : Exchange α} {t : Taken α} (h : x.hand = t :: base) :
    above base x = [t.message] := by
  simp [above, h]

/-- The consumer takes the messages in the order in which they stand in the queue, and then in the order in
which they are accepted. -/
structure Follows (base : List (Taken α)) (queue : List (Message α)) (acts : List (Act α)) (q : Processing α)
    (past : List (Message α)) : Prop where
  taking : q.exchange.mailbox.isReleased = false
  inOrder : queue ++ accepted acts = past ++ above base q.exchange ++ q.exchange.mailbox.queue
  stage : Stage base past q (dealings acts) (moves acts)

/-- Nobody releases the mailbox. -/
def Unreleased (acts : List (Act α)) : Prop := ∀ dropped, .released dropped ∉ events acts

variable {base : List (Taken α)} {queue past : List (Message α)} {x y : Exchange α} {e : Event α}
  {station : Station} {done : List (Event α)} {n : Nat}

/-- A stage's account ends with what the consumer has in hand. -/
theorem Stage.dealings_prefix (h : Stage base past q done n) :
    done <+: (past ++ above base q.exchange).flatMap service := by
  cases h with
  | waiting hhand _ hdone | looking hhand _ hdone | taking hhand _ hdone | stopped hhand _ _ _ hdone =>
    simp [hdone, above_of_eq hhand]
  | begun hhand _ hdone | returned hhand _ hdone => simp [hdone, above_of_eq_cons hhand, service]

theorem Stage.dealings_eq (h : Stage base past q done n) (hserving : q.station ≠ .serving) :
    done = past.flatMap service := by
  cases h with
  | waiting _ _ hdone | looking _ _ hdone | taking _ _ hdone | stopped _ _ _ _ hdone => exact hdone
  | begun | returned => exact absurd rfl hserving

theorem Stage.moves_lt (h : Stage base past q done n) (hstopped : q.station ≠ .stopped) :
    n < 5 * (past.length + 1) := by
  cases h with
  | waiting | looking | taking | begun | returned => omega
  | stopped => exact absurd rfl hstopped

theorem Stage.breakpoint_eq_false (h : Stage base past q done n) (hstopped : q.station ≠ .stopped) :
    ∀ m ∈ past, m.breakpoint = false := by
  cases h with
  | waiting _ hpast | looking _ hpast | taking _ hpast | begun _ hpast | returned _ hpast => exact hpast
  | stopped => exact absurd rfl hstopped

/-- The consumer takes one message in hand at most. -/
theorem Stage.above_le (h : Stage base past q done n) : (above base q.exchange).length ≤ 1 := by
  cases h with
  | waiting hhand | looking hhand | taking hhand | stopped hhand => simp [above_of_eq hhand]
  | begun hhand | returned hhand => simp [above_of_eq_cons hhand]

theorem Stage.above_eq_nil (h : Stage base past q done n) (hserving : q.station ≠ .serving) :
    above base q.exchange = [] := by
  cases h with
  | waiting hhand | looking hhand | taking hhand | stopped hhand => exact above_of_eq hhand
  | begun | returned => exact absurd rfl hserving

/-- What others do, and what is sent, leaves the consumer where it is. -/
theorem Stage.elsewhere (h : Stage base past ⟨x, station⟩ done n) (hhand : y.hand = x.hand)
    (hqueue : x.mailbox.queue ≠ [] → y.mailbox.queue ≠ []) : Stage base past ⟨y, station⟩ done n := by
  cases h with
  | waiting h hpast hdone hn => exact .waiting (hhand.trans h) hpast hdone hn
  | looking h hpast hdone hn hq => exact .looking (hhand.trans h) hpast hdone hn (hqueue hq)
  | taking h hpast hdone hn hq => exact .taking (hhand.trans h) hpast hdone hn (hqueue hq)
  | begun h hpast hdone hn => exact .begun (hhand.trans h) hpast hdone hn
  | returned h hpast hdone hn => exact .returned (hhand.trans h) hpast hdone hn
  | stopped h hpast hfront hb hdone hn => exact .stopped (hhand.trans h) hpast hfront hb hdone hn

/-- What goes on at a mailbox that nobody releases while something is sent or rearmed. -/
theorem elsewhere (h : Exchange.Step r x e y) (he : e.isForeign = true) (hreleased : ∀ dropped, e ≠ .released dropped)
    (hx : x.mailbox.isReleased = false) : y.mailbox.isReleased = false ∧ y.hand = x.hand ∧
      y.mailbox.queue = x.mailbox.queue ++ e.accepts := by
  cases h with
  | accept payload wait breakpoint _ =>
    rw [Mailbox.post_of_not_isReleased hx]
    exact ⟨hx, rfl, rfl⟩
  | refuse payload wait breakpoint hr => simp [hx] at hr
  | release | beginReset => exact absurd rfl (hreleased _)
  | endReset _ => exact ⟨rfl, rfl, (List.append_nil _).symm⟩
  | take | giveBack | setCanWait | complete | panic => cases he

theorem Follows.start {x : Exchange α} (hx : x.mailbox.isReleased = false) :
    Follows x.hand x.mailbox.queue [] ⟨x, .waiting⟩ [] :=
  ⟨hx, by simp [accepted, events, above_of_eq], .waiting rfl (by simp) rfl rfl⟩

theorem isForeign_of_isUnawaited (h : e.isUnawaited = true) : e.isForeign = true := by
  cases e with
  | accepted | refused => rfl
  | begun | returned | completed | failed | released | rearmed => cases h

/-- What others do, and what is sent, goes to the end of the queue at most. -/
theorem Follows.elsewhere (h : Follows base queue acts ⟨x, station⟩ past) (hs : Exchange.Step r x e y)
    (he : e.isForeign = true) (hevents : a.events = [e]) (hown : a.isOwn = false) (hdealings : a.dealings = [])
    (hreleased : Unreleased (a :: acts)) : Follows base queue (a :: acts) ⟨y, station⟩ past := by
  obtain ⟨htaking, hhand, hqueue⟩ := Processing.elsewhere hs he (fun dropped hd => hreleased dropped (by
    simp [hevents, hd])) h.taking
  refine ⟨htaking, ?_, ?_⟩
  · rw [accepted, events_cons, hevents, List.singleton_append, Exchange.messages_cons, ← List.append_assoc]
    simp only [above, hhand, hqueue, ← List.append_assoc]
    exact congrArg (· ++ e.accepts) h.inOrder
  · simp only [dealings_cons, moves_cons, hown, hdealings, List.append_nil]
    exact h.stage.elsewhere hhand fun hq => by simp [hqueue, hq]

/-- What accepts nothing leaves the account of what is accepted as it is. -/
theorem accepted_of_nil (h : ∀ e ∈ a.events, e.accepts = []) : accepted (a :: acts) = accepted acts := by
  rw [accepted, events_cons]
  cases a with
  | quiet => rfl
  | own e | sent e | foreign e =>
    have he := h e (by simp [Act.events])
    simp only [Act.events, List.singleton_append, Exchange.messages_cons, he, List.append_nil, accepted]

theorem Follows.quiet (h : Follows base queue acts ⟨x, station⟩ past) {station' : Station}
    (hstage : Stage base past ⟨x, station'⟩ (dealings acts) (moves acts + 1)) :
    Follows base queue (.quiet :: acts) ⟨x, station'⟩ past := by
  refine ⟨h.taking, ?_, ?_⟩
  · rw [accepted_of_nil (by simp [Act.events])]
    exact h.inOrder
  · simpa [Act.dealings, Act.isOwn] using hstage

theorem of_begun {m : Message α} (h : Exchange.Step r x (.begun m) y) :
    y.hand = ⟨m, false⟩ :: x.hand ∧ x.mailbox.queue = m :: y.mailbox.queue ∧
      y.mailbox.isReleased = x.mailbox.isReleased := by
  cases h with
  | take _ hpop =>
    obtain ⟨hqueue, hmailbox⟩ := Mailbox.pop_eq_some hpop
    exact ⟨rfl, hqueue, by rw [hmailbox]; rfl⟩

theorem of_returned {m : Message α} (h : Exchange.Step r x (.returned m) y) :
    ∃ rest, x.hand = ⟨m, false⟩ :: rest ∧ y.hand = ⟨m, true⟩ :: rest ∧
      y.mailbox.queue = x.mailbox.queue ∧ y.mailbox.isReleased = x.mailbox.isReleased := by
  cases h with
  | giveBack hh _ | setCanWait hh _ => exact ⟨_, hh, rfl, rfl, rfl⟩

theorem of_completed {m : Message α} (h : Exchange.Step r x (.completed m) y) :
    x.hand = ⟨m, true⟩ :: y.hand ∧ y.mailbox.queue = x.mailbox.queue ∧
      y.mailbox.isReleased = x.mailbox.isReleased := by
  cases h with
  | complete hh => exact ⟨hh, Mailbox.complete_queue _ _, Mailbox.complete_isReleased _ _⟩

theorem Follows.take {m : Message α} (h : Follows base queue acts ⟨x, .taking⟩ past)
    (hs : Exchange.Step r x (.begun m) y) : Follows base queue (.own (.begun m) :: acts) ⟨y, .serving⟩ past := by
  obtain ⟨hhand', hqueue, hreleased⟩ := of_begun hs
  cases h.stage with
  | taking hhand hpast hdone hn _ =>
    rw [hhand] at hhand'
    refine ⟨hreleased.trans h.taking, ?_, .begun hhand' hpast ?_ ?_⟩
    · rw [accepted_of_nil (by simp [Act.events, Event.accepts]), h.inOrder]
      simp [above_of_eq hhand, above_of_eq_cons hhand', hqueue]
    · simp [hdone, Act.dealings]
    · simp [hn, Act.isOwn]

theorem Follows.giveBack {m : Message α} (h : Follows base queue acts ⟨x, .serving⟩ past)
    (hs : Exchange.Step r x (.returned m) y) :
    Follows base queue (.own (.returned m) :: acts) ⟨y, .serving⟩ past := by
  obtain ⟨rest, hrest, hhand', hqueue, hreleased⟩ := of_returned hs
  cases h.stage with
  | returned hhand => simp [hhand] at hrest
  | begun hhand hpast hdone hn =>
    obtain ⟨rfl, rfl⟩ : _ ∧ _ := by simpa [hhand] using hrest
    refine ⟨hreleased.trans h.taking, ?_, .returned hhand' hpast ?_ ?_⟩
    · rw [accepted_of_nil (by simp [Act.events, Event.accepts]), h.inOrder]
      simp [above_of_eq_cons hhand, above_of_eq_cons hhand', hqueue]
    · simp [hdone, Act.dealings]
    · simp [hn, Act.isOwn]

/-- With its completion a message is served, and a breakpoint stops the consumer. -/
theorem Stage.completed {m : Message α} (hhand : x.hand = base) (hpast : ∀ m ∈ past, m.breakpoint = false)
    (hdone : done = (past ++ [m]).flatMap service) (hn : n = 5 * (past ++ [m]).length) :
    Stage base (past ++ [m]) ⟨x, if m.breakpoint then .stopped else .waiting⟩ done n := by
  cases hb : m.breakpoint with
  | true => exact .stopped hhand rfl hpast hb hdone hn
  | false =>
    refine .waiting hhand (fun m' hm' => ?_) hdone hn
    cases List.mem_append.mp hm' with
    | inl hm' => exact hpast m' hm'
    | inr hm' => rw [List.mem_singleton.mp hm', hb]

theorem Follows.complete {m : Message α} (h : Follows base queue acts ⟨x, .serving⟩ past)
    (hs : Exchange.Step r x (.completed m) y) : Follows base queue (.own (.completed m) :: acts)
      ⟨y, if m.breakpoint then .stopped else .waiting⟩ (past ++ [m]) := by
  obtain ⟨hrest, hqueue, hreleased⟩ := of_completed hs
  cases h.stage with
  | begun hhand => simp [hhand] at hrest
  | returned hhand hpast hdone hn =>
    obtain ⟨rfl, hhand'⟩ : _ ∧ _ := by simpa [hhand] using hrest
    refine ⟨hreleased.trans h.taking, ?_, .completed hhand'.symm hpast ?_ ?_⟩
    · rw [accepted_of_nil (by simp [Act.events, Event.accepts]), h.inOrder]
      simp [above_of_eq_cons hhand, above_of_eq hhand'.symm, hqueue]
    · simp [hdone, Act.dealings, service]
    · simp [hn, Act.isOwn]
      omega

theorem Follows.step (h : Follows base queue acts q past) (hs : Step r q a q') (hreleased : Unreleased (a :: acts)) :
    ∃ past, Follows base queue (a :: acts) q' past := by
  cases hs with
  | wake hstarves =>
    cases h.stage with
    | waiting hhand hpast hdone hn =>
      have hqueue := (Mailbox.starves_eq_false_iff h.taking).mp hstarves
      exact ⟨past, h.quiet (.looking hhand hpast hdone (by rw [hn]) hqueue)⟩
  | @look x =>
    cases h.stage with
    | looking hhand hpast hdone hn hqueue =>
      have hpending : x.mailbox.isPending = true := by simpa [Mailbox.isPending] using hqueue
      rw [if_pos hpending]
      exact ⟨past, h.quiet (.taking hhand hpast hdone (by rw [hn]) hqueue)⟩
  | ask => cases h.stage
  | miss hpop =>
    cases h.stage with
    | taking _ _ _ _ hqueue => exact absurd (Mailbox.pop_eq_none_iff.mp hpop) hqueue
  | take hs => exact ⟨past, h.take hs⟩
  | giveBack hs => exact ⟨past, h.giveBack hs⟩
  | complete hs => exact ⟨_, h.complete hs⟩
  | send _ _ he hs => exact ⟨past, h.elsewhere hs (isForeign_of_isUnawaited he) rfl rfl rfl hreleased⟩
  | interfere he hs => exact ⟨past, h.elsewhere hs he rfl rfl rfl hreleased⟩

theorem Follows.run (hp : Follows base queue [] p []) (h : Run r p acts q) (hreleased : Unreleased acts) :
    ∃ past, Follows base queue acts q past := by
  induction h with
  | refl => exact ⟨[], hp⟩
  | @step acts q a q' _ hs ih =>
    obtain ⟨past, hq⟩ := ih fun dropped hd => hreleased dropped (by simp [hd])
    exact hq.step hs hreleased

/-- The consumer stands still only when it has stopped, or waits and nothing is queued. -/
theorem Follows.goesOn (h : Follows base queue acts q past) (hbase : r.nests = true ∨ base = [])
    (hstopped : q.station ≠ .stopped) (hwaiting : q.station = .waiting → q.exchange.mailbox.queue ≠ []) :
    GoesOn r q := by
  cases h.stage with
  | waiting => exact ⟨.quiet, _, rfl, .wake ((Mailbox.starves_eq_false_iff h.taking).mpr (hwaiting rfl))⟩
  | looking => exact ⟨.quiet, _, rfl, .look⟩
  | @taking x _ _ hhand _ _ _ hqueue =>
    obtain ⟨⟨m, mailbox⟩, hpop⟩ := Option.ne_none_iff_exists'.mp fun hnone => hqueue (Mailbox.pop_eq_none_iff.mp hnone)
    exact ⟨.own (.begun m), _, rfl, .take (.take (hbase.imp_right hhand.trans) hpop)⟩
  | @begun x m _ _ hhand =>
    cases hpayload : m.payload with
    | call call => exact ⟨.own (.returned m), _, rfl, .giveBack (.giveBack hhand hpayload)⟩
    | setCanWait enabled => exact ⟨.own (.returned m), _, rfl, .giveBack (.setCanWait hhand hpayload)⟩
  | @returned x m _ _ hhand => exact ⟨.own (.completed m), _, rfl, .complete (.complete hhand)⟩
  | stopped => exact absurd rfl hstopped

theorem Follows.eq_of_not_goesOn (h : Follows base queue acts q past)
    (hbase : r.nests = true ∨ base = []) (hstopped : q.station ≠ .stopped)
    (hstill : ¬ GoesOn r q) : q.station = .waiting ∧ q.exchange.mailbox.queue = [] := by
  by_cases hqueue : q.station = .waiting → q.exchange.mailbox.queue ≠ []
  · exact absurd (h.goesOn hbase hstopped hqueue) hstill
  · grind

/-! ### On its own -/

variable {s : Processing α}

theorem Run.append {more : List (Act α)} (h : Run r p acts q) (h' : Run r q more s) : Run r p (more ++ acts) s := by
  induction h' with
  | refl => exact h
  | step _ hs ih => exact .step ih hs

/-- The consumer can come from one point to another while others do nothing. -/
def Alone (r : Manners) (p q : Processing α) : Prop := ∃ acts, Run r p acts q ∧ ∀ e, .foreign e ∉ acts

theorem Alone.refl (p : Processing α) : Alone r p p := ⟨[], .refl, by simp⟩

theorem Alone.step (h : Step r p a q) (ha : ∀ e, a ≠ .foreign e) : Alone r p q :=
  ⟨[a], .step .refl h, fun e he => ha e (List.mem_singleton.mp he).symm⟩

theorem Alone.trans (h : Alone r p q) (h' : Alone r q s) : Alone r p s := by
  obtain ⟨acts, hrun, halone⟩ := h
  obtain ⟨more, hrun', halone'⟩ := h'
  exact ⟨more ++ acts, hrun.append hrun', fun e he => (List.mem_append.mp he).elim (halone' e) (halone e)⟩

/-- A consumer does not release the mailbox on its own. -/
theorem Run.unreleased (h : Run r p acts q) (halone : ∀ e, .foreign e ∉ acts) : Unreleased acts := by
  induction h with
  | refl => simp [Unreleased, events]
  | @step acts q a q' _ hs ih =>
    intro dropped hd
    rw [events_cons, List.mem_append] at hd
    rcases hd with hd | hd
    · cases hs with
      | wake | look | ask | miss => cases hd
      | take | giveBack | complete => cases List.mem_singleton.mp hd
      | send _ _ he _ =>
        rw [← List.mem_singleton.mp hd] at he
        cases he
      | @interfere x e => exact halone e (List.mem_cons_self ..)
    · exact ih (fun e he => halone e (List.mem_cons_of_mem _ he)) dropped hd

end Processing

end Tandem
