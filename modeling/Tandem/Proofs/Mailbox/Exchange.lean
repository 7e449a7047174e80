import Tandem.Mailbox

/-!
Senders, the consumer and whoever releases or resets a mailbox take turns at it, one critical section at a
time and in any order. Between two of its own critical sections the consumer has a message in hand, and
a reset is half done.
-/
namespace Tandem

namespace Mailbox

variable {α : Type}

/-- The message that a sender queues next. -/
def next (m : Mailbox α) (payload : Payload α) (wait breakpoint : Bool) : Message α :=
  ⟨payload, m.issued + 1, wait && m.canWait || breakpoint, breakpoint⟩

theorem post_of_isReleased {m : Mailbox α} (h : m.isReleased = true) (payload : Payload α)
    (wait breakpoint : Bool) : m.post payload wait breakpoint = (none, m) := by
  cases hp : m.processed with
  | none => simp only [post, hp]
  | some done => simp [isReleased, hp] at h

theorem post_of_not_isReleased {m : Mailbox α} (h : m.isReleased = false) (payload : Payload α)
    (wait breakpoint : Bool) : m.post payload wait breakpoint =
      (if (m.next payload wait breakpoint).sync then some (m.issued + 1) else none,
        { m with queue := m.queue ++ [m.next payload wait breakpoint], issued := m.issued + 1 }) := by
  cases hp : m.processed with
  | none => simp [isReleased, hp] at h
  | some done =>
    simp only [post, hp]
    rfl

theorem pop_eq_some {m m' : Mailbox α} {message : Message α} (h : m.pop = some (message, m')) :
    m.queue = message :: m'.queue ∧ m' = { m with queue := m'.queue } := by
  unfold pop at h
  split at h
  · cases h
  next hq =>
    obtain ⟨rfl, rfl⟩ := Prod.mk.inj (Option.some.inj h)
    exact ⟨hq, rfl⟩

@[simp] theorem complete_queue (m : Mailbox α) (message : Message α) :
    (m.complete message).queue = m.queue := by
  unfold complete
  split <;> rfl

@[simp] theorem complete_issued (m : Mailbox α) (message : Message α) :
    (m.complete message).issued = m.issued := by
  unfold complete
  split <;> rfl

@[simp] theorem complete_isReleased (m : Mailbox α) (message : Message α) :
    (m.complete message).isReleased = m.isReleased := by
  unfold complete
  split
  · simp [isReleased]
  · rfl

/-- A completion moves the mark to the number completed at most, and not back. -/
theorem processed_of_complete {m : Mailbox α} {message : Message α} {done : Nat}
    (h : (m.complete message).processed = some done) :
    ∃ before, m.processed = some before ∧ before ≤ done ∧ done ≤ max before message.id := by
  unfold complete at h
  split at h
  · obtain ⟨before, hb, rfl⟩ := Option.map_eq_some_iff.mp h
    exact ⟨before, hb, Nat.le_max_left _ _, Nat.le_refl _⟩
  · exact ⟨done, h, Nat.le_refl _, Nat.le_max_left _ _⟩

end Mailbox

/-- What the consumer, and those who reset a mailbox, allow themselves. -/
structure Manners where
  /-- A call may receive while it runs. -/
  nests : Bool := false
  /-- A call may break down. It is then never completed. -/
  panics : Bool := false
  /-- A reset may begin while another is half done. -/
  overlaps : Bool := false

/-- A message that has been taken out and not been completed. -/
structure Taken (α : Type) where
  message : Message α
  /-- Its call has returned. -/
  returned : Bool

structure Exchange (α : Type) where
  mailbox : Mailbox α := {}
  /-- What the consumer is at, the innermost first. -/
  hand : List (Taken α) := []
  /-- How many resets have released the mailbox and are still to rearm it. -/
  resetting : Nat := 0

namespace Exchange

/-- What can be seen of a critical section. -/
inductive Event (α : Type)
  | accepted (m : Message α)
  /-- Something is sent while the mailbox is released. -/
  | refused (payload : Payload α)
  | begun (m : Message α)
  | returned (m : Message α)
  | completed (m : Message α)
  | failed (m : Message α)
  /-- By a release, or by the first half of a reset. -/
  | released (dropped : List (Message α))
  | rearmed

variable {α : Type} {r : Manners}

/-- Everything that can be done in one critical section. -/
inductive Step (r : Manners) : Exchange α → Event α → Exchange α → Prop
  | accept {x} (payload wait breakpoint) (h : x.mailbox.isReleased = false) :
      Step r x (.accepted (x.mailbox.next payload wait breakpoint))
        { x with mailbox := (x.mailbox.post payload wait breakpoint).2 }
  | refuse {x} (payload wait breakpoint) (h : x.mailbox.isReleased = true) :
      Step r x (.refused payload) { x with mailbox := (x.mailbox.post payload wait breakpoint).2 }
  | take {x m mailbox} (hn : r.nests = true ∨ x.hand = []) (h : x.mailbox.pop = some (m, mailbox)) :
      Step r x (.begun m) { x with mailbox, hand := ⟨m, false⟩ :: x.hand }
  | giveBack {x m rest call} (h : x.hand = ⟨m, false⟩ :: rest) (hc : m.payload = .call call) :
      Step r x (.returned m) { x with hand := ⟨m, true⟩ :: rest }
  | setCanWait {x m rest enabled} (h : x.hand = ⟨m, false⟩ :: rest)
      (hc : m.payload = .setCanWait enabled) : Step r x (.returned m)
        { x with mailbox := x.mailbox.setCanWait enabled, hand := ⟨m, true⟩ :: rest }
  | complete {x m rest} (h : x.hand = ⟨m, true⟩ :: rest) :
      Step r x (.completed m) { x with mailbox := x.mailbox.complete m, hand := rest }
  | panic {x m rest} (hp : r.panics = true) (h : x.hand = ⟨m, false⟩ :: rest) :
      Step r x (.failed m) { x with hand := rest }
  | release {x} : Step r x (.released x.mailbox.queue) { x with mailbox := x.mailbox.release }
  | beginReset {x} (ho : r.overlaps = true ∨ x.resetting = 0) :
      Step r x (.released x.mailbox.queue)
        { x with mailbox := x.mailbox.release, resetting := x.resetting + 1 }
  | endReset {x n} (h : x.resetting = n + 1) :
      Step r x .rearmed { x with mailbox := x.mailbox.rearm, resetting := n }

/-- Any number of critical sections, and what can be seen of them, newest first. -/
inductive Run (r : Manners) (x : Exchange α) : List (Event α) → Exchange α → Prop
  | refl : Run r x [] x
  | step {es y e z} (before : Run r x es y) (h : Step r y e z) : Run r x (e :: es) z

variable {x z : Exchange α} {e : Event α} {later earlier : List (Event α)}

/-- A run up to an event, the event, and the run from it on. -/
theorem Run.split (h : Run r x (later ++ e :: earlier) z) :
    ∃ y y', Run r x earlier y ∧ Step r y e y' ∧ Run r y' later z := by
  induction later generalizing z with
  | nil =>
    cases h with
    | step before hs => exact ⟨_, _, before, hs, .refl⟩
  | cons e' later ih =>
    cases h with
    | step before hs =>
      obtain ⟨y, y', hearlier, he, hlater⟩ := ih before
      exact ⟨y, y', hearlier, he, .step hlater hs⟩

theorem Run.append {y : Exchange α} (h : Run r x earlier y) (h' : Run r y later z) :
    Run r x (later ++ earlier) z := by
  induction h' with
  | refl => exact h
  | step _ hs ih => exact .step ih hs

/-- Something that is sent while the mailbox is released leaves no trace. -/
theorem Step.eq_of_refused {x y : Exchange α} {payload : Payload α} (h : Step r x (.refused payload) y) :
    y = x := by
  cases h with
  | refuse _ wait breakpoint hr => rw [Mailbox.post_of_isReleased hr]

/-- Numbers are never taken back. -/
theorem Step.issued_le {x y : Exchange α} {e : Event α} (h : Step r x e y) :
    x.mailbox.issued ≤ y.mailbox.issued := by
  cases h with
  | accept payload wait breakpoint hr =>
    rw [Mailbox.post_of_not_isReleased hr]
    exact Nat.le_succ _
  | refuse payload wait breakpoint hr =>
    exact Nat.le_of_eq (by rw [Mailbox.post_of_isReleased hr])
  | take _ h => exact Nat.le_of_eq (by rw [(Mailbox.pop_eq_some h).2])
  | complete h => exact Nat.le_of_eq (Mailbox.complete_issued _ _).symm
  | giveBack | setCanWait | panic | release | beginReset | endReset => exact Nat.le_refl _

end Exchange

end Tandem
