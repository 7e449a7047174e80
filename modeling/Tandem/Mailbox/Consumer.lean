import Tandem.Mailbox

/-!
Calls as data, and the consumer that performs them. A call may queue further calls, release or reset the
mailbox it came from, and receive from it while it runs. What the consumer still has to do is a list of
tasks, so that a call that panics leaves all enclosing calls unfinished. Every step uses up a piece of a
call, so the consumer comes to an end.
-/
namespace Tandem.Mailbox

inductive Procedure (ω : Type)
  /-- Note a value. -/
  | note (value : ω)
  /-- Queue calls without waiting for them. -/
  | post (calls : List (Procedure ω))
  /-- Perform calls at once, one after another. -/
  | sequence (calls : List (Procedure ω))
  | panic (text : String)
  | release
  | reset
  /-- Note whether anything is queued. -/
  | notePending
  /-- Receive the oldest message and note whether it was a breakpoint. -/
  | receive
  | nothing

/-- What calls note. -/
inductive Note (ω : Type)
  | value (value : ω)
  | pending (pending : Bool)
  | received (breakpoint : Bool)

namespace Procedure

variable {ω : Type}

mutual

/-- The number of steps that a call is good for, with those of the calls that it queues. -/
def weight : Procedure ω → Nat
  | .post calls | .sequence calls => weights calls + 1
  | _ => 1

/-- The same for several calls, with two more to receive and to finish each. -/
def weights : List (Procedure ω) → Nat
  | [] => 0
  | p :: rest => p.weight + 2 + weights rest

end

end Procedure

open Procedure (weights)

/-- What all elements of a list weigh. -/
def total {α : Type} (weight : α → Nat) : List α → Nat
  | [] => 0
  | x :: rest => weight x + total weight rest

@[simp] theorem total_append {α : Type} (weight : α → Nat) (xs ys : List α) :
    total weight (xs ++ ys) = total weight xs + total weight ys := by
  induction xs with
  | nil => simp [total]
  | cons x rest ih => simp [total, ih, Nat.add_assoc]

inductive Task (ω : Type)
  | perform (call : Procedure ω)
  /-- The call of a message has returned. A nested receive notes it. -/
  | finish (message : Message (Procedure ω)) (nested : Bool)

structure Consumer (ω : Type) where
  mailbox : Mailbox (Procedure ω)
  /-- What is still to be done, the innermost first. -/
  tasks : List (Task ω) := []
  /-- What has been noted, newest first. -/
  notes : List (Note ω) := []

def Task.weight {ω : Type} : Task ω → Nat
  | .perform call => call.weight
  | .finish .. => 1

def messageWeight {ω : Type} (m : Message (Procedure ω)) : Nat :=
  match m.payload with
  | .call p => p.weight + 2
  | .setCanWait _ => 2

namespace Consumer

variable {ω : Type}

/-- A bound on the steps left. -/
def weight (c : Consumer ω) : Nat :=
  total messageWeight c.mailbox.queue + total Task.weight c.tasks

def note (c : Consumer ω) (n : Note ω) : Consumer ω := { c with notes := n :: c.notes }

/-- Take the oldest message and turn to its call. -/
def start? (c : Consumer ω) (nested : Bool) : Option (Message (Procedure ω) × Consumer ω) :=
  match c.mailbox.pop with
  | none => none
  | some (m, mailbox) =>
    let rest := .finish m nested :: c.tasks
    match m.payload with
    | .call p => some (m, { c with mailbox, tasks := .perform p :: rest })
    | .setCanWait enabled => some (m, { c with mailbox := mailbox.setCanWait enabled, tasks := rest })

/-- Perform a call, up to the calls that it performs in turn. -/
def perform (c : Consumer ω) : Procedure ω → Except String (Consumer ω)
  | .note v => .ok (c.note (.value v))
  | .post calls => .ok { c with mailbox := calls.foldl postCall c.mailbox }
  | .sequence calls => .ok { c with tasks := calls.map .perform ++ c.tasks }
  | .panic text => .error text
  | .release => .ok { c with mailbox := c.mailbox.release }
  | .reset => .ok { c with mailbox := c.mailbox.reset }
  | .notePending => .ok (c.note (.pending c.mailbox.isPending))
  | .receive =>
    match c.start? true with
    | some (_, c) => .ok c
    | none => .ok (c.note (.received false))
  | .nothing => .ok c

/-- Complete the message of a call that has returned. -/
def finish (c : Consumer ω) (m : Message (Procedure ω)) (nested : Bool) : Consumer ω :=
  let c := { c with mailbox := c.mailbox.complete m }
  if nested then c.note (.received m.breakpoint) else c

def step (c : Consumer ω) : Task ω → Except String (Consumer ω)
  | .perform call => c.perform call
  | .finish m nested => .ok (c.finish m nested)

/-! ### Every step uses up weight -/

theorem total_postCall (calls : List (Procedure ω)) (m : Mailbox (Procedure ω)) :
    total messageWeight (calls.foldl postCall m).queue ≤
      total messageWeight m.queue + weights calls := by
  induction calls generalizing m with
  | nil => simp [weights]
  | cons p rest ih =>
    refine Nat.le_trans (ih _) ?_
    have h : total messageWeight (m.postCall p).queue ≤
        total messageWeight m.queue + (p.weight + 2) := by
      cases hp : m.processed <;> simp [postCall, post, hp, messageWeight, total]
    simp only [weights]
    omega

theorem total_perform (calls : List (Procedure ω)) :
    total Task.weight (calls.map Task.perform) ≤ weights calls := by
  induction calls with
  | nil => simp [total, weights]
  | cons p rest ih =>
    simp only [List.map_cons, total, Task.weight, weights]
    omega

theorem weight_start? {c c' : Consumer ω} {nested : Bool} {m : Message (Procedure ω)}
    (h : c.start? nested = some (m, c')) : c'.weight < c.weight := by
  unfold start? pop at h
  cases hq : c.mailbox.queue with
  | nil => simp [hq] at h
  | cons x rest =>
    cases hp : x.payload <;> simp only [hq, hp, Option.some.injEq, Prod.mk.injEq] at h <;>
      obtain ⟨-, rfl⟩ := h <;>
      simp [weight, setCanWait, hq, hp, messageWeight, Task.weight, total] <;> omega

theorem weight_perform {c c' : Consumer ω} {p : Procedure ω} (h : c.perform p = .ok c') :
    c'.weight < c.weight + p.weight := by
  cases p with
  | note v => simp only [perform, Except.ok.injEq] at h; subst h; simp [note, weight, Procedure.weight]
  | post calls =>
    simp only [perform, Except.ok.injEq] at h; subst h
    have := total_postCall calls c.mailbox
    simp only [weight, Procedure.weight]; omega
  | sequence calls =>
    simp only [perform, Except.ok.injEq] at h; subst h
    have := total_perform calls
    simp only [weight, Procedure.weight, total_append]; omega
  | panic text => simp [perform] at h
  | release =>
    simp only [perform, Except.ok.injEq] at h; subst h
    simp only [weight, Procedure.weight, Mailbox.release, total]; omega
  | reset =>
    simp only [perform, Except.ok.injEq] at h; subst h
    simp only [weight, Procedure.weight, Mailbox.reset, Mailbox.release, Mailbox.rearm, total]
    omega
  | notePending =>
    simp only [perform, Except.ok.injEq] at h; subst h; simp [note, weight, Procedure.weight]
  | receive =>
    cases hs : c.start? true with
    | none =>
      simp only [perform, hs, Except.ok.injEq] at h; subst h; simp [note, weight, Procedure.weight]
    | some started =>
      simp only [perform, hs, Except.ok.injEq] at h; subst h
      have := weight_start? hs
      simp only [Procedure.weight]; omega
  | nothing => simp only [perform, Except.ok.injEq] at h; subst h; simp [Procedure.weight]

theorem weight_finish (c : Consumer ω) (m : Message (Procedure ω)) (nested : Bool) :
    (c.finish m nested).weight = c.weight := by
  cases nested <;> simp [finish, note, weight, complete] <;> split <;> rfl

theorem weight_step {c c' : Consumer ω} {t : Task ω} (h : c.step t = .ok c') :
    c'.weight < c.weight + t.weight := by
  cases t with
  | perform p => exact weight_perform h
  | finish m nested =>
    simp only [step, Except.ok.injEq] at h; subst h
    simp [weight_finish, Task.weight]

set_option linter.unusedVariables false in
/-- Do everything that is to be done. A panic leaves the rest of it undone, and is the answer. -/
def run (c : Consumer ω) : Option String × Consumer ω :=
  match ht : c.tasks with
  | [] => (none, c)
  | t :: tasks =>
    match hs : ({ c with tasks } : Consumer ω).step t with
    | .error text => (some text, { c with tasks := [] })
    | .ok c' => run c'
termination_by c.weight
decreasing_by
  have := weight_step hs
  have hc : c.weight = ({ c with tasks } : Consumer ω).weight + t.weight := by
    simp [weight, ht, total]; omega
  omega

theorem weight_run (c : Consumer ω) : (run c).2.weight ≤ c.weight := by
  fun_induction run c with
  | case1 c _ => exact Nat.le_refl _
  | case2 c t tasks _ text _ => simp [weight, total]
  | case3 c t tasks ht c' hs ih =>
    have := weight_step hs
    have hc : c.weight = ({ c with tasks } : Consumer ω).weight + t.weight := by
      simp [weight, ht, total]; omega
    omega

/-- How a consumer fared. -/
inductive Outcome
  /-- Messages were received; each answer tells whether it was a breakpoint. Newest first. -/
  | answers (breakpoints : List Bool)
  | panic (text : String)

/-- Perform and complete the oldest message. Without one there is nothing to do. -/
def receive (c : Consumer ω) : Outcome × Consumer ω :=
  match c.start? false with
  | none => (.answers [false], c)
  | some (m, c) =>
    match c.run with
    | (some text, c) => (.panic text, c)
    | (none, c) => (.answers [m.breakpoint], c)

set_option linter.unusedVariables false in
/-- Receive until the queue is empty, or until the answer of a message says to stop. -/
def receiveUntil (stop : Bool → Bool) (c : Consumer ω) (answers : List Bool) : Outcome × Consumer ω :=
  match hs : c.start? false with
  | none => (.answers answers, c)
  | some (m, started) =>
    match hr : started.run with
    | (some text, c') => (.panic text, c')
    | (none, c') =>
      if stop m.breakpoint then (.answers (m.breakpoint :: answers), c')
      else receiveUntil stop c' (m.breakpoint :: answers)
termination_by c.weight
decreasing_by
  have h1 := weight_start? hs
  have h2 : c'.weight ≤ started.weight := by simpa [hr] using weight_run started
  omega

/-- Receive as long as anything is queued. -/
def drain (c : Consumer ω) : Outcome × Consumer ω := c.receiveUntil (fun _ => false) []

/-- Receive up to a breakpoint. If there is none, everything is received, and a mailbox that is not
released keeps the consumer waiting for one. -/
def processUntilBreakpoint (c : Consumer ω) : Outcome × Consumer ω := c.receiveUntil id []

end Consumer

end Tandem.Mailbox
