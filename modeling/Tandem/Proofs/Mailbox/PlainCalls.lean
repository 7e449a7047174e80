import Tandem.Mailbox.Consumer
import Tandem.Proofs.Mailbox.Processing

/-!
Calls that return, and do not receive, release or reset. What such a call does is a function on consumers. A
consumer that performs its tasks one after another does just that, and goes through moves that a consumer among
others can make.
-/
namespace Tandem

open Exchange (Event)

namespace Mailbox

variable {ω : Type}

theorem queue_postCall (m : Mailbox (Procedure ω)) (p : Procedure ω) : m.queue <+: (m.postCall p).queue := by
  cases h : m.processed with
  | none => simp [postCall, post, h]
  | some done => simp [postCall, post, h]

theorem queue_postCalls (calls : List (Procedure ω)) (m : Mailbox (Procedure ω)) :
    m.queue <+: (calls.foldl postCall m).queue := by
  induction calls generalizing m with
  | nil => exact List.prefix_rfl
  | cons p rest ih => exact (queue_postCall m p).trans (ih _)

namespace Procedure

mutual

/-- Whether a call returns, and does not receive, release or reset. -/
def isPlain : Procedure ω → Bool
  | .note _ | .post _ | .notePending | .nothing => true
  | .sequence calls => arePlain calls
  | .panic _ | .release | .reset | .receive => false

def arePlain : List (Procedure ω) → Bool
  | [] => true
  | p :: rest => p.isPlain && arePlain rest

end

mutual

/-- What a plain call does, from its beginning to its end. -/
def play (c : Consumer ω) : Procedure ω → Consumer ω
  | .note v => c.note (.value v)
  | .post calls => { c with mailbox := calls.foldl postCall c.mailbox }
  | .sequence calls => playAll c calls
  | .notePending => c.note (.pending c.mailbox.isPending)
  | .panic _ | .release | .reset | .receive | .nothing => c

def playAll (c : Consumer ω) : List (Procedure ω) → Consumer ω
  | [] => c
  | p :: rest => playAll (p.play c) rest

end

mutual

@[simp] theorem play_tasks (p : Procedure ω) (c : Consumer ω) : (p.play c).tasks = c.tasks := by
  cases p with
  | sequence calls => exact playAll_tasks calls c
  | note | post | notePending | panic | release | reset | receive | nothing => rfl

theorem playAll_tasks (ps : List (Procedure ω)) (c : Consumer ω) : (playAll c ps).tasks = c.tasks := by
  cases ps with
  | nil => rfl
  | cons p rest => exact (playAll_tasks rest (p.play c)).trans (play_tasks p c)

end

mutual

/-- What a plain call sends goes to the end of the queue. -/
theorem queue_play (p : Procedure ω) (c : Consumer ω) : c.mailbox.queue <+: (p.play c).mailbox.queue := by
  cases p with
  | post calls => exact queue_postCalls calls c.mailbox
  | sequence calls => exact queue_playAll calls c
  | note | notePending | panic | release | reset | receive | nothing => exact List.prefix_rfl

theorem queue_playAll (ps : List (Procedure ω)) (c : Consumer ω) :
    c.mailbox.queue <+: (playAll c ps).mailbox.queue := by
  cases ps with
  | nil => exact List.prefix_rfl
  | cons p rest => exact (queue_play p c).trans (queue_playAll rest (p.play c))

end

end Procedure

open Procedure (arePlain playAll)

/-- Whether serving a message is plain: it sets a flag, or its call is plain. -/
def plain (m : Message (Procedure ω)) : Bool :=
  match m.payload with
  | .call p => p.isPlain
  | .setCanWait _ => true

namespace Consumer

variable {c c' : Consumer ω} {m : Message (Procedure ω)} {rest : List (Message (Procedure ω))}

/-! ### What becomes of the consumer -/

/-- Take the oldest message, whose serving is plain, and serve it. -/
def serve (c : Consumer ω) (m : Message (Procedure ω)) : Consumer ω :=
  let c := { c with mailbox := { c.mailbox with queue := c.mailbox.queue.tail } }
  let c := match m.payload with
    | .call p => p.play c
    | .setCanWait enabled => { c with mailbox := c.mailbox.setCanWait enabled }
  { c with mailbox := c.mailbox.complete m }

@[simp] theorem serve_tasks (c : Consumer ω) (m : Message (Procedure ω)) : (c.serve m).tasks = c.tasks := by
  cases h : m.payload <;> simp [serve, h]

/-- Behind what is left in the queue stands what has been sent. -/
theorem queue_serve (hqueue : c.mailbox.queue = m :: rest) : ∃ more, (c.serve m).mailbox.queue = rest ++ more := by
  cases h : m.payload with
  | call p =>
    obtain ⟨more, hmore⟩ := p.queue_play { c with mailbox := { c.mailbox with queue := c.mailbox.queue.tail } }
    refine ⟨more, ?_⟩
    simp only [serve, h, complete_queue, ← hmore]
    rw [hqueue, List.tail_cons]
  | setCanWait enabled => exact ⟨[], by simp [serve, h, setCanWait, hqueue]⟩

theorem run_nil (h : c.tasks = []) : c.run = (none, c) := by
  rw [run]
  split
  next => rfl
  next h' => simp [h] at h'

theorem run_cons {t : Task ω} {tasks : List (Task ω)} (h : step { c with tasks } t = .ok c') :
    run { c with tasks := t :: tasks } = run c' := by
  rw [run]
  split
  next h' => cases h'
  next t' tasks' h' =>
    obtain ⟨rfl, rfl⟩ := List.cons.inj h'
    split
    next hs => simp [h] at hs
    next hs =>
      rw [h] at hs
      rw [Except.ok.inj hs]

mutual

theorem run_perform (p : Procedure ω) (hp : p.isPlain = true) (c : Consumer ω) (tasks : List (Task ω)) :
    run { c with tasks := .perform p :: tasks } = run { p.play c with tasks } := by
  cases p with
  | sequence calls =>
    rw [run_cons (t := .perform (.sequence calls)) rfl]
    exact run_performAll calls hp c tasks
  | note | post | notePending | nothing => exact run_cons rfl
  | panic | release | reset | receive => cases hp

theorem run_performAll (ps : List (Procedure ω)) (hps : arePlain ps = true) (c : Consumer ω)
    (tasks : List (Task ω)) : run { c with tasks := ps.map .perform ++ tasks } = run { playAll c ps with tasks } := by
  cases ps with
  | nil => rfl
  | cons p rest =>
    obtain ⟨hp, hrest⟩ := Bool.and_eq_true_iff.mp hps
    calc run { c with tasks := .perform p :: (rest.map .perform ++ tasks) }
      _ = run { p.play c with tasks := rest.map .perform ++ tasks } := run_perform p hp c _
      _ = run { playAll (p.play c) rest with tasks } := run_performAll rest hrest (p.play c) tasks

end

theorem run_finish (c : Consumer ω) (m : Message (Procedure ω)) : run { c with tasks := [.finish m false] } =
    (none, { c with tasks := [], mailbox := c.mailbox.complete m }) := by
  rw [run_cons (t := .finish m false) rfl]
  exact run_nil rfl

/-- From the start of a plain message the consumer comes to its end. -/
theorem run_start (hqueue : c.mailbox.queue = m :: rest) (htasks : c.tasks = []) (hm : plain m = true) :
    ∃ started, c.start? false = some (m, started) ∧ started.run = (none, c.serve m) := by
  let taken : Consumer ω := { c with mailbox := { c.mailbox with queue := rest } }
  cases h : m.payload with
  | call p =>
    refine ⟨{ taken with tasks := [.perform p, .finish m false] }, by simp [start?, pop, hqueue, h, htasks, taken], ?_⟩
    calc run { taken with tasks := [.perform p, .finish m false] }
      _ = run { p.play taken with tasks := [.finish m false] } := run_perform p (by simpa [plain, h] using hm) taken _
      _ = (none, { p.play taken with tasks := [], mailbox := (p.play taken).mailbox.complete m }) := run_finish _ m
      _ = (none, c.serve m) := by simp [serve, h, hqueue, htasks, taken]
  | setCanWait enabled =>
    refine ⟨{ taken with mailbox := taken.mailbox.setCanWait enabled, tasks := [.finish m false] },
      by simp [start?, pop, hqueue, h, htasks, taken], ?_⟩
    rw [run_finish { taken with mailbox := taken.mailbox.setCanWait enabled } m]
    simp [serve, h, hqueue, htasks, taken]

/-- One message is received, and the next ones from there. -/
theorem receiveUntil_cons (stop : Bool → Bool) (hqueue : c.mailbox.queue = m :: rest) (htasks : c.tasks = [])
    (hm : plain m = true) (answers : List Bool) : c.receiveUntil stop answers =
      if stop m.breakpoint then (.answers (m.breakpoint :: answers), c.serve m)
      else (c.serve m).receiveUntil stop (m.breakpoint :: answers) := by
  obtain ⟨started, hstart, hrun⟩ := run_start hqueue htasks hm
  rw [receiveUntil]
  split
  next hs => simp [hs] at hstart
  next hs =>
    obtain ⟨rfl, rfl⟩ := Prod.mk.inj (Option.some.inj (hs.symm.trans hstart))
    split
    next hr => simp [hr] at hrun
    next hr =>
      obtain ⟨-, rfl⟩ := Prod.mk.inj (hr.symm.trans hrun)
      rfl

theorem receiveUntil_nil (stop : Bool → Bool) (hqueue : c.mailbox.queue = []) (answers : List Bool) :
    c.receiveUntil stop answers = (.answers answers, c) := by
  have hstart : c.start? false = none := by simp [start?, pop, hqueue]
  rw [receiveUntil]
  split
  next => rfl
  next hs => simp [hstart] at hs

/-- The first breakpoint is the last message to be received. -/
theorem receiveUntil_breakpoint {before after : List (Message (Procedure ω))} {b : Message (Procedure ω)}
    (hqueue : c.mailbox.queue = before ++ b :: after) (htasks : c.tasks = [])
    (hbefore : ∀ m ∈ before, m.breakpoint = false) (hb : b.breakpoint = true)
    (hplain : ∀ m ∈ before ++ [b], plain m = true) (answers : List Bool) : c.receiveUntil id answers =
      (.answers (true :: (List.replicate before.length false ++ answers)), (before ++ [b]).foldl serve c) := by
  induction before generalizing c after answers with
  | nil =>
    rw [receiveUntil_cons id hqueue htasks (hplain b (by simp)), hb]
    rfl
  | cons m before ih =>
    obtain ⟨more, hmore⟩ := queue_serve hqueue
    have hqueue' : (c.serve m).mailbox.queue = before ++ b :: (after ++ more) := by simpa using hmore
    rw [receiveUntil_cons id hqueue htasks (hplain m (by simp)), hbefore m (by simp), if_neg (by simp),
      ih hqueue' (by simpa using htasks)
        (fun m' hm' => hbefore m' (List.mem_cons_of_mem _ hm')) (fun m' hm' => hplain m' (List.mem_cons_of_mem _ hm'))]
    rw [List.length_cons, List.replicate_succ', List.append_assoc]
    rfl

/-! ### The same among others -/

open Processing (Alone)

variable {r : Manners} {x : Exchange (Procedure ω)} {call : Procedure ω} {below : List (Taken (Procedure ω))}

/-- The exchange with another mailbox. -/
def withMailbox (x : Exchange (Procedure ω)) (c : Consumer ω) : Exchange (Procedure ω) :=
  { x with mailbox := c.mailbox }

theorem alone_post (hhand : x.hand = ⟨m, false⟩ :: below) (hcall : m.payload = .call call) (p : Procedure ω) :
    Alone r ⟨x, .serving⟩ ⟨{ x with mailbox := x.mailbox.postCall p }, .serving⟩ := by
  cases h : x.mailbox.isReleased with
  | false =>
    have hunawaited : (Event.accepted (x.mailbox.next (.call p) false false)).isUnawaited = true := rfl
    exact .step (.send hhand hcall hunawaited (.accept (.call p) false false h)) (by simp)
  | true => exact .step (.send hhand hcall rfl (.refuse (.call p) false false h)) (by simp)

theorem alone_posts (hhand : x.hand = ⟨m, false⟩ :: below) (hcall : m.payload = .call call)
    (ps : List (Procedure ω)) :
    Alone r ⟨x, .serving⟩ ⟨{ x with mailbox := ps.foldl postCall x.mailbox }, .serving⟩ := by
  induction ps generalizing x with
  | nil => exact .refl _
  | cons p rest ih => exact (alone_post hhand hcall p).trans (ih hhand)

mutual

theorem alone_play (hhand : x.hand = ⟨m, false⟩ :: below) (hcall : m.payload = .call call) (p : Procedure ω)
    (c : Consumer ω) :
    Alone r ⟨withMailbox x c, .serving⟩ ⟨withMailbox x (p.play c), .serving⟩ := by
  cases p with
  | post calls => exact alone_posts (x := withMailbox x c) hhand hcall calls
  | sequence calls => exact alone_playAll hhand hcall calls c
  | note | notePending | panic | release | reset | receive | nothing => exact .refl _

theorem alone_playAll (hhand : x.hand = ⟨m, false⟩ :: below) (hcall : m.payload = .call call)
    (ps : List (Procedure ω)) (c : Consumer ω) :
    Alone r ⟨withMailbox x c, .serving⟩ ⟨withMailbox x (playAll c ps), .serving⟩ := by
  cases ps with
  | nil => exact .refl _
  | cons p rest => exact (alone_play hhand hcall p c).trans (alone_playAll hhand hcall rest (p.play c))

end

/-- A consumer among others can take the oldest message. -/
theorem alone_take (hhand : r.nests = true ∨ x.hand = []) (hqueue : x.mailbox.queue = m :: rest) :
    Alone r ⟨x, .waiting⟩
      ⟨{ x with mailbox := { x.mailbox with queue := rest }, hand := ⟨m, false⟩ :: x.hand }, .serving⟩ := by
  have hpending : x.mailbox.isPending = true := by simp [isPending, hqueue]
  have hlook := Processing.Step.look (r := r) (x := x)
  rw [if_pos hpending] at hlook
  exact (Alone.step (.wake (by simp [starves, hqueue])) (by simp)).trans ((Alone.step hlook (by simp)).trans
    (.step (.take (.take hhand (by simp [pop, hqueue]))) (by simp)))

/-- It can then serve it. -/
theorem alone_serve (hhand : r.nests = true ∨ x.hand = []) (hqueue : c.mailbox.queue = m :: rest) :
    Alone r ⟨withMailbox x c, .waiting⟩
      ⟨withMailbox x (c.serve m), if m.breakpoint then .stopped else .waiting⟩ := by
  let taken : Consumer ω := { c with mailbox := { c.mailbox with queue := rest } }
  let y : Exchange (Procedure ω) := { x with hand := ⟨m, false⟩ :: x.hand }
  have htake : Alone r ⟨withMailbox x c, .waiting⟩ ⟨withMailbox y taken, .serving⟩ :=
    alone_take (x := withMailbox x c) hhand hqueue
  cases h : m.payload with
  | call p =>
    have hserve : withMailbox x (c.serve m) = { x with mailbox := (p.play taken).mailbox.complete m } := by
      simp [withMailbox, serve, h, hqueue, taken]
    have hplay : Alone r ⟨withMailbox y taken, .serving⟩ ⟨withMailbox y (p.play taken), .serving⟩ :=
      alone_play rfl h p taken
    refine htake.trans (hplay.trans ((Alone.step (.giveBack (.giveBack rfl h)) (by simp)).trans ?_))
    rw [hserve]
    exact .step (.complete (.complete rfl)) (by simp)
  | setCanWait enabled =>
    have hserve : withMailbox x (c.serve m) = { x with mailbox := (taken.mailbox.setCanWait enabled).complete m } := by
      simp [withMailbox, serve, h, hqueue, taken]
    refine htake.trans ((Alone.step (.giveBack (.setCanWait rfl h)) (by simp)).trans ?_)
    rw [hserve]
    exact .step (.complete (.complete rfl)) (by simp)

/-- Message after message, it can come to the first breakpoint. -/
theorem alone_breakpoint {before after : List (Message (Procedure ω))} {b : Message (Procedure ω)}
    (hhand : r.nests = true ∨ x.hand = []) (hqueue : c.mailbox.queue = before ++ b :: after)
    (hbefore : ∀ m ∈ before, m.breakpoint = false) (hb : b.breakpoint = true) :
    Alone r ⟨withMailbox x c, .waiting⟩ ⟨withMailbox x ((before ++ [b]).foldl serve c), .stopped⟩ := by
  induction before generalizing c after with
  | nil =>
    have hserve := alone_serve (r := r) hhand hqueue
    rwa [hb] at hserve
  | cons m before ih =>
    obtain ⟨more, hmore⟩ := queue_serve hqueue
    have hserve := alone_serve (r := r) hhand hqueue
    rw [hbefore m (by simp), if_neg (by simp)] at hserve
    have hqueue' : (c.serve m).mailbox.queue = before ++ b :: (after ++ more) := by simpa using hmore
    exact hserve.trans (ih hqueue' fun m' hm' => hbefore m' (List.mem_cons_of_mem _ hm'))

end Consumer

end Mailbox

end Tandem
