import Mathlib.Data.List.Basic
import Tandem.Machine.Scheduler
import Tandem.Proofs.Course

/-!
A frame capture through any number of recordings. It is armed and fed at any time, also while a new frame
is being dealt with, and also by what a dump is delivered to; new frames come one after another. What is
armed, what is being recorded and what is delivered is told from what has happened before.
-/
namespace Tandem.FrameCapture

variable {κ : Type}

/-- A graphics handler, as a new frame finds it. -/
structure Handler where
  number : Nat
  memory : Bytes
  registers : List UInt64
  deriving DecidableEq, Repr

/-- What a new frame does to others. -/
inductive Effect (κ : Type)
  | say (line : Log.Line)
  /-- A handler gets a recorder, or has to give it back. -/
  | hand (handler : Nat) (recorder : Option Recorder)
  | deliver (receiver : κ) (dump : FrameDump)
  deriving DecidableEq, Repr

/-- Where a dump goes, if one is delivered. -/
def Effect.receiver? : Effect κ → Option κ
  | .deliver receiver _ => some receiver
  | _ => none

/-- In this order. -/
def Outcome.effects (handler : Nat) : Outcome κ → List (Effect κ)
  | .idle => []
  | .start recorder =>
    [.say (Log.debug "VM: frame capture started"), .hand handler (some recorder)]
  | .finish receiver dump =>
    [.hand handler none,
      .say (Log.debug
        ("VM: frame capture finished with " ++ dump.packets.length.repr ++ " packets")),
      .deliver receiver dump]

/-- A capture, and what is left to do of its last new frame. -/
structure Filming (κ : Type) where
  capture : FrameCapture κ := {}
  due : List (Effect κ) := []
  deriving DecidableEq, Repr

inductive Event (κ : Type)
  | armed (receiver : κ) (accepted : Bool)
  | packet (through : Recorder) (bytes : Bytes)
  | abandoned
  | frame (handler : Handler) (outcome : Outcome κ)
  | done (effect : Effect κ)

inductive Step : Filming κ → Event κ → Filming κ → Prop
  | arm (s : Filming κ) (receiver : κ) :
    Step s (.armed receiver (s.capture.arm receiver).1)
      { s with capture := (s.capture.arm receiver).2 }
  | record (s : Filming κ) (through : Recorder) (bytes : Bytes) :
    Step s (.packet through bytes) { s with capture := s.capture.record through bytes }
  | abandon (s : Filming κ) : Step s .abandoned { s with capture := s.capture.abandon }
  | frame (c : FrameCapture κ) (h : Handler) :
    Step ⟨c, []⟩ (.frame h (c.newFrame h.memory h.registers).1)
      ⟨(c.newFrame h.memory h.registers).2,
        (c.newFrame h.memory h.registers).1.effects h.number⟩
  | carryOut (c : FrameCapture κ) (effect : Effect κ) (due : List (Effect κ)) :
    Step ⟨c, effect :: due⟩ (.done effect) ⟨c, due⟩

namespace Event

/-- A receiver is accepted, or gets its dump. -/
def settles : Event κ → Bool
  | .armed _ accepted => accepted
  | .frame _ (.finish ..) => true
  | _ => false

def starts : Event κ → Bool
  | .frame _ (.start _) => true
  | _ => false

/-- A recording starts, is finished or is abandoned. -/
def turns : Event κ → Bool
  | .frame _ (.start _) => true
  | .frame _ (.finish ..) => true
  | .abandoned => true
  | _ => false

def isFrame : Event κ → Bool
  | .frame .. => true
  | _ => false

def packet? : Event κ → Option Bytes
  | .packet _ bytes => some bytes
  | _ => none

def accepted? : Event κ → Option κ
  | .armed receiver true => some receiver
  | _ => none

def effect? : Event κ → Option (Effect κ)
  | .done effect => some effect
  | _ => none

def delivered? (e : Event κ) : Option κ := e.effect?.bind Effect.receiver?

end Event

/-! ### What the events tell, newest first -/

/-- Something of each event, in the order in which it happened. -/
def told {β : Type} (f : Event κ → Option β) (events : List (Event κ)) : List β :=
  (events.filterMap f).reverse

/-- The receiver accepted last, unless a dump has been finished for it. -/
def waiting (events : List (Event κ)) : Option κ :=
  match events.find? Event.settles with
  | some (.armed receiver _) => some receiver
  | _ => none

/-- The packets since a recording last started, was finished or was abandoned. -/
def packets (events : List (Event κ)) : List Bytes :=
  told Event.packet? (events.takeWhile fun e => !e.turns)

/-- The dump of the recording that started last, unless it has been finished or abandoned: the state of the
handler then, and the packets since. -/
def recording (events : List (Event κ)) : Option FrameDump :=
  match events.find? Event.turns with
  | some (.frame h (.start _)) => some ⟨h.memory, h.registers, packets events⟩
  | _ => none

/-- What a new frame has to come to after these events. -/
def expected (events : List (Event κ)) : Outcome κ :=
  match recording events, waiting events with
  | none, none => .idle
  | none, some _ => .start ⟨events.countP Event.starts⟩
  | some _, none => .idle
  | some dump, some receiver => if dump.packets = [] then .idle else .finish receiver dump

/-- What has been done to others since the last new frame. -/
def doneSince (events : List (Event κ)) : List (Effect κ) :=
  told Event.effect? (events.takeWhile fun e => !e.isFrame)

/-- What the last new frame has to do to others. -/
def toDo (events : List (Event κ)) : List (Effect κ) :=
  match events.find? Event.isFrame with
  | some (.frame h outcome) => outcome.effects h.number
  | _ => []

section

variable {events : List (Event κ)} {e : Event κ}

theorem told_cons {β : Type} (f : Event κ → Option β) :
    told f (e :: events) = told f events ++ (f e).toList := by
  cases h : f e <;> simp [told, h]

theorem waiting_cons (h : e.settles = false) : waiting (e :: events) = waiting events := by
  rw [waiting, List.find?_cons_of_neg (by simp [h]), waiting]

theorem packets_cons (h : e.turns = false) :
    packets (e :: events) = packets events ++ e.packet?.toList := by
  rw [packets, List.takeWhile_cons_of_pos (by simp [h]), told_cons, packets]

theorem recording_cons (h : e.turns = false) (hpacket : e.packet? = none) :
    recording (e :: events) = recording events := by
  rw [recording, List.find?_cons_of_neg (by simp [h]), packets_cons h, hpacket, Option.toList_none,
    List.append_nil, recording]

theorem recording_packet (through : Recorder) (bytes : Bytes) :
    recording (.packet through bytes :: events) =
      (recording events).map fun dump => { dump with packets := dump.packets ++ [bytes] } := by
  rw [recording, List.find?_cons_of_neg (by simp [Event.turns]), packets_cons rfl, recording]
  split <;> rfl

theorem starts_cons (h : e.starts = false) :
    (e :: events).countP Event.starts = events.countP Event.starts :=
  List.countP_cons_of_neg (by simp [h])

theorem doneSince_cons (h : e.isFrame = false) :
    doneSince (e :: events) = doneSince events ++ e.effect?.toList := by
  rw [doneSince, List.takeWhile_cons_of_pos (by simp [h]), told_cons, doneSince]

theorem toDo_cons (h : e.isFrame = false) : toDo (e :: events) = toDo events := by
  rw [toDo, List.find?_cons_of_neg (by simp [h]), toDo]

end

/-- The capture is what the events make of it. -/
structure Tells (events : List (Event κ)) (c : FrameCapture κ) : Prop where
  receiver : c.receiver = waiting events
  dump : c.dump = recording events
  started : c.started = events.countP Event.starts
  armed : c.dump.isSome → c.receiver.isSome

namespace Tells

variable {events : List (Event κ)} {e : Event κ} {c : FrameCapture κ}

theorem start : Tells [] ({} : FrameCapture κ) := ⟨rfl, rfl, rfl, nofun⟩

/-- Nothing that concerns the capture. -/
theorem skip (h : Tells events c) (hsettles : e.settles = false) (hturns : e.turns = false)
    (hstarts : e.starts = false) (hpacket : e.packet? = none) : Tells (e :: events) c where
  receiver := by rw [waiting_cons hsettles, h.receiver]
  dump := by rw [recording_cons hturns hpacket, h.dump]
  started := by rw [starts_cons hstarts, h.started]
  armed := h.armed

theorem arm (h : Tells events c) (receiver : κ) :
    Tells (.armed receiver (c.arm receiver).1 :: events) (c.arm receiver).2 := by
  cases harmed : c.receiver with
  | some k =>
    simp only [FrameCapture.arm, harmed]
    exact h.skip rfl rfl rfl rfl
  | none =>
    simp only [FrameCapture.arm, harmed]
    refine ⟨rfl, ?_, ?_, fun _ => rfl⟩
    · rw [recording_cons rfl rfl, h.dump]
    · rw [starts_cons rfl, h.started]

theorem record (h : Tells events c) (through : Recorder) (bytes : Bytes) :
    Tells (.packet through bytes :: events) (c.record through bytes) where
  receiver := by rw [waiting_cons rfl, ← h.receiver, FrameCapture.record]
  dump := by rw [recording_packet, ← h.dump, FrameCapture.record]
  started := by rw [starts_cons rfl, ← h.started, FrameCapture.record]
  armed := by simpa [FrameCapture.record] using h.armed

theorem abandon (h : Tells events c) : Tells (.abandoned :: events) c.abandon where
  receiver := by rw [waiting_cons rfl, ← h.receiver, FrameCapture.abandon]
  dump := rfl
  started := by rw [starts_cons rfl, ← h.started, FrameCapture.abandon]
  armed := nofun

/-- A new frame comes to what is expected. -/
theorem newFrame (h : Tells events c) (handler : Handler) :
    (c.newFrame handler.memory handler.registers).1 = expected events ∧
      Tells (.frame handler (c.newFrame handler.memory handler.registers).1 :: events)
        (c.newFrame handler.memory handler.registers).2 := by
  rw [expected, ← h.dump, ← h.receiver, ← h.started]
  cases hdump : c.dump with
  | none =>
    cases hreceiver : c.receiver with
    | none =>
      simp only [FrameCapture.newFrame, hdump, hreceiver]
      exact ⟨trivial, h.skip rfl rfl rfl rfl⟩
    | some k =>
      simp only [FrameCapture.newFrame, hdump, hreceiver]
      refine ⟨trivial, ?_, rfl, ?_, fun _ => rfl⟩
      · rw [waiting_cons rfl, ← h.receiver, hreceiver]
      · rw [List.countP_cons_of_pos rfl, h.started]
  | some dump =>
    cases hreceiver : c.receiver with
    | none =>
      -- A dump without a receiver would be dropped here; there is none.
      have harmed := h.armed
      rw [hdump, hreceiver] at harmed
      cases harmed rfl
    | some k =>
      by_cases hempty : dump.packets = []
      · simp only [FrameCapture.newFrame, hdump, hreceiver, hempty, List.isEmpty_nil, if_true]
        exact ⟨trivial, h.skip rfl rfl rfl rfl⟩
      · have hpackets : dump.packets.isEmpty = false := by simp [hempty]
        simp only [FrameCapture.newFrame, hdump, hreceiver, hpackets, hempty]
        refine ⟨rfl, rfl, rfl, ?_, nofun⟩
        rw [starts_cons rfl, ← h.started]
        rfl

theorem step {s s' : Filming κ} (h : Tells events s.capture) (hs : Step s e s') :
    Tells (e :: events) s'.capture := by
  cases hs with
  | arm _ receiver => exact h.arm receiver
  | record _ through bytes => exact h.record through bytes
  | abandon => exact h.abandon
  | frame c handler => exact (h.newFrame handler).2
  | carryOut c effect due => exact h.skip rfl rfl rfl rfl

end Tells

/-! ### What is done to others -/

/-- The receivers that may still get a dump. -/
def Filming.pending (s : Filming κ) : List κ :=
  s.due.filterMap Effect.receiver? ++ s.capture.receiver.toList

section

variable {s s' : Filming κ} {e : Event κ} {events : List (Event κ)}

theorem arm_pending (c : FrameCapture κ) (receiver : κ) :
    c.receiver.toList ++ (Event.armed receiver (c.arm receiver).1).accepted?.toList =
      (c.arm receiver).2.receiver.toList := by
  cases harmed : c.receiver with
  | some k => simp [arm, harmed, Event.accepted?]
  | none => simp [arm, harmed, Event.accepted?]

theorem newFrame_pending (c : FrameCapture κ) (h : Handler) :
    ((c.newFrame h.memory h.registers).1.effects h.number).filterMap Effect.receiver? ++
      (c.newFrame h.memory h.registers).2.receiver.toList = c.receiver.toList := by
  cases hdump : c.dump with
  | none =>
    cases hreceiver : c.receiver with
    | none => simp [newFrame, hdump, hreceiver, Outcome.effects]
    | some k =>
      simp only [newFrame, hdump, hreceiver, Outcome.effects]
      rfl
  | some dump =>
    cases hempty : dump.packets.isEmpty with
    | true => simp [newFrame, hdump, hempty, Outcome.effects]
    | false =>
      cases hreceiver : c.receiver with
      | none => simp [newFrame, hdump, hreceiver, hempty, Outcome.effects]
      | some k =>
        simp only [newFrame, hdump, hreceiver, hempty, Outcome.effects]
        rfl

theorem Step.pending (hs : Step s e s') :
    s.pending ++ e.accepted?.toList = e.delivered?.toList ++ s'.pending := by
  cases hs with
  | arm _ receiver =>
    rw [Filming.pending, List.append_assoc, arm_pending]
    rfl
  | record _ through bytes => exact List.append_nil _
  | abandon => exact List.append_nil _
  | frame c handler =>
    rw [Filming.pending, Filming.pending, newFrame_pending]
    exact List.append_nil _
  | carryOut c effect due =>
    cases heffect : effect.receiver? with
    | none => simp [Event.accepted?, Event.delivered?, Event.effect?, Filming.pending, heffect]
    | some k => simp [Event.accepted?, Event.delivered?, Event.effect?, Filming.pending, heffect]

theorem Step.due (hs : Step s e s') (h : doneSince events ++ s.due = toDo events) :
    doneSince (e :: events) ++ s'.due = toDo (e :: events) := by
  cases hs with
  | frame c handler => rfl
  | _ =>
    rw [doneSince_cons rfl, toDo_cons rfl, ← h, List.append_assoc]
    rfl

end

/-- A dump is delivered only for the frame that finished it, and after its handler has been told. -/
theorem finish_of_deliver {n : Nat} {outcome : Outcome κ} {receiver : κ} {dump : FrameDump}
    {before after : List (Effect κ)} (h : before ++ .deliver receiver dump :: after = outcome.effects n) :
    outcome = .finish receiver dump ∧ .hand n none ∈ before := by
  cases outcome with
  | idle => simp [Outcome.effects] at h
  | start recorder =>
    obtain _ | ⟨e, _ | ⟨e', before⟩⟩ := before <;> simp [Outcome.effects] at h
  | finish receiver' dump' =>
    obtain _ | ⟨e, _ | ⟨e', _ | ⟨e'', before⟩⟩⟩ := before <;> simp [Outcome.effects] at h
    obtain ⟨rfl, rfl, ⟨rfl, rfl⟩, rfl⟩ := h
    exact ⟨rfl, .head _⟩

/-! ### All along -/

def events (passages : List (Passage (Filming κ) (Event κ))) : List (Event κ) :=
  passages.map (·.action)

/-- What has happened, and what it has come to. -/
structure Filmed (events : List (Event κ)) (s : Filming κ) : Prop where
  tells : Tells events s.capture
  once : told Event.accepted? events = told Event.delivered? events ++ s.pending
  due : doneSince events ++ s.due = toDo events

namespace Filmed

variable {events : List (Event κ)} {e : Event κ} {s s' : Filming κ}

theorem start : Filmed [] ({} : Filming κ) := ⟨.start, rfl, rfl⟩

theorem step (h : Filmed events s) (hs : Step s e s') : Filmed (e :: events) s' where
  tells := h.tells.step hs
  once := by
    rw [told_cons, told_cons, List.append_assoc, ← hs.pending, ← List.append_assoc, ← h.once]
  due := hs.due h.due

theorem accepted_iff {receiver : κ} {accepted : Bool} (h : Filmed events s)
    (hs : Step s (.armed receiver accepted) s') : accepted = true ↔ waiting events = none := by
  cases hs
  rw [← h.tells.receiver]
  cases harmed : s.capture.receiver with
  | some k => simp [arm, harmed]
  | none => simp [arm, harmed]

theorem expected {handler : Handler} {outcome : Outcome κ} (h : Filmed events s)
    (hs : Step s (.frame handler outcome) s') :
    outcome = expected events ∧ doneSince events = toDo events := by
  have hdue := h.due
  cases hs
  rw [List.append_nil] at hdue
  exact ⟨(h.tells.newFrame handler).1, hdue⟩

theorem finished {receiver : κ} {dump : FrameDump} (h : Filmed events s)
    (hs : Step s (.done (.deliver receiver dump)) s') :
    ∃ handler, events.find? Event.isFrame = some (.frame handler (.finish receiver dump)) ∧
      .hand handler.number none ∈ doneSince events := by
  have hdue := h.due
  cases hs
  rw [toDo] at hdue
  split at hdue
  next handler outcome hframe =>
    obtain ⟨rfl, hhand⟩ := finish_of_deliver hdue
    exact ⟨handler, hframe, hhand⟩
  next => simp at hdue

end Filmed

/-- Until the next new frame, nothing is recorded after an abandoned recording, and what was armed stays
armed. -/
theorem starts_afresh {since events : List (Event κ)} (h : ∀ e ∈ since, e.isFrame = false)
    (harmed : (waiting events).isSome) :
    recording (since ++ .abandoned :: events) = none ∧
      (waiting (since ++ .abandoned :: events)).isSome := by
  induction since with
  | nil => exact ⟨rfl, harmed⟩
  | cons e since ih =>
    obtain ⟨hrecording, hwaiting⟩ := ih fun e he => h e (List.mem_cons_of_mem _ he)
    cases e with
    | armed receiver accepted =>
      refine ⟨(recording_cons rfl rfl).trans hrecording, ?_⟩
      cases accepted with
      | true => rfl
      | false => exact hwaiting
    | packet through bytes =>
      refine ⟨?_, hwaiting⟩
      rw [List.cons_append, recording_packet, hrecording]
      rfl
    | abandoned => exact ⟨rfl, hwaiting⟩
    | frame handler outcome => cases h _ List.mem_cons_self
    | done effect => exact ⟨(recording_cons rfl rfl).trans hrecording, hwaiting⟩

variable {s : Filming κ} {passages : List (Passage (Filming κ) (Event κ))}

theorem filmed_of_course (h : Course Step {} passages s) :
    Filmed (passages.map (·.action)) s := by
  induction h with
  | start => exact .start
  | step _ hs ih => exact ih.step hs

/-- Whenever a capture is armed, fed and abandoned, also while a dump is delivered: there is a dump only
while something is armed, each accepted receiver gets one dump at most, in turn, and each new frame does
just what was to be expected. -/
theorem captures_frames (h : Course Step ({} : Filming κ) passages s) :
    let events := passages.map (·.action)
    (s.capture.dump.isSome → s.capture.receiver.isSome) ∧
    s.capture.receiver = waiting events ∧
    s.capture.dump = recording events ∧
    told Event.accepted? events = told Event.delivered? events ++
      s.due.filterMap Effect.receiver? ++ s.capture.receiver.toList ∧
    doneSince events ++ s.due = toDo events ∧
    ∀ later x earlier, passages = later ++ x :: earlier →
      let before := earlier.map (·.action)
      (∀ receiver accepted, x.action = .armed receiver accepted →
        (accepted = true ↔ waiting before = none)) ∧
      (∀ handler outcome, x.action = .frame handler outcome →
        outcome = expected before ∧ doneSince before = toDo before) ∧
      (∀ receiver dump, x.action = .done (.deliver receiver dump) →
        ∃ handler, before.find? Event.isFrame = some (.frame handler (.finish receiver dump)) ∧
          .hand handler.number none ∈ doneSince before) ∧
      (∀ handler outcome since events, x.action = .frame handler outcome →
        before = since ++ .abandoned :: events → (∀ e ∈ since, e.isFrame = false) →
        (waiting events).isSome → ∃ recorder, outcome = .start recorder ∧
          x.after.capture.dump = some { handler with }) := by
  have hfilmed := filmed_of_course h
  have honce := hfilmed.once
  rw [Filming.pending, ← List.append_assoc] at honce
  refine ⟨hfilmed.tells.armed, hfilmed.tells.receiver, hfilmed.tells.dump, honce, hfilmed.due, ?_⟩
  rintro later ⟨b, a, c⟩ earlier rfl
  obtain ⟨hbefore, hs⟩ := h.split
  have hfilmed := filmed_of_course hbefore
  refine ⟨?_, ?_, ?_, ?_⟩
  · rintro receiver accepted rfl
    exact hfilmed.accepted_iff hs
  · rintro handler outcome rfl
    exact hfilmed.expected hs
  · rintro receiver dump rfl
    exact hfilmed.finished hs
  · rintro handler outcome since events rfl hevents hsince harmed
    have hexpected := (hfilmed.expected hs).1
    have hafter := (hfilmed.step hs).tells.dump
    obtain ⟨hrecording, hwaiting⟩ := starts_afresh hsince harmed
    obtain ⟨receiver, hreceiver⟩ := Option.isSome_iff_exists.mp hwaiting
    rw [hevents, FrameCapture.expected, hrecording, hreceiver] at hexpected
    rw [hexpected] at hafter
    exact ⟨_, hexpected, hafter⟩

/-- Something else is armed while a dump is delivered. -/
theorem captures_frames_of_rearmed : ∃ passages s,
    Course Step ({} : Filming Nat) passages s ∧ s = ⟨{ receiver := some 9, started := 1 }, []⟩ ∧
      told Event.accepted? (passages.map (·.action)) = [7, 9] ∧
      told Event.delivered? (passages.map (·.action)) = [7] ∧
      .finish 7 ⟨[1], [2], [[3]]⟩ = expected (κ := Nat)
        [.packet ⟨0⟩ [3], .done (.hand 0 (some ⟨0⟩)),
          .done (.say (Log.debug "VM: frame capture started")),
          .frame ⟨0, [1], [2]⟩ (.start ⟨0⟩), .armed 8 false, .armed 7 true] := by
  have hstart : Course Step ({} : Filming Nat) [] {} := .start
  have harmed := (hstart.step (.arm _ 7)).step (.arm _ 8)
  have hrecording := ((harmed.step (.frame _ ⟨0, [1], [2]⟩)).step (.carryOut ..)).step (.carryOut ..)
  have hfinished := (hrecording.step (.record _ ⟨0⟩ [3])).step (.frame _ ⟨1, [], []⟩)
  have hdelivered := ((hfinished.step (.carryOut ..)).step (.carryOut ..)).step (.carryOut ..)
  have hrearmed := hdelivered.step (.arm _ 9)
  obtain ⟨-, -, -, -, -, hall⟩ := captures_frames hrearmed
  obtain ⟨-, hframe, -, -⟩ := hall [_, _, _, _] _ _ rfl
  obtain ⟨hfinish, -⟩ := hframe _ _ rfl
  exact ⟨_, _, hrearmed, rfl, rfl, rfl, hfinish⟩

end Tandem.FrameCapture

namespace Tandem.Machine

open FrameCapture

variable {k : Console}

/-- What a new frame does to a machine with a graphics handler. -/
def carryOut (m : Machine k) : Effect Nat → Machine k
  | .say line => m.say line
  | .hand _ recorder =>
    { m with
      devices.graphics := m.devices.graphics.map (GraphicsHandler.setRecorder · recorder) }.note
      (.recorder recorder)
  | .deliver ticket dump => { m with dumps := (ticket, dump) :: m.dumps }

/-- A machine does at once what a new frame leaves to do. -/
theorem newFrame_eq {m : Machine k} {g : k.Graphics} (h : m.devices.graphics = some g) (n : Nat) :
    m.newFrame =
      ((m.capture.newFrame (GraphicsHandler.memory g) (GraphicsHandler.registers g)).1.effects n).foldl
        carryOut
        { m with capture :=
          (m.capture.newFrame (GraphicsHandler.memory g) (GraphicsHandler.registers g)).2 } := by
  rw [newFrame, h]
  cases hframe : m.capture.newFrame (GraphicsHandler.memory g) (GraphicsHandler.registers g) with
  | mk outcome capture =>
    cases outcome with
    | idle =>
      simp only [hframe]
      rfl
    | start recorder => simp [hframe, Outcome.effects, carryOut, say, note, h]
    | finish receiver dump => simp [hframe, Outcome.effects, carryOut, say, note, h]

end Tandem.Machine
