import Tandem.Proofs.Capture.Recorders
import Tandem.Proofs.Machine.Apart
import Tandem.Proofs.Machine.Recent
import Tandem.Proofs.Machine.Save

/-!
The capture of a machine through any run: it is armed and abandoned by requests, fed by the graphics handler
and by whoever else has a recorder, and looked at when frame reports are. Whether a dump has only packets
that came through its own recorder is up to those who still have another.
-/
namespace Tandem

namespace Mixer

variable {S A : Type} [SoundCore S] [AudioHandler A]

theorem dumps_writeBatch (samples : Array Int16) (audio : A) (j : Journal) :
    (writeBatch samples audio j).2.dumps = j.dumps := by
  unfold writeBatch
  dsimp only
  rw [Journal.sayAll_eq]
  split
  · rw [Journal.sayAll_eq]
    rfl
  · rfl

theorem dumps_update (d : Desk S A) : (update d).2.journal.dumps = d.journal.dumps := by
  have hcalls (cs : List Call) (j : Journal) : (cs.foldl Journal.call j).dumps = j.dumps := by
    induction cs generalizing j with
    | nil => rfl
    | cons c cs ih => exact ih (j.call c)
  unfold update
  dsimp only
  split
  · exact hcalls _ _
  · split
    · exact hcalls _ _
    · exact (dumps_writeBatch _ _ _).trans (hcalls _ _)

end Mixer

namespace Machine

open FrameCapture

variable {k : Console} {m m₁ m₂ m' : Machine k} {events : List (FrameCapture.Event Nat)}

/-- How many graphics handlers there have been. -/
def tenure (m : Machine k) : Nat := m.calls.count (.built .graphics)

/-- What a new frame comes to. -/
def taken (m : Machine k) : List (FrameCapture.Event Nat) :=
  match m.devices.graphics with
  | none => []
  | some g =>
    [.frame ⟨m.tenure, GraphicsHandler.memory g, GraphicsHandler.registers g⟩
      (m.capture.newFrame (GraphicsHandler.memory g) (GraphicsHandler.registers g)).1]

/-- What so many new frames come to, newest first. -/
def takenAll : Nat → Machine k → List (FrameCapture.Event Nat)
  | 0, _ => []
  | n + 1, m => takenAll n m.newFrame ++ m.taken

/-- What a signal means to the capture. -/
def shot? : GraphicsSignal → Option (FrameCapture.Event Nat)
  | .packet through bytes => some (.packet through bytes)
  | .frame => none

/-- What the graphics handler wants done when the beam leaves the screen. -/
def drawn (m : Machine k) : List GraphicsSignal :=
  match m.devices.graphics with
  | none => []
  | some g => (GraphicsHandler.vblankStart g).2

/-- What an action means to the capture, newest first. -/
def footageOf (m : Machine k) : Action k → List (FrameCapture.Event Nat)
  | .iteration _ => if m.pacer.poll.1 = some .start then (m.drawn.filterMap shot?).reverse else []
  | .request (.capture ticket) => [.armed ticket (m.capture.arm ticket).1]
  | .request (.detach .graphics) => if m.devices.isAttached .graphics then [.abandoned] else []
  | .request _ => []
  | .drain => takenAll m.frameReports { m with frameReports := 0 }
  | .signal s => (shot? s).toList
  | .elsewhere .. => []

/-- What all that happened means to the capture, newest first. -/
def footage (passages : List (Passage (Machine k) (Action k))) : List (FrameCapture.Event Nat) :=
  passages.flatMap fun x => x.before.footageOf x.action

/-! ### New frames -/

theorem newFrame_of_attached {g : k.Graphics} (h : m.devices.graphics = some g) :
    m.newFrame.capture = (m.capture.newFrame (GraphicsHandler.memory g) (GraphicsHandler.registers g)).2 ∧
      m.newFrame.dumps = m.taken.filterMap Event.finished? ++ m.dumps := by
  rw [newFrame_eq h m.tenure, taken, h]
  dsimp only
  obtain ⟨outcome, capture⟩ := m.capture.newFrame (GraphicsHandler.memory g) (GraphicsHandler.registers g)
  cases outcome <;> exact ⟨rfl, rfl⟩

theorem shot_newFrame (h : Shot events m.capture) : Shot (m.taken ++ events) m.newFrame.capture := by
  cases hg : m.devices.graphics with
  | none =>
    rw [taken, hg, newFrame, hg]
    exact h
  | some g =>
    rw [(newFrame_of_attached hg).1, taken, hg]
    exact h.step (.frame _ ⟨m.tenure, GraphicsHandler.memory g, GraphicsHandler.registers g⟩)

theorem dumps_newFrame (m : Machine k) :
    m.newFrame.dumps = m.taken.filterMap Event.finished? ++ m.dumps := by
  cases hg : m.devices.graphics with
  | none =>
    rw [taken, hg, newFrame, hg]
    rfl
  | some g => exact (newFrame_of_attached hg).2

theorem shot_takenAll (n : Nat) (h : Shot events m.capture) :
    Shot (takenAll n m ++ events) (drainFrames.go n m).capture ∧
      (drainFrames.go n m).dumps = (takenAll n m).filterMap Event.finished? ++ m.dumps := by
  induction n generalizing m events with
  | zero => exact ⟨h, rfl⟩
  | succ n ih =>
    obtain ⟨hshot, hdumps⟩ := ih (shot_newFrame h)
    rw [takenAll, List.append_assoc, List.filterMap_append, List.append_assoc, ← dumps_newFrame]
    exact ⟨hshot, hdumps⟩

/-! ### Iterations -/

/-- Neither the capture nor the dumps are touched. -/
structure Unseen (m m' : Machine k) : Prop where
  capture : m'.capture = m.capture
  dumps : m'.dumps = m.dumps

namespace Unseen

theorem refl (m : Machine k) : Unseen m m := ⟨rfl, rfl⟩

theorem trans (h₁ : Unseen m m₁) (h₂ : Unseen m₁ m₂) : Unseen m m₂ :=
  ⟨h₂.capture.trans h₁.capture, h₂.dumps.trans h₁.dumps⟩

/-- One operation after another. -/
theorem foldl {α : Type} {f : Machine k → α → Machine k} (h : ∀ m a, Unseen m (f m a)) (as : List α)
    (m : Machine k) : Unseen m (as.foldl f m) := by
  induction as generalizing m with
  | nil => exact .refl m
  | cons a as ih => exact (h m a).trans (ih (f m a))

theorem shot (h : Unseen m m') (hm : Shot events m.capture) : Shot events m'.capture := by
  rwa [h.capture]

end Unseen

theorem unseen_mixIfDue (m : Machine k) : Unseen m m.mixIfDue := by
  unfold mixIfDue
  split
  · exact ⟨rfl, Mixer.dumps_update _⟩
  · exact .refl m

theorem unseen_processorsEnterVblank (m : Machine k) : Unseen m m.processorsEnterVblank := by
  unfold processorsEnterVblank
  dsimp only
  rw [noteAll_eq, sayAll_eq]
  exact ⟨rfl, rfl⟩

theorem unseen_samplePads (m : Machine k) : Unseen m m.samplePads := by
  unfold samplePads
  split
  · exact .refl m
  next i _ =>
    have h (primary : k.Cpu) (input : k.Input) (c : Call) :
        Unseen m (note { m with devices.input := some input, hardware.primary := primary } c) := ⟨rfl, rfl⟩
    have hpass (m : Machine k) (s : ListenerRef × PadSignal) : Unseen m (m.passOn s) := ⟨rfl, rfl⟩
    exact (h _ _ _).trans (.foldl hpass _ _)

theorem unseen_leaveVblank (m : Machine k) : Unseen m m.leaveVblank := by
  unfold leaveVblank
  dsimp only
  split <;> exact ⟨rfl, rfl⟩

theorem unseen_callPrimary (m : Machine k) : Unseen m m.callPrimary.2 := by
  unfold callPrimary
  dsimp only
  split <;> exact ⟨rfl, rfl⟩

theorem unseen_callSecondary (m : Machine k) : Unseen m m.callSecondary.2 := by
  unfold callSecondary
  dsimp only
  split <;> exact ⟨rfl, rfl⟩

theorem unseen_settle (m : Machine k) : Unseen m m.settle := by
  unfold settle
  split <;> exact ⟨rfl, rfl⟩

/-- Once the processors run, the capture is not concerned. -/
theorem Iteration.unseen {r : Option Halt} (h : Iteration m r m') : Unseen m.prepare m' := by
  have hprimary {a b : Machine k} {r : Option Halt} (h : PrimaryPart a r b) : Unseen a b :=
    Loop.relates Unseen.refl (fun _ _ _ => Unseen.trans) (fun a _ => unseen_callPrimary a) h
  have hsecondary {a b : Machine k} {r : Option Halt} (h : SecondaryPart a r b) : Unseen a b :=
    Loop.relates Unseen.refl (fun _ _ _ => Unseen.trans) (fun a _ => unseen_callSecondary a) h
  cases h with
  | primaryHalts h₁ => exact hprimary h₁
  | secondaryHalts h₁ h₂ => exact (hprimary h₁).trans (hsecondary h₂)
  | finishes h₁ h₂ => exact ((hprimary h₁).trans (hsecondary h₂)).trans (unseen_settle _)

theorem shot_heed (h : Shot events m.capture) (s : GraphicsSignal) :
    Shot ((shot? s).toList ++ events) (m.heed s).capture := by
  cases s with
  | packet through bytes => exact h.step (.record ⟨_, []⟩ through bytes)
  | frame => exact h

theorem shot_foldl_heed (ss : List GraphicsSignal) (h : Shot events m.capture) :
    Shot ((ss.filterMap shot?).reverse ++ events) (ss.foldl heed m).capture := by
  induction ss generalizing m events with
  | nil => exact h
  | cons s ss ih =>
    have hs := ih (shot_heed h s)
    cases hshot : shot? s with
    | none =>
      rw [hshot] at hs
      rwa [List.filterMap_cons_none hshot, List.foldl_cons]
    | some e =>
      rw [hshot] at hs
      rwa [List.filterMap_cons_some hshot, List.reverse_cons, List.append_assoc, List.foldl_cons]

theorem shot_graphicsEnterVblank (h : Shot events m.capture) :
    Shot ((m.drawn.filterMap shot?).reverse ++ events) m.graphicsEnterVblank.capture ∧
      m.graphicsEnterVblank.dumps = m.dumps := by
  cases hg : m.devices.graphics with
  | none =>
    rw [drawn, hg, graphicsEnterVblank, hg]
    exact ⟨h, rfl⟩
  | some g =>
    rw [drawn, hg, graphicsEnterVblank, hg]
    dsimp only
    refine ⟨shot_foldl_heed _ h, ?_⟩
    obtain ⟨capture, frameReports, hheed⟩ := foldl_heed (GraphicsHandler.vblankStart g).2
      ({ m with devices.graphics := some (GraphicsHandler.vblankStart g).1 }.note (.drawVblank true))
    rw [hheed]
    rfl

/-- At the end of a frame the graphics handler may record packets. -/
theorem shot_prepare (h : Shot events m.capture) :
    Shot ((if m.pacer.poll.1 = some .start then (m.drawn.filterMap shot?).reverse else []) ++ events)
      m.prepare.capture ∧ m.prepare.dumps = m.dumps := by
  obtain ⟨mixing, hmixes⟩ := mixes_mixIfDue m
  obtain ⟨-, -, -, hgraphics, -, hpacer⟩ := hmixes.rest
  unfold prepare pollPacer
  rw [hpacer]
  obtain ⟨edge, p⟩ := m.pacer.poll
  have hmixed : Unseen m { m.mixIfDue with pacer := p } := (unseen_mixIfDue m).trans ⟨rfl, rfl⟩
  cases edge with
  | none => exact ⟨hmixed.shot h, hmixed.dumps⟩
  | some edge =>
    cases edge with
    | finish =>
      have hleft := hmixed.trans (unseen_leaveVblank _)
      exact ⟨hleft.shot h, hleft.dumps⟩
    | start =>
      have hentered := hmixed.trans (unseen_processorsEnterVblank _)
      obtain ⟨hshot, hdumps⟩ := shot_graphicsEnterVblank (hentered.shot h)
      have hdrawn : (processorsEnterVblank { m.mixIfDue with pacer := p }).drawn = m.drawn := by
        rw [drawn, (tells_processors _).2.1]
        dsimp only
        rw [hgraphics, drawn]
      rw [hdrawn] at hshot
      have hsampled := unseen_samplePads (processorsEnterVblank { m.mixIfDue with pacer := p }).graphicsEnterVblank
      exact ⟨hsampled.shot hshot, hsampled.dumps.trans (hdumps.trans hentered.dumps)⟩

/-! ### All along -/

theorem footageOf_of_not_isFilmed {r : Request k} (h : r.isFilmed = false) : m.footageOf (.request r) = [] := by
  cases r with
  | capture ticket => cases h
  | detach kind =>
    cases kind with
    | graphics => cases h
    | input | audio => rfl
  | _ => rfl

theorem Serves.shot {r : Request k} (hs : Serves m r m') (h : Shot events m.capture) :
    Shot (m.footageOf (.request r) ++ events) m'.capture := by
  cases hs with
  | apart hr ha =>
    rw [footageOf_of_not_isFilmed hr, ha.capture]
    exact h
  | reset _ => exact h
  | load hl =>
    rw [hl.rest.1]
    exact h
  | arm => exact h.step (.arm ⟨_, []⟩ _)
  | detach =>
    rw [footageOf]
    cases m.devices.isAttached .graphics with
    | true => exact h.step (.abandon ⟨_, []⟩)
    | false => exact h

theorem finished_shots (ss : List GraphicsSignal) :
    ((ss.filterMap shot?).reverse).filterMap Event.finished? = [] := by
  rw [List.filterMap_eq_nil_iff]
  intro e he
  obtain ⟨s, -, hs⟩ := List.mem_filterMap.mp (List.mem_reverse.mp he)
  cases s with
  | packet through bytes => rw [← Option.some.inj hs]; rfl
  | frame => cases hs

theorem finished_request (m : Machine k) (r : Request k) :
    (m.footageOf (.request r)).filterMap Event.finished? = [] := by
  cases r with
  | detach kind =>
    cases kind with
    | graphics =>
      rw [footageOf]
      cases m.devices.isAttached .graphics <;> rfl
    | input | audio => rfl
  | _ => rfl

/-- The capture is always what the footage makes of it, and the dumps are those of the footage. -/
theorem Step.shot {a : Action k} (hs : Step m a m') (h : Shot events m.capture) :
    Shot (m.footageOf a ++ events) m'.capture ∧
      m'.dumps = (m.footageOf a).filterMap Event.finished? ++ m.dumps := by
  cases hs with
  | iteration hi =>
    obtain ⟨hshot, hdumps⟩ := shot_prepare h
    have hunseen := hi.unseen
    refine ⟨hunseen.shot hshot, (hunseen.dumps.trans hdumps).trans ?_⟩
    rw [footageOf]
    split
    · rw [finished_shots]
      rfl
    · rfl
  | request r =>
    rw [finished_request]
    exact ⟨(serves m r).shot h, (serves m r).dumps⟩
  | drain => exact shot_takenAll m.frameReports (m := { m with frameReports := 0 }) h
  | signal s =>
    refine ⟨shot_heed h s, ?_⟩
    cases s <;> rfl
  | elsewhere files world => exact ⟨h, rfl⟩

theorem shot_of_course {start : Machine k} {passages : List (Passage (Machine k) (Action k))}
    (h : Course Step start passages m) (hstart : Shot events start.capture) :
    Shot (footage passages ++ events) m.capture ∧
      m.dumps = (footage passages).filterMap Event.finished? ++ start.dumps := by
  induction h with
  | start => exact ⟨hstart, rfl⟩
  | step _ hs ih =>
    obtain ⟨hshot, hdumps⟩ := hs.shot ih.1
    rw [footage, List.flatMap_cons, List.append_assoc, List.filterMap_append, List.append_assoc]
    exact ⟨hshot, hdumps.trans (congrArg _ ih.2)⟩

/-! ### Who has the recorder -/

theorem Tends.tenure (h : Tends m m') : m'.tenure = m.tenure := by
  obtain ⟨new, hcalls, hnew⟩ := h.journal
  have hnone : new.count (.built .graphics) = 0 := by
    refine List.count_eq_zero.mpr fun hmem => ?_
    obtain ⟨huse, -⟩ := hnew _ hmem rfl
    cases huse
  rw [Machine.tenure, hcalls, List.count_append, hnone, Nat.zero_add]
  rfl

/-- Each recording that was finished was finished for the graphics handler for which it was started. -/
def Matched : List (FrameCapture.Event Nat) → Prop
  | [] => True
  | .frame handler (.finish ..) :: before =>
    (∀ starter own, before.find? Event.turns = some (.frame starter (.start own)) →
      handler.number = starter.number) ∧ Matched before
  | _ :: before => Matched before

theorem matched_cons {e : FrameCapture.Event Nat} (he : e.finished? = none) :
    Matched (e :: events) ↔ Matched events := by
  cases e with
  | frame handler outcome =>
    cases outcome with
    | finish => cases he
    | idle | start => rfl
  | _ => rfl

theorem matched_append {since : List (FrameCapture.Event Nat)} (hs : ∀ e ∈ since, e.turns = false) :
    Matched (since ++ events) ↔ Matched events := by
  induction since with
  | nil => rfl
  | cons e since ih =>
    have hturns := hs e List.mem_cons_self
    rw [List.cons_append, matched_cons, ih fun e he => hs e (List.mem_cons_of_mem _ he)]
    cases e with
    | frame handler outcome =>
      cases outcome with
      | finish => cases hturns
      | idle | start => rfl
    | _ => rfl

theorem Matched.number {later before : List (FrameCapture.Event Nat)} {handler starter : Handler}
    {receiver : Nat} {dump : FrameDump} {own : Recorder}
    (h : Matched (later ++ .frame handler (.finish receiver dump) :: before))
    (hfind : before.find? Event.turns = some (.frame starter (.start own))) :
    handler.number = starter.number := by
  induction later with
  | nil => exact h.1 starter own hfind
  | cons e later ih =>
    refine ih ?_
    cases e with
    | frame handler outcome =>
      cases outcome with
      | finish => exact h.2
      | idle | start => exact h
    | _ => exact h

/-- Until the machine is asked to switch off, the graphics handler that got the recorder of the recording
under way is the one in the slot. -/
def Held (events : List (FrameCapture.Event Nat)) (m : Machine k) : Prop :=
  m.ended = false → Matched events ∧
    ∀ starter own, events.find? Event.turns = some (.frame starter (.start own)) →
      m.devices.graphics.isSome = true ∧ starter.number = m.tenure

namespace Held

variable {a : Action k}

theorem continues (h : Held events m) (hc : Continues m m') : Held events m' := by
  intro hended
  rw [hc.ended] at hended
  rw [hc.attached, hc.tenure]
  exact h hended

/-- Nothing turns. -/
theorem skip {since : List (FrameCapture.Event Nat)} (h : Held events m) (hs : ∀ e ∈ since, e.turns = false) :
    Held (since ++ events) m := by
  intro hended
  have hnone : since.find? Event.turns = none := List.find?_eq_none.mpr fun e he => by simp [hs e he]
  rw [matched_append hs, List.find?_append, hnone, Option.none_or]
  exact h hended

theorem newFrame (h : Held events m) : Held (m.taken ++ events) m.newFrame := by
  have hc := (Interlude.newFrame m).toContinues
  unfold taken
  cases hg : m.devices.graphics with
  | none => exact h.continues hc
  | some g =>
    dsimp only
    generalize (m.capture.newFrame _ _).1 = outcome
    cases outcome with
    | idle => exact (h.continues hc).skip (by simp [Event.turns])
    | finish receiver dump =>
      intro hended
      obtain ⟨hmatched, hholder⟩ := h (hc.ended.symm.trans hended)
      exact ⟨⟨fun starter own hfind => (hholder starter own hfind).2.symm, hmatched⟩,
        fun _ _ hfind => by cases hfind⟩
    | start recorder =>
      intro hended
      refine ⟨(h (hc.ended.symm.trans hended)).1, fun starter own hfind => ?_⟩
      obtain ⟨rfl, -⟩ := FrameCapture.Event.frame.inj (Option.some.inj hfind)
      rw [hc.attached, hc.tenure, hg]
      exact ⟨rfl, rfl⟩

theorem takenAll (n : Nat) (h : Held events m) : Held (takenAll n m ++ events) (drainFrames.go n m) := by
  induction n generalizing m events with
  | zero => exact h
  | succ n ih =>
    rw [Machine.takenAll, List.append_assoc]
    exact ih h.newFrame

theorem shots (ss : List GraphicsSignal) : ∀ e ∈ ss.filterMap shot?, e.turns = false := by
  intro e he
  obtain ⟨s, -, hs⟩ := List.mem_filterMap.mp he
  cases s with
  | packet through bytes => rw [← Option.some.inj hs]; rfl
  | frame => cases hs

theorem request (h : Held events m) (r : Request k) :
    Held (m.footageOf (.request r) ++ events) (m.serve r).2 := by
  by_cases hr : r.isRoutine = true
  · have hkept := h.continues (interlude_serve m r hr).toContinues
    cases r with
    | capture ticket => exact hkept.skip (by simp [footageOf, Event.turns])
    | detach kind =>
      cases kind with
      | graphics => cases hr
      | input | audio => exact hkept
    | _ => exact hkept
  cases r with
  | attachGraphics b =>
    rw [serve, built_snd]
    unfold attachGraphics
    split
    · exact h
    · exact h
    next g hg =>
      -- The slot was empty, so that nothing was being recorded.
      have hempty : m.devices.graphics = none := by
        unfold Devices.build at hg
        split at hg
        · cases hg
        · assumption
      intro hended
      obtain ⟨hmatched, hholder⟩ := h hended
      refine ⟨hmatched, fun starter own hfind => ?_⟩
      obtain ⟨hattached, -⟩ := hholder starter own hfind
      rw [hempty] at hattached
      cases hattached
  | detach kind =>
    obtain rfl : kind = .graphics := by cases kind <;> first | rfl | exact absurd rfl hr
    rw [footageOf, serve, detach_eq]
    cases ha : m.devices.isAttached .graphics with
    | true =>
      rw [if_pos (by simp)]
      obtain ⟨lines, hv⟩ := vacate_of_attached m ha
      rw [hv]
      exact fun hended => ⟨(h hended).1, fun _ _ hfind => by cases hfind⟩
    | false =>
      rw [if_neg (by simp), vacate_of_not_attached m ha]
      exact h
  | terminate => exact fun hended => Bool.noConfusion hended
  | reset => exact h.continues (renewal_reset m).1
  | reloadBlockCount n => exact h.continues (renewal_reloadBlockCount m n).1
  | _ => exact absurd rfl hr

theorem step (h : Held events m) (hs : Step m a m') : Held (m.footageOf a ++ events) m' := by
  cases hs with
  | iteration hi =>
    obtain ⟨mixing, crossing, running, ha⟩ := hi.anatomy
    have hkept := h.continues
      (((continues_mixIfDue m).trans (continues_pollPacer _)).trans ha.labours.continues)
    rw [footageOf]
    split
    · exact hkept.skip fun e he => shots m.drawn e (List.mem_reverse.mp he)
    · exact hkept
  | request r => exact h.request r
  | drain => exact Held.takenAll m.frameReports (m := { m with frameReports := 0 }) h
  | signal s =>
    refine (h.continues (Interlude.heed m s).toContinues).skip ?_
    cases s <;> simp [footageOf, shot?, Event.turns]
  | elsewhere files world => exact h

theorem of_course {start : Machine k} {passages : List (Passage (Machine k) (Action k))}
    (h : Course Step start passages m) : Held (footage passages) m := by
  induction h with
  | start => exact fun _ => ⟨trivial, fun _ _ hfind => by cases hfind⟩
  | step _ hs ih => exact ih.step hs

end Held

/-- Whatever happened to the capture before, and whoever makes use of which recorder from then on: each dump
begins with what a new frame found in the graphics handler, and has all packets from there to the new frame
at which it is delivered. Its own recorder has never been handed out before. It has only packets that came
through this one just if in the meantime none came through another. And unless the machine has been asked to
switch off, both new frames are frames of the same graphics handler. -/
theorem dump_unmixed_iff {start : Machine k} {prior : List (FrameCapture.Event Nat)}
    (hprior : Shot prior start.capture) (hidle : start.capture.dump = none)
    {passages : List (Passage (Machine k) (Action k))} (h : Course Step start passages m) :
    m.dumps = (footage passages).filterMap Event.finished? ++ start.dumps ∧
    ∀ later handler receiver dump before,
      footage passages = later ++ .frame handler (.finish receiver dump) :: before →
      ∃ since starter own older, before = since ++ .frame starter (.start own) :: older ∧
        (∀ e ∈ since, e.turns = false) ∧
        dump = ⟨starter.memory, starter.registers, told Event.packet? since⟩ ∧
        (∀ other recorder, .frame other (.start recorder) ∈ older ++ prior → recorder ≠ own) ∧
        (told (Event.packetThrough? own) since = dump.packets ↔
          ∀ through bytes, .packet through bytes ∈ since → through = own) ∧
        (m.ended = false → handler.number = starter.number) := by
  obtain ⟨hshot, hdumps⟩ := shot_of_course h hprior
  refine ⟨hdumps, fun later handler receiver dump before hfootage => ?_⟩
  rw [hfootage, List.append_assoc, List.cons_append] at hshot
  have hnone : recording prior = none := hprior.tells.dump ▸ hidle
  obtain ⟨since, starter, own, older, rfl, hsince, hdump⟩ :=
    recording_append hnone (expected_eq_finish hshot.expected)
  refine ⟨since, starter, own, older, rfl, hsince, hdump, fun other recorder hmem => ?_, ?_, fun hended => ?_⟩
  · have hall : Shot ((later ++ .frame handler (.finish receiver dump) :: since) ++
        .frame starter (.start own) :: (older ++ prior)) m.capture := by simpa using hshot
    exact hall.recorder_ne hmem
  · rw [hdump]
    exact told_packetThrough_iff own since
  · have hmatched := (Held.of_course h hended).1
    rw [hfootage] at hmatched
    have hfind : (since ++ .frame starter (.start own) :: older).find? Event.turns =
        some (.frame starter (.start own)) :=
      List.find?_eq_some_iff_append.mpr ⟨rfl, since, older, rfl, by simpa using hsince⟩
    exact hmatched.number hfind

/-- The graphics handler that a machine is given first, as new frames find it. -/
def firstScreen : Handler := ⟨1, [0x5a, 0x5a, 0x5a, 0x5a], [4660, 22136]⟩

/-- A packet that comes through the recorder while it is held. -/
theorem dump_unmixed_iff_own : ∃ passages m, Course Step (Scripted.bare {}) passages m ∧
    m.dumps = [(7, { firstScreen with packets := [[3]] })] ∧ m.ended = false ∧
    ∃ handler dump since starter own older, footage passages =
        .frame handler (.finish 7 dump) :: (since ++ .frame starter (.start own) :: older) ∧
      told (Event.packetThrough? own) since = dump.packets ∧ handler.number = starter.number := by
  have hstart : Course Step (Scripted.bare {}) [] (Scripted.bare {}) := .start
  have harmed := (hstart.step (.request _ (.attachGraphics Scripted.buildGraphics))).step
    (.request _ (.capture 7))
  have hrecording := ((harmed.step (.signal _ .frame)).step (.drain _)).step
    (.signal _ (.packet ⟨0⟩ [3]))
  have hfinished := (hrecording.step (.signal _ .frame)).step (.drain _)
  obtain ⟨hdumps, hall⟩ := dump_unmixed_iff .start rfl hfinished
  obtain ⟨since, starter, own, older, hbefore, -, -, -, hiff, hnumber⟩ :=
    hall [] firstScreen 7 { firstScreen with packets := [[3]] }
      [.packet ⟨0⟩ [3], .frame firstScreen (.start ⟨0⟩), .armed 7 true] rfl
  refine ⟨_, _, hfinished, rfl, rfl, _, _, since, starter, own, older, ?_, hiff.mpr ?_, hnumber rfl⟩
  · rw [← hbefore]
    rfl
  · obtain _ | ⟨e, _ | ⟨e', _ | ⟨e'', since⟩⟩⟩ := since <;> simp at hbefore
    obtain ⟨rfl, ⟨-, rfl⟩, -⟩ := hbefore
    rintro through bytes hmem
    obtain ⟨rfl, -⟩ := FrameCapture.Event.packet.inj (List.mem_singleton.mp hmem)
    rfl

/-- A machine that records its first screen. -/
def filming : Machine Scripted.console :=
  ((((Scripted.bare {}).serve (.attachGraphics Scripted.buildGraphics)).2.serve (.capture 7)).2.heed .frame).drainFrames

theorem course_filming : ∃ passages, Course Step (Scripted.bare {}) passages filming ∧
    footage passages = [.frame firstScreen (.start ⟨0⟩), .armed 7 true] := by
  have hstart : Course Step (Scripted.bare {}) [] (Scripted.bare {}) := .start
  have hattached := hstart.step (.request _ (.attachGraphics Scripted.buildGraphics))
  exact ⟨_, ((hattached.step (.request _ (.capture 7))).step (.signal _ .frame)).step (.drain _), rfl⟩

/-- The recorder of a handler that was detached, and whose recording was abandoned, adds to the recording of the next
handler: they share the capture. -/
theorem dump_mixed_through_stale : ∃ before m after m', Course Step (Scripted.bare {}) before m ∧
    footage before = [.frame firstScreen (.start ⟨0⟩), .armed 7 true] ∧ Course Step m after m' ∧ m'.ended = false ∧
    footage after = [.frame ⟨2, [1], []⟩ (.finish 7 ⟨[1], [], [[3]]⟩), .packet ⟨0⟩ [3],
      .frame ⟨2, [1], []⟩ (.start ⟨1⟩), .abandoned] := by
  obtain ⟨before, hrecording, hfootage⟩ := course_filming
  let second : Scripted.Conduct := { memory := [1], registers := [] }
  have hstart : Course Step filming [] filming := .start
  have hgone := (hstart.step (.request _ (.detach .graphics))).step (.elsewhere _ .empty second)
  have hbuilt := hgone.step (.request _ (.attachGraphics Scripted.buildGraphics))
  have hagain := (hbuilt.step (.signal _ .frame)).step (.drain _)
  have hmixed := ((hagain.step (.signal _ (.packet ⟨0⟩ [3]))).step (.signal _ .frame)).step (.drain _)
  exact ⟨before, filming, _, _, hrecording, hfootage, hmixed, rfl, rfl⟩

/-- A machine that is asked to switch off lets its graphics handler go, but not what it has recorded of a frame of that
handler: with a packet that comes through the handler's recorder afterwards, it is delivered at a frame of the next
handler, and holds what the first one showed. -/
theorem recording_outlives_handler : ∃ before m after m', Course Step (Scripted.bare {}) before m ∧
    footage before = [.frame firstScreen (.start ⟨0⟩), .armed 7 true] ∧
    (m.serve .terminate).2.devices.graphics = none ∧ Course Step (m.serve .terminate).2 after m' ∧
    footage after = [.frame ⟨2, [1], []⟩ (.finish 7 { firstScreen with packets := [[3]] }), .packet ⟨0⟩ [3]] := by
  obtain ⟨before, hrecording, hfootage⟩ := course_filming
  let second : Scripted.Conduct := { memory := [1], registers := [] }
  have hstart : Course Step (filming.serve .terminate).2 [] (filming.serve .terminate).2 := .start
  have hlate := (hstart.step (.elsewhere _ .empty second)).step (.signal _ (.packet ⟨0⟩ [3]))
  have hbuilt := hlate.step (.request _ (.attachGraphics Scripted.buildGraphics))
  have hdelivered := (hbuilt.step (.signal _ .frame)).step (.drain _)
  exact ⟨before, filming, _, _, hrecording, hfootage, rfl, hdelivered, rfl⟩

end Machine

end Tandem
