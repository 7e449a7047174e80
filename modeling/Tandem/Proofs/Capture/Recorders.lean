import Tandem.Proofs.Capture.Recording

/-!
Where the packets of a dump come from. There is one place for packets, and every recorder that was ever
handed out leads there, so that a dump has all that was recorded from the start of its recording to its end.
-/
namespace Tandem.FrameCapture

variable {κ : Type} {events : List (Event κ)} {c : FrameCapture κ}

/-- How a capture came to be what it is, newest first, whatever is left to do to others. -/
inductive Shot : List (Event κ) → FrameCapture κ → Prop
  | start : Shot [] {}
  | step {events c due e c' due'} (before : Shot events c) (h : Step ⟨c, due⟩ e ⟨c', due'⟩) :
      Shot (e :: events) c'

namespace Event

/-- A packet that comes through a recorder. -/
def packetThrough? (own : Recorder) : Event κ → Option Bytes
  | .packet through bytes => if through = own then some bytes else none
  | _ => none

/-- A dump, and where it goes. -/
def finished? : Event κ → Option (κ × FrameDump)
  | .frame _ (.finish receiver dump) => some (receiver, dump)
  | _ => none

end Event

namespace Shot

theorem tells (h : Shot events c) : Tells events c := by
  induction h with
  | start => exact .start
  | step _ hs ih => exact ih.step hs

theorem split {later before : List (Event κ)} {e : Event κ} (h : Shot (later ++ e :: before) c) :
    ∃ c₁ due c₂ due', Shot before c₁ ∧ Step ⟨c₁, due⟩ e ⟨c₂, due'⟩ := by
  induction later generalizing c with
  | nil =>
    cases h with
    | step before hs => exact ⟨_, _, _, _, before, hs⟩
  | cons _ later ih =>
    cases h with
    | step before _ => exact ih before

/-- Each new frame comes to what was to be expected. -/
theorem expected {later before : List (Event κ)} {handler : Handler} {outcome : Outcome κ}
    (h : Shot (later ++ .frame handler outcome :: before) c) :
    outcome = FrameCapture.expected before := by
  obtain ⟨_, _, _, _, hbefore, hs⟩ := h.split
  have ht := hbefore.tells
  cases hs
  exact (ht.newFrame handler).1

end Shot

theorem expected_eq_start {own : Recorder} (h : Outcome.start own = expected events) :
    own = ⟨events.countP Event.starts⟩ := by
  unfold expected at h
  split at h
  · cases h
  · exact Outcome.start.inj h
  · cases h
  · split at h <;> cases h

theorem expected_eq_finish {receiver : κ} {dump : FrameDump}
    (h : Outcome.finish receiver dump = expected events) : recording events = some dump := by
  unfold expected at h
  split at h
  · cases h
  · cases h
  · cases h
  next hrecording _ =>
    split at h
    · cases h
    · obtain ⟨_, rfl⟩ := Outcome.finish.inj h
      exact hrecording

/-- A recording under way goes back to its start, and has been neither finished nor abandoned since. -/
theorem recording_append {prior : List (Event κ)} {dump : FrameDump} (hidle : recording prior = none)
    (h : recording (events ++ prior) = some dump) :
    ∃ since starter own older, events = since ++ .frame starter (.start own) :: older ∧
      (∀ e ∈ since, e.turns = false) ∧
      dump = ⟨starter.memory, starter.registers, told Event.packet? since⟩ := by
  unfold recording at h
  split at h
  next starter own hfind =>
    rw [List.find?_append] at hfind
    cases hevents : events.find? Event.turns with
    | none =>
      rw [hevents, Option.none_or] at hfind
      rw [recording, hfind] at hidle
      cases hidle
    | some e =>
      rw [hevents] at hfind
      obtain rfl := Option.some.inj hfind
      obtain ⟨-, since, older, rfl, hsince⟩ := List.find?_eq_some_iff_append.mp hevents
      have hkept : ∀ e ∈ since, e.turns = false := fun e he => by simpa using hsince e he
      have htaken : (since ++ Event.frame starter (.start own) :: older ++ prior).takeWhile
          (fun e => !e.turns) = since := by
        rw [List.append_assoc, List.takeWhile_append_of_pos (by simpa using hkept), List.cons_append,
          List.takeWhile_cons_of_neg (by simp [Event.turns]), List.append_nil]
      refine ⟨since, starter, own, older, rfl, hkept, ?_⟩
      obtain rfl := Option.some.inj h
      rw [packets, htaken]
  · cases h

/-- No recorder is handed out twice. -/
theorem Shot.recorder_ne {later older : List (Event κ)} {starter other : Handler}
    {own recorder : Recorder} (h : Shot (later ++ .frame starter (.start own) :: older) c)
    (ho : .frame other (.start recorder) ∈ older) : recorder ≠ own := by
  obtain ⟨between, oldest, rfl⟩ := List.append_of_mem ho
  have hown := expected_eq_start h.expected
  have hall : Shot ((later ++ .frame starter (.start own) :: between) ++
      .frame other (.start recorder) :: oldest) c := by rwa [List.append_assoc, List.cons_append]
  have hrecorder := expected_eq_start hall.expected
  rintro rfl
  rw [hrecorder] at hown
  have hcount := Recorder.mk.inj hown
  rw [List.countP_append, List.countP_cons_of_pos rfl] at hcount
  omega

theorem packetThrough_sublist (own : Recorder) (events : List (Event κ)) :
    (events.filterMap (Event.packetThrough? own)).Sublist (events.filterMap Event.packet?) := by
  induction events with
  | nil => exact .slnil
  | cons e events ih =>
    cases e with
    | packet through bytes =>
      by_cases h : through = own
      · simpa [Event.packetThrough?, Event.packet?, h] using ih
      · simpa [Event.packetThrough?, Event.packet?, h] using ih.cons bytes
    | _ => exact ih

/-- All packets came through one recorder just if none came through another. -/
theorem told_packetThrough_iff (own : Recorder) (events : List (Event κ)) :
    told (Event.packetThrough? own) events = told Event.packet? events ↔
      ∀ through bytes, .packet through bytes ∈ events → through = own := by
  rw [told, told, List.reverse_inj]
  induction events with
  | nil => simp
  | cons e events ih =>
    cases e with
    | packet through bytes =>
      by_cases h : through = own
      · simp only [Event.packetThrough?, Event.packet?, h, if_true, List.filterMap_cons, List.cons.injEq,
          true_and, ih, List.mem_cons, Event.packet.injEq]
        constructor
        · rintro hall t b (⟨rfl, rfl⟩ | hmem)
          · rfl
          · exact hall t b hmem
        · exact fun hall t b hmem => hall t b (.inr hmem)
      · -- There is one packet too few.
        have hshort := (packetThrough_sublist own events).length_le
        constructor
        · intro heq
          have hlength := congrArg List.length heq
          simp only [Event.packetThrough?, Event.packet?, h, if_false, List.filterMap_cons,
            List.length_cons] at hlength
          omega
        · exact fun hall => absurd (hall through bytes List.mem_cons_self) h
    | armed | abandoned | frame | done =>
      rw [List.filterMap_cons_none rfl, List.filterMap_cons_none rfl]
      simpa using ih

end Tandem.FrameCapture
