import Tandem.Proofs.Sound.FrameRing
import Tandem.Sound.Output

/-!
Frames on their way from the mixer to the device. Either side goes about its work at its own pace: while a batch
is offered to the ring, frame by frame, the device may take frames out of it to fill a buffer. Whatever comes of
that, each frame is accounted for.
-/
namespace Tandem

open FrameRing (Holds)

/-- A ring of which something is asked, and the queue that it is. -/
theorem FrameRing.Follows.exists_perform {r r' : FrameRing} {q : Queue} {a : Request} {answer : Answer}
    (h : Follows r q) (hr : r.perform a = (answer, r')) :
    ∃ q', Follows r' q' ∧
      q.frames ++ [answer].filterMap Answer.queued? = [answer].filterMap Answer.dequeued? ++ q'.frames := by
  obtain ⟨hanswer, hfollows⟩ := h.perform a
  have haccounts := (q.perform_accounts a).frames
  rw [hr] at hanswer hfollows
  rw [← hanswer] at haccounts
  exact ⟨_, hfollows, haccounts⟩

namespace Output

theorem start?_eq_ok {d : OutputDevice} {o : Output} {line : Log.Line} (h : start? (some d) = .ok (o, line)) :
    o = { channels := d.channels, format := d.format, ring := .ofMinimum (d.rate / 2), resampler := ⟨d.rate, 0⟩ } := by
  unfold start? at h
  dsimp only at h
  split at h
  all_goals cases h
  rfl

theorem recycle_fst (o : Output) : o.recycle.1 = { o with dropped := 0 } := by
  unfold recycle
  split
  next => rfl
  next h =>
    have hnone : o.dropped = 0 := Nat.eq_zero_of_not_pos h
    rw [← hnone]

/-- Offer one frame; what was refused before is only counted on. -/
def offer (count : Nat × FrameRing) (f : Frame) : Nat × FrameRing :=
  let (taken, ring) := count.2.write f
  (if taken then count.1 else count.1 + 1, ring)

theorem foldl_offer (frames : List Frame) (ring : FrameRing) (n : Nat) :
    frames.foldl offer (n, ring) = (n + (enqueue ring frames).1, (enqueue ring frames).2) := by
  induction frames generalizing ring n with
  | nil => rfl
  | cons f rest ih =>
    have henqueue : enqueue ring (f :: rest) = rest.foldl offer (offer (0, ring) f) := rfl
    rw [List.foldl_cons, henqueue, offer, offer, ih, ih]
    refine Prod.ext ?_ rfl
    dsimp only
    split <;> omega

theorem enqueue_cons (ring : FrameRing) (f : Frame) (rest : List Frame) :
    enqueue ring (f :: rest) =
      ((if (ring.write f).1 then 0 else 1) + (enqueue (ring.write f).2 rest).1, (enqueue (ring.write f).2 rest).2) :=
  foldl_offer rest _ _

/-- Of the frames offered in a row the ring takes the first ones, as many as there is room for, and refuses the
rest. -/
theorem holds_enqueue {ring : FrameRing} {gone : Nat} {queue : List Frame} (h : Holds ring gone queue)
    (frames : List Frame) :
    Holds (enqueue ring frames).2 gone (queue ++ frames.take (ring.capacity - queue.length)) ∧
    (enqueue ring frames).1 = frames.length - (ring.capacity - queue.length) := by
  induction frames generalizing ring queue with
  | nil =>
    rw [List.take_nil, List.append_nil]
    exact ⟨h, (Nat.zero_sub _).symm⟩
  | cons f rest ih =>
    rw [enqueue_cons]
    by_cases hroom : queue.length < ring.capacity
    · obtain ⟨ring', hwrite, hholds, -, hcapacity⟩ := h.write_of_room hroom f
      obtain ⟨hqueue, hcount⟩ := ih hholds
      obtain ⟨free, hfree⟩ : ∃ free, ring.capacity - queue.length = free + 1 := Nat.exists_eq_succ_of_ne_zero (by omega)
      have hlater : ring'.capacity - (queue ++ [f]).length = free := by
        rw [hcapacity, List.length_append, List.length_singleton]
        omega
      rw [hlater] at hqueue hcount
      rw [hwrite, hfree, List.take_succ_cons, List.length_cons, Nat.add_sub_add_right]
      exact ⟨by simpa using hqueue, by simpa using hcount⟩
    · have hfull : ring.capacity - queue.length = 0 := by omega
      obtain ⟨hqueue, hcount⟩ := ih h
      rw [hfull] at hqueue hcount ⊢
      rw [h.write_of_full (by have := h.room; omega)]
      refine ⟨hqueue, ?_⟩
      rw [hcount, List.length_cons]
      exact Nat.add_comm 1 _

end Output

/-- An output between two accesses to the ring. -/
structure Playback where
  output : Output
  /-- The batch being written: its frames that were not offered to the ring yet, and how many were refused. -/
  batch : Option (List Frame × Nat) := none
  /-- The buffer being filled: the sizes of the pieces that are still to be filled. -/
  buffer : Option (List Nat) := none

namespace Playback

/-- What happens at an output. -/
inductive Event
  /-- A batch comes, of which the resampler makes these frames. -/
  | begun (frames : List Frame)
  | offered (f : Frame) (taken : Bool)
  | written
  | recycled
  /-- The device asks for so many samples. -/
  | asked (n : Nat)
  /-- A frame for the device, or silence, which is counted. -/
  | heard (f : Frame) (counted : Bool)
  | filled (silences : Nat)
  deriving DecidableEq, Repr

open FrameRing

/-- The next access to the ring, from either side, and what is done around it. One batch is written at a time, and
nothing is recycled meanwhile. -/
inductive Step : Playback → Event → Playback → Prop
  | begin {o buffer} (samples : List Int16) (rate : Nat) {frames resampler}
      (h : o.resampler.run samples rate = (frames, resampler)) :
      Step ⟨o, none, buffer⟩ (.begun frames) ⟨{ o with resampler }, some (frames, 0), buffer⟩
  | offer {o buffer f rest refused taken ring} (h : o.ring.perform (.write f) = (.written f taken, ring)) :
      Step ⟨o, some (f :: rest, refused), buffer⟩ (.offered f taken)
        ⟨{ o with ring }, some (rest, if taken then refused else refused + 1), buffer⟩
  | finish {o buffer refused} :
      Step ⟨o, some ([], refused), buffer⟩ .written ⟨{ o with dropped := o.dropped + refused }, none, buffer⟩
  | recycle {o buffer} : Step ⟨o, none, buffer⟩ .recycled ⟨o.recycle.1, none, buffer⟩
  | ask {o batch} (n : Nat) (h : 0 < o.channels) :
      Step ⟨o, batch, none⟩ (.asked n) ⟨o, batch, some (Output.pieces n o.channels)⟩
  | hear {o batch size rest f counted ring} (h : o.ring.perform .next = (.heard f counted, ring)) :
      Step ⟨o, batch, some (size :: rest)⟩ (.heard f counted) ⟨{ o with ring }, batch, some rest⟩
  | fill {o batch silences ring} (h : o.ring.perform .takeUnderruns = (.underruns silences, ring)) :
      Step ⟨o, batch, some []⟩ (.filled silences) ⟨{ o with ring }, batch, none⟩

/-- What happens one thing after another, oldest first. -/
inductive Run (start : Playback) : List Event → Playback → Prop
  | start : Run start [] start
  | step {told s e s'} (before : Run start told s) (h : Step s e s') : Run start (told ++ [e]) s'

theorem Run.append {start s s' : Playback} {told later : List Event} (h : Run start told s) (h' : Run s later s') :
    Run start (told ++ later) s' := by
  induction h' with
  | start => rwa [List.append_nil]
  | step _ hs ih =>
    rw [← List.append_assoc]
    exact ih.step hs

theorem Run.cons {s s' s'' : Playback} {e : Event} {later : List Event} (h : Step s e s') (h' : Run s' later s'') :
    Run s (e :: later) s'' := (Run.start.step h).append h'

/-! ### What is told of frames -/

namespace Event

/-- The frames that the resampler emits. -/
def emitted : Event → List Frame
  | begun frames => frames
  | _ => []

def offered? : Event → Option Frame
  | offered f _ => some f
  | _ => none

/-- A frame that the ring has room for. -/
def queued? : Event → Option Frame
  | offered f true => some f
  | _ => none

def dropped? : Event → Option Frame
  | offered f false => some f
  | _ => none

/-- A frame that the device gets, unless it is a counted silence. -/
def delivered? : Event → Option Frame
  | heard f false => some f
  | _ => none

/-- A frame for the device, silence included. -/
def heard? : Event → Option Frame
  | heard f _ => some f
  | _ => none

/-- The frames dropped since the last recycling, if there were so many before this event. -/
def unrecycled (n : Nat) : Event → Nat
  | offered _ false => n + 1
  | recycled => 0
  | _ => n

end Event

/-- The frames of the batch being written that the ring has not been offered yet. -/
def pending (s : Playback) : List Frame := (s.batch.map Prod.fst).getD []

/-- The frames of that batch which the ring has refused. -/
def overflow (s : Playback) : Nat := (s.batch.map Prod.snd).getD 0

theorem length_offered (told : List Event) : (told.filterMap Event.offered?).length =
    (told.filterMap Event.queued?).length + (told.filterMap Event.dropped?).length := by
  induction told with
  | nil => rfl
  | cons e told ih =>
    cases e with
    | offered f taken =>
      cases taken with
      | true => exact (congrArg (· + 1) ih).trans (Nat.add_right_comm _ _ _)
      | false => exact congrArg (· + 1) ih
    | _ => exact ih

theorem queued_sublist_offered (told : List Event) :
    (told.filterMap Event.queued?).Sublist (told.filterMap Event.offered?) := by
  induction told with
  | nil => exact .slnil
  | cons e told ih =>
    cases e with
    | offered f taken =>
      cases taken with
      | true => exact ih.cons_cons f
      | false => exact ih.cons f
    | _ => exact ih

/-! ### The account -/

/-- What the story tells of an output whose ring holds the frames of a queue. -/
structure Accounts (told : List Event) (s : Playback) (q : Queue) : Prop where
  follows : Follows s.output.ring q
  queued : told.filterMap Event.queued? = told.filterMap Event.delivered? ++ q.frames
  offered : told.flatMap Event.emitted = told.filterMap Event.offered? ++ s.pending
  dropped : s.output.dropped + s.overflow = told.foldl Event.unrecycled 0

variable {told : List Event} {s s' : Playback} {q : Queue} {e : Event}

/-- One more event, which moves frames from one place to the next. -/
theorem Accounts.snoc {q' : Queue} (h : Accounts told s q) (hfollows : Follows s'.output.ring q')
    (hqueued : q.frames ++ [e].filterMap Event.queued? = [e].filterMap Event.delivered? ++ q'.frames)
    (hoffered : s.pending ++ e.emitted = [e].filterMap Event.offered? ++ s'.pending)
    (hdropped : s'.output.dropped + s'.overflow = e.unrecycled (s.output.dropped + s.overflow)) :
    Accounts (told ++ [e]) s' q' where
  follows := hfollows
  queued := by
    rw [List.filterMap_append, List.filterMap_append, h.queued, List.append_assoc, hqueued, List.append_assoc]
  offered := by
    rw [List.flatMap_append, List.filterMap_append, h.offered, List.flatMap_singleton, List.append_assoc, hoffered,
      List.append_assoc]
  dropped := by rw [List.foldl_append, ← h.dropped, hdropped, List.foldl_cons, List.foldl_nil]

theorem Accounts.step (h : Accounts told s q) (hs : Step s e s') : ∃ q', Accounts (told ++ [e]) s' q' := by
  cases hs with
  | begin samples rate hrun => exact ⟨q, h.snoc h.follows (List.append_nil _) rfl rfl⟩
  | @offer o buffer f rest refused taken ring hring =>
    obtain ⟨q', hfollows, hqueued⟩ := h.follows.exists_perform hring
    cases taken with
    | true => exact ⟨q', h.snoc hfollows hqueued (List.append_nil _) rfl⟩
    | false => exact ⟨q', h.snoc hfollows hqueued (List.append_nil _) rfl⟩
  | finish => exact ⟨q, h.snoc h.follows (List.append_nil _) rfl rfl⟩
  | @recycle o buffer =>
    rw [Output.recycle_fst]
    exact ⟨q, h.snoc h.follows (List.append_nil _) rfl rfl⟩
  | ask n hc => exact ⟨q, h.snoc h.follows (List.append_nil _) (List.append_nil _) rfl⟩
  | @hear o batch size rest f counted ring hring =>
    obtain ⟨q', hfollows, hqueued⟩ := h.follows.exists_perform hring
    cases counted with
    | true => exact ⟨q', h.snoc hfollows hqueued (List.append_nil _) rfl⟩
    | false => exact ⟨q', h.snoc hfollows hqueued (List.append_nil _) rfl⟩
  | fill hring =>
    obtain ⟨q', hfollows, hqueued⟩ := h.follows.exists_perform hring
    exact ⟨q', h.snoc hfollows hqueued (List.append_nil _) rfl⟩

theorem Accounts.run {start : Playback} (hstart : Accounts [] start q) (h : Run start told s) :
    ∃ q', Accounts told s q' := by
  induction h with
  | start => exact ⟨q, hstart⟩
  | step _ hs ih =>
    obtain ⟨q', haccounts⟩ := ih
    exact haccounts.step hs

/-! ### Whole operations -/

section Whole

variable (o : Output) (batch : Option (List Frame × Nat)) (buffer : Option (List Nat))

theorem run_offers (frames : List Frame) (refused : Nat) :
    ∃ told, Run ⟨o, some (frames, refused), buffer⟩ told
        ⟨{ o with ring := (Output.enqueue o.ring frames).2 },
          some ([], refused + (Output.enqueue o.ring frames).1), buffer⟩ ∧
      told.flatMap Event.emitted = [] := by
  induction frames generalizing o refused with
  | nil => exact ⟨[], .start, rfl⟩
  | cons f rest ih =>
    have hoffer : Step ⟨o, some (f :: rest, refused), buffer⟩ (.offered f (o.ring.write f).1)
        ⟨{ o with ring := (o.ring.write f).2 }, some (rest, if (o.ring.write f).1 then refused else refused + 1),
          buffer⟩ := .offer rfl
    obtain ⟨told, hrun, hemitted⟩ := ih { o with ring := (o.ring.write f).2 }
      (if (o.ring.write f).1 then refused else refused + 1)
    have hcount : (if (o.ring.write f).1 then refused else refused + 1) + (Output.enqueue (o.ring.write f).2 rest).1 =
        refused + (Output.enqueue o.ring (f :: rest)).1 := by
      rw [Output.enqueue_cons]
      dsimp only
      split <;> omega
    rw [hcount] at hrun
    refine ⟨_ :: told, .cons hoffer ?_, hemitted⟩
    rw [Output.enqueue_cons] at hrun ⊢
    exact hrun

/-- A batch that nobody interrupts is written as a whole. -/
theorem run_write (samples : List Int16) (rate : Nat) :
    ∃ told, Run ⟨o, none, buffer⟩ told ⟨o.write samples rate, none, buffer⟩ ∧
      told.flatMap Event.emitted = (o.resampler.run samples rate).1 := by
  have hbegin : Step ⟨o, none, buffer⟩ (.begun (o.resampler.run samples rate).1)
      ⟨{ o with resampler := (o.resampler.run samples rate).2 }, some ((o.resampler.run samples rate).1, 0), buffer⟩ :=
    .begin samples rate rfl
  obtain ⟨told, hrun, hemitted⟩ := run_offers { o with resampler := (o.resampler.run samples rate).2 } buffer
    (o.resampler.run samples rate).1 0
  have hfinish := hrun.step .finish
  rw [Nat.zero_add] at hfinish
  refine ⟨_, .cons hbegin hfinish, ?_⟩
  simp [List.flatMap_append, hemitted, Event.emitted]

/-- Samples of the frames that are heard, each on as many channels as its piece has. -/
def heardSamples (format : SampleFormat) (sizes : List Nat) (told : List Event) : List Int :=
  ((told.filterMap Event.heard?).zip sizes).flatMap fun (f, size) => Output.spread format f size

theorem run_fills (format : SampleFormat) (sizes : List Nat) (out : List Int) :
    ∃ told, Run ⟨o, batch, some sizes⟩ told
        ⟨{ o with ring := (Output.fill format o.ring sizes out).2 }, batch, some []⟩ ∧
      (Output.fill format o.ring sizes out).1.reverse = out.reverse ++ heardSamples format sizes told := by
  induction sizes generalizing o out with
  | nil => exact ⟨[], .start, (List.append_nil _).symm⟩
  | cons size rest ih =>
    have hhear : Step ⟨o, batch, some (size :: rest)⟩
        (.heard o.ring.next.1 (o.ring.underruns < o.ring.next.2.underruns))
        ⟨{ o with ring := o.ring.next.2 }, batch, some rest⟩ := .hear rfl
    obtain ⟨told, hrun, hout⟩ := ih { o with ring := o.ring.next.2 }
      ((Output.spread format o.ring.next.1 size).reverse ++ out)
    refine ⟨_, .cons hhear hrun, ?_⟩
    rw [List.reverse_append, List.reverse_reverse, List.append_assoc] at hout
    exact hout

/-- A buffer that is filled without a frame being offered meanwhile is filled as a whole. -/
theorem run_pull (hc : 0 < o.channels) (n : Nat) :
    ∃ out lines o' told, o.pull n = .ok (out, lines, o') ∧ Run ⟨o, batch, none⟩ told ⟨o', batch, none⟩ ∧
      out = heardSamples o.format (Output.pieces n o.channels) told := by
  obtain ⟨told, hrun, hout⟩ := run_fills o batch o.format (Output.pieces n o.channels) []
  have hfill := hrun.step (.fill rfl)
  rw [Output.pull, if_neg (Nat.ne_of_gt hc)]
  refine ⟨_, _, _, _, rfl, .cons (.ask n hc) hfill, ?_⟩
  rw [heardSamples, List.filterMap_cons_none rfl, List.filterMap_append, List.filterMap_cons_none rfl,
    List.filterMap_nil, List.append_nil]
  exact hout

end Whole

theorem Step.channels (hs : Step s e s') : s'.output.channels = s.output.channels := by
  cases hs with
  | recycle => rw [Output.recycle_fst]
  | _ => rfl

theorem Run.channels {start : Playback} (h : Run start told s) : s.output.channels = start.output.channels := by
  induction h with
  | start => rfl
  | step _ hs ih => rw [hs.channels, ih]

/-- However an output that was opened on a device takes its turns with the device, each frame that the resampler
emits is delivered, queued, dropped, or still to be offered, and the frames delivered are among those emitted, in
order. Between two batches the counter tells how many were dropped since the last recycling. A batch written in
one go fills the ring behind what is queued already, as far as there is room, and the rest of it is dropped.
Batches written, recycling and buffers filled in one go are among the runs accounted for, and such a buffer holds
the frames that are heard. -/
theorem frames_accounted {d : OutputDevice} {o : Output} {line : Log.Line}
    (hopen : Output.start? (some d) = .ok (o, line)) (hrate : d.rate < 2 ^ 32) (hchannels : 1 ≤ d.channels)
    (h : Run { output := o } told s) :
    ((told.flatMap Event.emitted).length = (told.filterMap Event.delivered?).length + s.output.ring.queued +
      (told.filterMap Event.dropped?).length + s.pending.length) ∧
    (told.filterMap Event.delivered?).Sublist (told.flatMap Event.emitted) ∧
    (s.batch = none → s.pending = [] ∧ s.output.dropped = told.foldl Event.unrecycled 0) ∧
    (∃ gone queue, Holds s.output.ring gone queue ∧
      told.filterMap Event.queued? = told.filterMap Event.delivered? ++ queue ∧
      ∀ samples rate,
        Holds (s.output.write samples rate).ring gone
          (queue ++ (s.output.resampler.run samples rate).1.take s.output.ring.free) ∧
        (s.output.write samples rate).dropped =
          s.output.dropped + ((s.output.resampler.run samples rate).1.length - s.output.ring.free)) ∧
    (s.batch = none →
      (∀ samples rate, ∃ later, Run s later { s with output := s.output.write samples rate } ∧
        later.flatMap Event.emitted = (s.output.resampler.run samples rate).1) ∧
      Run s [.recycled] { s with output := s.output.recycle.1 }) ∧
    (s.buffer = none → ∀ n, ∃ out lines o' later,
      s.output.pull n = .ok (out, lines, o') ∧ Run s later { s with output := o' } ∧
      out = heardSamples s.output.format (Output.pieces n s.output.channels) later) := by
  have ho := Output.start?_eq_ok hopen
  have hstart : Accounts [] { output := o } { capacity := capacityFor (d.rate / 2) } := by
    rw [ho]
    exact ⟨.ofMinimum (by omega), rfl, rfl, rfl⟩
  have hchannels' : 0 < s.output.channels := by
    rw [h.channels, ho]
    exact hchannels
  obtain ⟨q, haccounts⟩ := hstart.run h
  have hqueued := haccounts.follows.queued_eq
  obtain ⟨gone, hholds⟩ := haccounts.follows.holds
  obtain ⟨output, batch, buffer⟩ := s
  refine ⟨?_, ?_, ?_, ⟨gone, q.frames, hholds, haccounts.queued, ?_⟩, ?_, ?_⟩
  · have hemitted := congrArg List.length haccounts.offered
    have hlength := congrArg List.length haccounts.queued
    rw [List.length_append] at hemitted hlength
    rw [hemitted, length_offered, hlength, hqueued]
  · have hdelivered : (told.filterMap Event.delivered?).Sublist (told.filterMap Event.queued?) :=
      haccounts.queued ▸ List.sublist_append_left _ _
    have hoffered : (told.filterMap Event.offered?).Sublist (told.flatMap Event.emitted) :=
      haccounts.offered ▸ List.sublist_append_left _ _
    exact hdelivered.trans ((queued_sublist_offered told).trans hoffered)
  · rintro rfl
    exact ⟨rfl, haccounts.dropped⟩
  · intro samples rate
    obtain ⟨hqueue, hcount⟩ := Output.holds_enqueue hholds (output.resampler.run samples rate).1
    rw [FrameRing.free, hqueued]
    exact ⟨hqueue, congrArg (output.dropped + ·) hcount⟩
  · rintro rfl
    exact ⟨run_write output buffer, Run.start.step .recycle⟩
  · rintro rfl n
    exact run_pull output batch hchannels' n

/-- A ring of two frames, of which the device takes one while a batch of four is written: the third is dropped, and
there is room for the fourth again. -/
theorem frames_accounted_interrupted :
    ∃ o line s, (Output.start? (some ⟨4, 2, .signed16, none, none, none⟩) = .ok (o, line) ∧ 4 < 2 ^ 32 ∧ 1 ≤ 2 ∧
      Run { output := o } [.begun [⟨1, 2⟩, ⟨3, 4⟩, ⟨5, 6⟩, ⟨7, 8⟩], .offered ⟨1, 2⟩ true, .offered ⟨3, 4⟩ true,
        .offered ⟨5, 6⟩ false, .asked 2, .heard ⟨1, 2⟩ false, .offered ⟨7, 8⟩ true, .written, .filled 0] s) ∧
      s.output.ring.queued = 2 ∧ s.output.dropped = 1 := by
  obtain ⟨o, line, hopen⟩ : ∃ o line, Output.start? (some ⟨4, 2, .signed16, none, none, none⟩) = .ok (o, line) :=
    ⟨_, _, rfl⟩
  obtain ⟨s, hrun, hbetween⟩ : ∃ s, Run { output := o } [.begun [⟨1, 2⟩, ⟨3, 4⟩, ⟨5, 6⟩, ⟨7, 8⟩],
      .offered ⟨1, 2⟩ true, .offered ⟨3, 4⟩ true, .offered ⟨5, 6⟩ false, .asked 2, .heard ⟨1, 2⟩ false,
      .offered ⟨7, 8⟩ true, .written, .filled 0] s ∧ s.batch = none := by
    cases hopen
    exact ⟨_, .cons (.begin [1, 2, 3, 4, 5, 6, 7, 8] 4 rfl) <| .cons (.offer rfl) <| .cons (.offer rfl) <|
      .cons (.offer rfl) <| .cons (.ask 2 (by decide)) <| .cons (.hear rfl) <| .cons (.offer rfl) <| .cons .finish <|
      .cons (.fill rfl) .start, rfl⟩
  obtain ⟨hcount, -, hcounter, -⟩ := frames_accounted hopen (by decide) (by decide) hrun
  obtain ⟨hpending, hdropped⟩ := hcounter hbetween
  have hqueued : 4 = 1 + s.output.ring.queued + 1 + s.pending.length := hcount
  rw [hpending, List.length_nil] at hqueued
  exact ⟨o, line, s, ⟨hopen, by decide, by decide, hrun⟩, by omega, hdropped⟩

end Playback

end Tandem
