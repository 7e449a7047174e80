import Mathlib.Data.Nat.ModEq
import Mathlib.Order.Bounds.Defs
import Tandem.Sound.FrameRing

/-!
A ring of frames is a queue with so many places. Positions may wrap: only what they are modulo the
capacity matters, and how far they are apart.
-/
namespace Tandem

theorem Frame.unpack_pack (f : Frame) : unpack f.pack = f := by
  have hleft := f.left.toUInt16.toNat_lt
  have hright := f.right.toUInt16.toNat_lt
  have hsixteen : (16 : UInt32).toNat % 32 = 16 := rfl
  have hword : f.pack.toNat = f.left.toUInt16.toNat * 65536 + f.right.toUInt16.toNat := by
    have hor := Nat.shiftLeft_add_eq_or_of_lt hright f.left.toUInt16.toNat
    have hshift : f.left.toUInt16.toNat <<< 16 % 2 ^ 32 = f.left.toUInt16.toNat <<< 16 := by
      rw [Nat.shiftLeft_eq]
      omega
    rw [pack, UInt32.toNat_or, UInt32.toNat_shiftLeft, UInt16.toNat_toUInt32, UInt16.toNat_toUInt32,
      hsixteen, hshift, ← hor, Nat.shiftLeft_eq]
  have hl : (f.pack >>> 16).toUInt16 = f.left.toUInt16 := by
    apply UInt16.toNat_inj.mp
    rw [UInt32.toNat_toUInt16, UInt32.toNat_shiftRight, hword, hsixteen, Nat.shiftRight_eq_div_pow]
    omega
  have hr : f.pack.toUInt16 = f.right.toUInt16 := by
    apply UInt16.toNat_inj.mp
    rw [UInt32.toNat_toUInt16, hword]
    omega
  rw [unpack, hl, hr, Int16.toInt16_toUInt16, Int16.toInt16_toUInt16]

namespace FrameRing

/-! ### Capacities -/

theorem capacityFor_eq (n : Nat) : capacityFor n = 2 ^ ((max n 2 - 1).log2 + 1) := Nat.one_shiftLeft _

theorem le_capacityFor (n : Nat) : max n 2 ≤ capacityFor n := by
  have h : max n 2 - 1 < 2 ^ ((max n 2 - 1).log2 + 1) := Nat.lt_log2_self
  rw [capacityFor_eq]
  omega

/-- No smaller power of two has room for so many frames. -/
theorem capacityFor_le {n k : Nat} (h : max n 2 ≤ 2 ^ k) : capacityFor n ≤ 2 ^ k := by
  have hlog : (max n 2 - 1).log2 < k := (Nat.log2_lt (by omega)).mpr (by omega)
  rw [capacityFor_eq]
  exact Nat.pow_le_pow_right (by decide) hlog

/-- Positions designate the slots of so large a ring, and keep their meaning when they wrap. -/
structure Addressable (capacity : Nat) : Prop where
  pos : 0 < capacity
  small : capacity < UInt64.size
  divides : capacity ∣ UInt64.size

theorem addressable_capacityFor {n : Nat} (h : n ≤ 2 ^ 63) : Addressable (capacityFor n) := by
  have hle : capacityFor n ≤ 2 ^ 63 := capacityFor_le (by omega)
  rw [capacityFor_eq] at hle ⊢
  have hlog := (Nat.pow_le_pow_iff_right (by decide)).mp hle
  refine ⟨Nat.two_pow_pos _, Nat.lt_of_le_of_lt hle (by decide), ?_⟩
  exact Nat.pow_dvd_pow 2 (Nat.le_succ_of_le hlog)

/-- A mask does as well as a division. -/
theorem slot_eq_and {r : FrameRing} {k : Nat} (h : r.capacity = 2 ^ k) (position : UInt64) :
    r.slot position = position.toNat &&& (r.capacity - 1) := by
  rw [slot, h, Nat.and_two_pow_sub_one_eq_mod]

/-! ### The frames in a ring -/

/-- Slots that are less than the whole ring apart are different. -/
theorem slot_ne {gone i j c : Nat} (hij : i < j) (hj : j < c) : (gone + i) % c ≠ (gone + j) % c := by
  intro heq
  have hmod : i % c = j % c := Nat.ModEq.add_left_cancel' gone heq
  rw [Nat.mod_eq_of_lt (Nat.lt_trans hij hj), Nat.mod_eq_of_lt hj] at hmod
  omega

/-- The ring holds these frames, and so many have been read before them. -/
structure Holds (r : FrameRing) (gone : Nat) (frames : List Frame) : Prop where
  read : r.read = UInt64.ofNat gone
  written : r.written = UInt64.ofNat (gone + frames.length)
  room : frames.length ≤ r.capacity
  slots : ∀ i f, frames[i]? = some f → r.slots[(gone + i) % r.capacity]? = some f.pack
  addressable : Addressable r.capacity

namespace Holds

variable {r : FrameRing} {gone n : Nat} {f : Frame} {frames : List Frame}

theorem ofMinimum (h : n ≤ 2 ^ 63) : Holds (.ofMinimum n) 0 [] := by
  have hcapacity : (FrameRing.ofMinimum n).capacity = capacityFor n := Array.size_replicate
  refine ⟨rfl, rfl, Nat.zero_le _, by simp, ?_⟩
  rw [hcapacity]
  exact addressable_capacityFor h

theorem queued_eq (h : Holds r gone frames) : r.queued = frames.length := by
  have hlen : frames.length < UInt64.size := Nat.lt_of_le_of_lt h.room h.addressable.small
  rw [queued, h.written, h.read, UInt64.ofNat_add, UInt64.add_comm, UInt64.add_sub_cancel,
    UInt64.toNat_ofNat_of_lt' hlen]

theorem slot_eq (h : Holds r gone frames) (i : Nat) :
    r.slot (UInt64.ofNat (gone + i)) = (gone + i) % r.capacity := by
  rw [slot, UInt64.toNat_ofNat']
  exact Nat.mod_mod_of_dvd _ h.addressable.divides

theorem write_of_full (h : Holds r gone frames) (hfull : frames.length = r.capacity) (f : Frame) :
    r.write f = (false, r) := by
  rw [write, if_pos (h.queued_eq.trans hfull)]

theorem write_of_room (h : Holds r gone frames) (hroom : frames.length < r.capacity) (f : Frame) :
    ∃ r', r.write f = (true, r') ∧ Holds r' gone (frames ++ [f]) ∧ r'.underruns = r.underruns ∧
      r'.capacity = r.capacity := by
  let r' : FrameRing :=
    { r with slots := r.slots.setIfInBounds (r.slot r.written) f.pack, written := r.written + 1 }
  have hwrite : r.write f = (true, r') := by
    have hfree : ¬ r.queued = r.capacity := by
      rw [h.queued_eq]
      omega
    rw [write, if_neg hfree]
  have hcapacity : r'.capacity = r.capacity := Array.size_setIfInBounds
  have hslot : r.slot r.written = (gone + frames.length) % r.capacity := by
    rw [h.written, h.slot_eq]
  have hslots : r'.slots = r.slots.setIfInBounds ((gone + frames.length) % r.capacity) f.pack := by
    rw [← hslot]
  have hwritten : r.written + 1 = UInt64.ofNat (gone + (frames.length + 1)) := by
    rw [h.written, ← Nat.add_assoc, UInt64.ofNat_add _ 1]
    rfl
  refine ⟨r', hwrite, ⟨h.read, ?_, ?_, ?_, ?_⟩, rfl, hcapacity⟩
  · rw [List.length_append, List.length_singleton]
    exact hwritten
  · rw [hcapacity, List.length_append, List.length_singleton]
    exact hroom
  · intro i g hg
    -- The frame is one of those already there, in another slot, or the new one.
    rw [hcapacity, hslots]
    by_cases hi : i < frames.length
    · rw [Array.getElem?_setIfInBounds_ne (slot_ne hi hroom).symm]
      rw [List.getElem?_append_left hi] at hg
      exact h.slots i g hg
    · rw [List.getElem?_append_right (by omega), List.getElem?_singleton] at hg
      obtain ⟨hend, ⟨⟩⟩ := Option.ite_none_right_eq_some.mp hg
      obtain rfl : i = frames.length := by omega
      exact Array.getElem?_setIfInBounds_self_of_lt (Nat.mod_lt _ h.addressable.pos)
  · rw [hcapacity]
    exact h.addressable

theorem next_of_nil (h : Holds r gone []) :
    r.next = (.silence, { r with underruns := r.underruns + 1 }) := by
  have hempty : r.read = r.written := by
    rw [h.read, h.written]
    rfl
  rw [next, if_pos hempty]

theorem next_of_cons (h : Holds r gone (f :: frames)) :
    ∃ r', r.next = (f, r') ∧ Holds r' (gone + 1) frames ∧ r'.underruns = r.underruns ∧
      r'.capacity = r.capacity := by
  have hslot : r.slot r.read = gone % r.capacity := by
    rw [h.read]
    exact h.slot_eq 0
  have hoccupied : ¬ r.read = r.written := by
    intro heq
    have hqueued := h.queued_eq
    rw [queued, heq, UInt64.sub_self] at hqueued
    cases hqueued
  have hfirst : r.slots[r.slot r.read]? = some f.pack := by
    rw [hslot]
    exact h.slots 0 f rfl
  have hnext : r.next = (f, { r with read := r.read + 1 }) := by
    rw [next, if_neg hoccupied, Array.getD_eq_getD_getElem?, hfirst, Option.getD_some,
      Frame.unpack_pack]
  refine ⟨_, hnext, ⟨?_, ?_, ?_, ?_, h.addressable⟩, rfl, rfl⟩
  · rw [h.read, UInt64.ofNat_add]
    rfl
  · rw [h.written, List.length_cons]
    congr 1
    omega
  · exact Nat.le_of_succ_le h.room
  · intro i g hg
    rw [Nat.add_assoc, Nat.add_comm 1 i]
    exact h.slots (i + 1) g hg

end Holds

/-! ### Requests -/

/-- What is asked of a ring, or of a queue. -/
inductive Request
  | write (f : Frame)
  | next
  | takeUnderruns
  deriving DecidableEq, Repr

inductive Answer
  /-- The frame was queued, or there was no room for it. -/
  | written (f : Frame) (queued : Bool)
  /-- A frame to be heard, and whether it was counted as a silence. -/
  | heard (f : Frame) (counted : Bool)
  | underruns (n : Nat)
  deriving DecidableEq, Repr

/-- The answers to requests made one after another, and the state that they leave behind. -/
def answers {σ : Type} (perform : σ → Request → Answer × σ) : σ → List Request → List Answer × σ
  | s, [] => ([], s)
  | s, a :: requests =>
    let (answer, s') := perform s a
    let (later, s'') := answers perform s' requests
    (answer :: later, s'')

def perform (r : FrameRing) : Request → Answer × FrameRing
  | .write f => let (queued, r') := r.write f; (.written f queued, r')
  | .next => let (f, r') := r.next; (.heard f (r.underruns < r'.underruns), r')
  | .takeUnderruns => let (n, r') := r.takeUnderruns; (.underruns n, r')

/-- A queue with so many places. -/
structure Queue where
  capacity : Nat
  frames : List Frame := []
  underruns : Nat := 0

namespace Queue

def perform (q : Queue) : Request → Answer × Queue
  | .write f =>
    if q.frames.length < q.capacity then (.written f true, { q with frames := q.frames ++ [f] })
    else (.written f false, q)
  | .next =>
    match q.frames with
    | [] => (.heard .silence true, { q with underruns := q.underruns + 1 })
    | f :: frames => (.heard f false, { q with frames })
  | .takeUnderruns => (.underruns q.underruns, { q with underruns := 0 })

end Queue

namespace Answer

def queued? : Answer → Option Frame
  | .written f true => some f
  | _ => none

/-- The frame that was heard, unless it is a counted silence. -/
def dequeued? : Answer → Option Frame
  | .heard f false => some f
  | _ => none

/-- The silences that nobody has asked about yet, if there were so many before this answer. -/
def unasked (n : Nat) : Answer → Nat
  | .heard _ true => n + 1
  | .underruns _ => 0
  | _ => n

end Answer

/-! ### A ring is a queue -/

/-- A ring that holds what is in a queue. -/
structure Follows (r : FrameRing) (q : Queue) : Prop where
  holds : ∃ gone, Holds r gone q.frames
  capacity : r.capacity = q.capacity
  underruns : r.underruns = q.underruns

namespace Follows

variable {r : FrameRing} {q : Queue}

theorem ofMinimum {n : Nat} (h : n ≤ 2 ^ 63) :
    Follows (.ofMinimum n) { capacity := capacityFor n } where
  holds := ⟨0, .ofMinimum h⟩
  capacity := Array.size_replicate
  underruns := rfl

theorem perform (h : Follows r q) (a : Request) :
    (r.perform a).1 = (q.perform a).1 ∧ Follows (r.perform a).2 (q.perform a).2 := by
  obtain ⟨gone, hholds⟩ := h.holds
  cases a with
  | write f =>
    by_cases hroom : q.frames.length < q.capacity
    · obtain ⟨r', hwrite, hholds', hunderruns, hcapacity⟩ :=
        hholds.write_of_room (by rw [h.capacity]; exact hroom) f
      simp only [FrameRing.perform, hwrite, Queue.perform, if_pos hroom]
      exact ⟨trivial, ⟨gone, hholds'⟩, hcapacity.trans h.capacity, hunderruns.trans h.underruns⟩
    · have hfull : q.frames.length = r.capacity := by
        have hle := hholds.room
        have hcapacity := h.capacity
        omega
      simp only [FrameRing.perform, hholds.write_of_full hfull, Queue.perform, if_neg hroom]
      exact ⟨trivial, h⟩
  | next =>
    match hframes : q.frames with
    | [] =>
      rw [hframes] at hholds
      simp only [FrameRing.perform, hholds.next_of_nil, Queue.perform, hframes]
      exact ⟨by simp, ⟨gone, { hholds with }⟩, h.capacity, congrArg (· + 1) h.underruns⟩
    | f :: frames =>
      rw [hframes] at hholds
      obtain ⟨r', hnext, hholds', hunderruns, hcapacity⟩ := hholds.next_of_cons
      simp only [FrameRing.perform, hnext, Queue.perform, hframes, hunderruns]
      exact ⟨by simp, ⟨gone + 1, hholds'⟩, hcapacity.trans h.capacity, hunderruns.trans h.underruns⟩
  | takeUnderruns =>
    simp only [FrameRing.perform, takeUnderruns, Queue.perform, h.underruns]
    exact ⟨trivial, ⟨gone, { hholds with }⟩, h.capacity, rfl⟩

theorem answers (requests : List Request) (h : Follows r q) :
    (answers FrameRing.perform r requests).1 = (FrameRing.answers Queue.perform q requests).1 ∧
      Follows (FrameRing.answers FrameRing.perform r requests).2
        (FrameRing.answers Queue.perform q requests).2 := by
  -- Over the requests, for any ring and queue that hold the same.
  induction requests generalizing r q with
  | nil => exact ⟨rfl, h⟩
  | cons a requests ih =>
    obtain ⟨hanswer, h'⟩ := h.perform a
    obtain ⟨hlater, h''⟩ := ih h'
    simp only [FrameRing.answers, hanswer, hlater]
    exact ⟨trivial, h''⟩

theorem queued_eq (h : Follows r q) : r.queued = q.frames.length := by
  obtain ⟨gone, hholds⟩ := h.holds
  exact hholds.queued_eq

theorem room (h : Follows r q) : q.frames.length ≤ r.capacity := by
  obtain ⟨gone, hholds⟩ := h.holds
  exact hholds.room

end Follows

namespace Queue

/-- What the answers tell of a queue before and after them. -/
structure Accounts (q : Queue) (given : List Answer) (q' : Queue) : Prop where
  capacity : q'.capacity = q.capacity
  frames : q.frames ++ given.filterMap Answer.queued? =
    given.filterMap Answer.dequeued? ++ q'.frames
  underruns : q'.underruns = given.foldl Answer.unasked q.underruns

theorem Accounts.trans {q q' q'' : Queue} {given later : List Answer} (h : Accounts q given q')
    (h' : Accounts q' later q'') : Accounts q (given ++ later) q'' where
  capacity := h'.capacity.trans h.capacity
  frames := by
    rw [List.filterMap_append, List.filterMap_append, List.append_assoc, ← h'.frames,
      ← List.append_assoc, ← List.append_assoc, h.frames]
  underruns := by rw [List.foldl_append, ← h.underruns, h'.underruns]

theorem perform_accounts (q : Queue) (a : Request) :
    Accounts q [(q.perform a).1] (q.perform a).2 := by
  cases a with
  | write f =>
    by_cases hroom : q.frames.length < q.capacity
    · rw [perform, if_pos hroom]
      exact ⟨rfl, rfl, rfl⟩
    · rw [perform, if_neg hroom]
      exact ⟨rfl, List.append_nil _, rfl⟩
  | next =>
    match hframes : q.frames with
    | [] =>
      simp only [perform, hframes]
      exact ⟨rfl, by rw [hframes]; rfl, rfl⟩
    | f :: frames =>
      simp only [perform, hframes]
      exact ⟨rfl, by rw [hframes]; exact List.append_nil _, rfl⟩
  | takeUnderruns => exact ⟨rfl, List.append_nil _, rfl⟩

theorem answers_accounts (q : Queue) (requests : List Request) :
    Accounts q (answers perform q requests).1 (answers perform q requests).2 := by
  induction requests generalizing q with
  | nil => exact ⟨rfl, by simp [answers], rfl⟩
  | cons a requests ih => exact (q.perform_accounts a).trans (ih (q.perform a).2)

end Queue

/-- A ring for at least so many frames, up to the largest power of two that a position can count, is a
queue with as many places as the next power of two, and at least two. -/
theorem ring_is_queue {n : Nat} (h : n ≤ 2 ^ 63) (requests : List Request) :
    IsLeast {c | (∃ k, c = 2 ^ k) ∧ max n 2 ≤ c} (capacityFor n) ∧
      ∃ given r q, answers perform (.ofMinimum n) requests = (given, r) ∧
        answers Queue.perform { capacity := capacityFor n } requests = (given, q) ∧
        given.filterMap Answer.queued? = given.filterMap Answer.dequeued? ++ q.frames ∧
        r.capacity = capacityFor n ∧ r.queued = q.frames.length ∧
        q.frames.length ≤ capacityFor n ∧ r.free = capacityFor n - q.frames.length ∧
        r.takeUnderruns.1 = given.foldl Answer.unasked 0 := by
  refine ⟨⟨⟨⟨_, capacityFor_eq n⟩, le_capacityFor n⟩, ?_⟩, ?_⟩
  · rintro _ ⟨⟨k, rfl⟩, hle⟩
    exact capacityFor_le hle
  obtain ⟨hgiven, hfollows⟩ := (Follows.ofMinimum h).answers requests
  have haccounts := Queue.answers_accounts { capacity := capacityFor n } requests
  have hcapacity : _ = capacityFor n := hfollows.capacity.trans haccounts.capacity
  refine ⟨_, _, _, rfl, Prod.ext hgiven.symm rfl, ?_, hcapacity, hfollows.queued_eq, ?_, ?_, ?_⟩
  · rw [hgiven]
    exact haccounts.frames
  · exact hfollows.room.trans_eq hcapacity
  · rw [free, hfollows.queued_eq, hcapacity]
  · rw [hgiven, takeUnderruns, hfollows.underruns]
    exact haccounts.underruns

theorem ring_is_queue_of_three :
    3 ≤ 2 ^ 63 ∧ ∃ r,
      answers perform (.ofMinimum 3)
        [.write ⟨0, 0⟩, .write ⟨1, -1⟩, .write ⟨2, -2⟩, .write ⟨3, -3⟩, .write ⟨9, 9⟩, .next,
          .next, .write ⟨-32768, 32767⟩, .next, .next, .next, .takeUnderruns, .next,
          .takeUnderruns] =
        ([.written ⟨0, 0⟩ true, .written ⟨1, -1⟩ true, .written ⟨2, -2⟩ true,
          .written ⟨3, -3⟩ true, .written ⟨9, 9⟩ false, .heard ⟨0, 0⟩ false,
          .heard ⟨1, -1⟩ false, .written ⟨-32768, 32767⟩ true, .heard ⟨2, -2⟩ false, .heard ⟨3, -3⟩ false,
          .heard ⟨-32768, 32767⟩ false, .underruns 0, .heard .silence true, .underruns 1], r) := by
  refine ⟨by decide, ?_⟩
  obtain ⟨-, given, r, q, hring, hqueue, -⟩ := ring_is_queue (n := 3) (by decide)
    [.write ⟨0, 0⟩, .write ⟨1, -1⟩, .write ⟨2, -2⟩, .write ⟨3, -3⟩, .write ⟨9, 9⟩, .next,
      .next, .write ⟨-32768, 32767⟩, .next, .next, .next, .takeUnderruns, .next, .takeUnderruns]
  obtain ⟨rfl, -⟩ := Prod.mk.inj hqueue
  exact ⟨r, hring⟩

end FrameRing

end Tandem
