import Mathlib.Tactic.Ring
import Mathlib.Algebra.Ring.Parity
import Tandem.Proofs.Machine.Vblank

/-!
Exact pacing. Whatever the length of a frame, the boundaries fall due at fixed numbers of ticks: what a
phase is overshot by is taken off the next one, so that no error adds up. A pacer that is polled often
enough crosses every boundary at the first poll after it falls due.
-/
namespace Tandem

namespace Machine

theorem alternation_count (n : Nat) :
    (alternation n).count .start = (n + 1) / 2 ∧ (alternation n).count .finish = n / 2 := by
  induction n with
  | zero => simp [alternation]
  | succ n ih =>
    rw [alternation_succ, List.count_append, List.count_append, ih.1, ih.2]
    split <;> simp <;> omega

end Machine

namespace Pacer

/-- A poll: the ticks consumed until then, and the boundary that it crossed. -/
structure Poll where
  consumed : Int
  edge : Option VblankEdge

/-- What becomes of a pacer for frames of the given length: the ticks consumed and the polls made, newest
first, both counted from the last reset. -/
inductive Used (frame : Int) : Int → List Poll → Pacer → Prop
  | new : Used frame 0 [] (ofFrame frame)
  | consume {consumed polls p} (ticks : Int) : 0 ≤ ticks → Used frame consumed polls p →
      Used frame (consumed + ticks) polls (p.consume ticks)
  | poll {consumed polls p} : Used frame consumed polls p →
      Used frame consumed (⟨consumed, p.poll.1⟩ :: polls) p.poll.2
  | reset {consumed polls p} : Used frame consumed polls p → Used frame 0 [] p.reset

/-! ### Deadlines -/

/-- The ticks after which the boundary of the given number falls due. The phases before it alternate, an
on-screen one first. -/
def deadline (frame : Int) (k : Nat) : Int :=
  ((k + 1) / 2 : Nat) * (frame * 9).tdiv 10 + (k / 2 : Nat) * frame.tdiv 10

section Deadlines

variable {frame : Int}

theorem deadline_even (j : Nat) :
    deadline frame (2 * j) = j * ((frame * 9).tdiv 10 + frame.tdiv 10) := by
  have hon : (2 * j + 1) / 2 = j := by omega
  have hblank : 2 * j / 2 = j := by omega
  rw [deadline, hon, hblank, Int.mul_add]

theorem deadline_odd (j : Nat) :
    deadline frame (2 * j + 1) = j * ((frame * 9).tdiv 10 + frame.tdiv 10) + (frame * 9).tdiv 10 := by
  have hon : (2 * j + 1 + 1) / 2 = j + 1 := by omega
  have hblank : (2 * j + 1) / 2 = j := by omega
  rw [deadline, hon, hblank]
  push_cast
  ring

theorem deadline_succ (k : Nat) : deadline frame (k + 1) =
    deadline frame k + if k % 2 = 0 then (frame * 9).tdiv 10 else frame.tdiv 10 := by
  obtain ⟨j, rfl | rfl⟩ := k.even_or_odd'
  · rw [deadline_odd, deadline_even, if_pos (by omega)]
  · have hnext : 2 * j + 1 + 1 = 2 * (j + 1) := by omega
    rw [hnext, deadline_even, deadline_odd, if_neg (by omega)]
    push_cast
    ring

/-- No phase is empty, and none is shorter than the blanking phase. -/
theorem blanking_le (hf : 10 ≤ frame) : 0 < frame.tdiv 10 ∧ frame.tdiv 10 ≤ (frame * 9).tdiv 10 := by
  rw [Int.tdiv_eq_ediv_of_nonneg (by omega), Int.tdiv_eq_ediv_of_nonneg (by omega)]
  omega

/-- At least the length of a blanking phase lies between two deadlines. -/
theorem deadline_add_le (hf : 10 ≤ frame) (k : Nat) :
    deadline frame k + frame.tdiv 10 ≤ deadline frame (k + 1) := by
  have hlonger := (blanking_le hf).2
  rw [deadline_succ]
  split <;> omega

theorem deadline_mono (hf : 10 ≤ frame) {i k : Nat} (h : i ≤ k) : deadline frame i ≤ deadline frame k := by
  induction k, h using Nat.le_induction with
  | base => exact Int.le_refl _
  | succ k _ ih =>
    have hstep := deadline_add_le hf k
    have hpos := (blanking_le hf).1
    omega

theorem lt_of_deadline_lt (hf : 10 ≤ frame) {i k : Nat} (h : deadline frame i < deadline frame k) : i < k := by
  by_contra hle
  have hmono := deadline_mono hf (Nat.not_lt.mp hle)
  omega

/-- Between two deadlines the numbers of the phases gone by are quotients. -/
theorem phases_eq (hf : 10 ≤ frame) {k : Nat} {consumed : Int} (hlow : deadline frame k ≤ consumed)
    (hhigh : consumed < deadline frame (k + 1)) :
    ((k + 1) / 2 : Nat) = (consumed + frame.tdiv 10) / ((frame * 9).tdiv 10 + frame.tdiv 10) ∧
    (k / 2 : Nat) = consumed / ((frame * 9).tdiv 10 + frame.tdiv 10) := by
  obtain ⟨hpos, hlonger⟩ := blanking_le hf
  have hframe : 0 < (frame * 9).tdiv 10 + frame.tdiv 10 := by omega
  obtain ⟨j, rfl | rfl⟩ := k.even_or_odd'
  · have hon : (2 * j + 1) / 2 = j := by omega
    have hblank : 2 * j / 2 = j := by omega
    rw [deadline_even] at hlow
    rw [deadline_odd] at hhigh
    rw [hon, hblank, eq_comm, Int.ediv_eq_iff_of_pos hframe, eq_comm, Int.ediv_eq_iff_of_pos hframe]
    omega
  · have hon : (2 * j + 1 + 1) / 2 = j + 1 := by omega
    have hblank : (2 * j + 1) / 2 = j := by omega
    rw [deadline_odd] at hlow
    rw [deadline_succ, deadline_odd, if_neg (by omega)] at hhigh
    rw [hon, hblank, eq_comm, Int.ediv_eq_iff_of_pos hframe, eq_comm, Int.ediv_eq_iff_of_pos hframe]
    push_cast
    rw [Int.add_mul, Int.one_mul]
    omega

end Deadlines

/-! ### Since the last reset -/

/-- The boundaries crossed, oldest first. -/
def edges (polls : List Poll) : List VblankEdge := polls.reverse.filterMap (·.edge)

/-- How many boundaries were crossed. -/
def crossings (polls : List Poll) : Nat := (edges polls).length

/-- The ticks consumed when a pacer was last polled. -/
def lastPolled : List Poll → Int
  | [] => 0
  | x :: _ => x.consumed

/-- At most so many ticks were consumed before the first poll and from each poll to the next. -/
def Frequent (most : Int) : List Poll → Prop
  | [] => True
  | x :: polls => x.consumed - lastPolled polls ≤ most ∧ Frequent most polls

@[simp] theorem edges_nil : edges [] = [] := rfl

@[simp] theorem edges_cons (x : Poll) (polls : List Poll) : edges (x :: polls) = edges polls ++ x.edge.toList := by
  cases h : x.edge <;> simp [edges, h]

@[simp] theorem crossings_nil : crossings [] = 0 := rfl

@[simp] theorem crossings_cons (x : Poll) (polls : List Poll) :
    crossings (x :: polls) = crossings polls + x.edge.toList.length := by
  simp [crossings]

@[simp] theorem lastPolled_nil : lastPolled [] = 0 := rfl

@[simp] theorem lastPolled_cons (x : Poll) (polls : List Poll) : lastPolled (x :: polls) = x.consumed := rfl

@[simp] theorem frequent_cons (most : Int) (x : Poll) (polls : List Poll) :
    Frequent most (x :: polls) ↔ x.consumed - lastPolled polls ≤ most ∧ Frequent most polls := Iff.rfl

theorem Frequent.of_append {most : Int} {later polls : List Poll} (h : Frequent most (later ++ polls)) :
    Frequent most polls := by
  induction later with
  | nil => exact h
  | cons x later ih => exact ih h.2

/-- The poll crosses the boundary of the given number. -/
def Poll.Crosses (x : Poll) (earlier : List Poll) (k : Nat) : Prop :=
  x.edge.isSome = true ∧ crossings earlier + 1 = k

variable {frame consumed : Int} {polls : List Poll} {p : Pacer}

/-- A pacer knows how far off the next boundary is and which one it is. -/
structure Scheduled (frame consumed : Int) (polls : List Poll) (p : Pacer) : Prop where
  onscreen : p.onscreen = (frame * 9).tdiv 10
  blanking : p.blanking = frame.tdiv 10
  remaining : p.remaining = deadline frame (crossings polls + 1) - consumed
  edges : edges polls = Machine.alternation (crossings polls)
  inVblank : p.inVblank = true ↔ crossings polls % 2 = 1

theorem Scheduled.of_fresh (hon : p.onscreen = (frame * 9).tdiv 10) (hblank : p.blanking = frame.tdiv 10)
    (hr : p.remaining = p.onscreen) (hv : p.inVblank = false) : Scheduled frame 0 [] p where
  onscreen := hon
  blanking := hblank
  remaining := by rw [hr, hon]; simp [deadline]
  edges := by simp [Machine.alternation]
  inVblank := by simp [hv]

theorem Scheduled.consume (h : Scheduled frame consumed polls p) (ticks : Int) :
    Scheduled frame (consumed + ticks) polls (p.consume ticks) where
  onscreen := h.onscreen
  blanking := h.blanking
  remaining := by rw [consume_remaining, h.remaining, Int.sub_sub]
  edges := h.edges
  inVblank := h.inVblank

theorem Scheduled.poll (h : Scheduled frame consumed polls p) :
    Scheduled frame consumed (⟨consumed, p.poll.1⟩ :: polls) p.poll.2 := by
  have hr := h.remaining
  have hphase := h.inVblank
  rcases p.poll_cases with ⟨_, hpoll⟩ | ⟨_, hv, hpoll⟩ | ⟨_, hv, hpoll⟩
  · rw [hpoll]
    exact ⟨h.onscreen, h.blanking, by simpa using hr, by simpa using h.edges, by simpa using hphase⟩
  · have hodd : crossings polls % 2 = 1 := hphase.mp hv
    rw [hpoll]
    refine ⟨h.onscreen, h.blanking, ?_, ?_, ?_⟩
    · simp [deadline_succ (_ + 1), hr, h.onscreen]
      omega
    · simp [Machine.alternation_succ, h.edges, hodd]
    · simp
      omega
  · have heven : crossings polls % 2 = 0 := by
      have hodd : ¬ crossings polls % 2 = 1 := fun h => by rw [hphase.mpr h] at hv; cases hv
      omega
    rw [hpoll]
    refine ⟨h.onscreen, h.blanking, ?_, ?_, ?_⟩
    · simp [deadline_succ (_ + 1), hr, h.blanking]
      omega
    · simp [Machine.alternation_succ, h.edges, heven]
    · simp
      omega

theorem Used.scheduled (h : Used frame consumed polls p) : Scheduled frame consumed polls p := by
  induction h with
  | new => exact .of_fresh rfl rfl rfl rfl
  | consume ticks _ _ ih => exact ih.consume ticks
  | poll _ ih => exact ih.poll
  | reset _ ih => exact .of_fresh ih.onscreen ih.blanking rfl rfl

/-- A poll crosses a boundary just when the next one has fallen due. -/
theorem Used.isSome_poll (h : Used frame consumed polls p) :
    p.poll.1.isSome = true ↔ deadline frame (crossings polls + 1) ≤ consumed := by
  have hr := h.scheduled.remaining
  rw [Option.isSome_iff_ne_none, ne_eq, poll_eq_none_iff]
  omega

/-- What was the case when an earlier poll was made. -/
theorem Used.before (h : Used frame consumed polls p) {later earlier : List Poll} {x : Poll}
    (hx : polls = later ++ x :: earlier) : ∃ q, Used frame x.consumed earlier q ∧ x.edge = q.poll.1 := by
  induction h generalizing later with
  | new => simp at hx
  | consume _ _ _ ih => exact ih hx
  | reset => simp at hx
  | @poll consumed polls p h ih =>
    cases later with
    | nil =>
      obtain ⟨rfl, rfl⟩ := List.cons.inj hx
      exact ⟨p, h, rfl⟩
    | cons y later => exact ih (List.cons.inj hx).2

theorem Used.polled_le (h : Used frame consumed polls p) : lastPolled polls ≤ consumed ∧
    ∀ y ∈ polls, y.consumed ≤ lastPolled polls := by
  induction h with
  | new => simp
  | consume ticks hticks _ ih => exact ⟨by omega, ih.2⟩
  | reset => simp
  | poll _ ih =>
    refine ⟨Int.le_refl _, fun y hy => ?_⟩
    rcases List.mem_cons.mp hy with rfl | hy
    · exact Int.le_refl _
    · exact Int.le_trans (ih.2 y hy) ih.1

/-- A pacer that is polled often enough never falls behind: at each poll the boundary that has fallen due
last is crossed, and it is the only one. -/
theorem Used.in_phase (hf : 10 ≤ frame) (h : Used frame consumed polls p)
    (hoften : Frequent (frame.tdiv 10) polls) : deadline frame (crossings polls) ≤ lastPolled polls ∧
      lastPolled polls < deadline frame (crossings polls + 1) := by
  induction h with
  | new =>
    have hpos := blanking_le hf
    simp [deadline]
    omega
  | consume _ _ _ ih => exact ih hoften
  | reset =>
    have hpos := blanking_le hf
    simp [deadline]
    omega
  | @poll consumed polls p h ih =>
    rw [frequent_cons] at hoften
    obtain ⟨hlow, hhigh⟩ := ih hoften.2
    have hdue := h.isSome_poll
    have hlast := h.polled_le.1
    have hnext := deadline_add_le hf (crossings polls + 1)
    cases hedge : p.poll.1 with
    | none =>
      rw [hedge] at hdue
      simp at hdue hoften ⊢
      omega
    | some edge =>
      rw [hedge] at hdue
      simp at hdue hoften ⊢
      omega

/-- A pacer that is polled often enough crosses each boundary at the first poll after it falls due. -/
theorem Used.crosses_iff (hf : 10 ≤ frame) (h : Used frame consumed polls p)
    (hoften : Frequent (frame.tdiv 10) (⟨consumed, p.poll.1⟩ :: polls)) {k : Nat} (hk : 1 ≤ k) :
    Poll.Crosses ⟨consumed, p.poll.1⟩ polls k ↔
      deadline frame k ≤ consumed ∧ ∀ y ∈ polls, y.consumed < deadline frame k := by
  obtain ⟨hlow, hhigh⟩ := h.in_phase hf hoften.2
  have hdue := h.isSome_poll
  constructor
  · rintro ⟨hedge, rfl⟩
    exact ⟨hdue.mp hedge, fun y hy => Int.lt_of_le_of_lt (h.polled_le.2 y hy) hhigh⟩
  · rintro ⟨hreached, hearlier⟩
    -- Boundary `k` was not crossed before, since it was not due at the last poll.
    have hlast : lastPolled polls < deadline frame k := by
      cases polls with
      | nil => exact Int.lt_of_lt_of_le hhigh (deadline_mono hf hk)
      | cons y polls => exact hearlier y List.mem_cons_self
    have hlater : crossings polls < k := lt_of_deadline_lt hf (Int.lt_of_le_of_lt hlow hlast)
    -- After this poll the next boundary is not due, so `k` has been crossed.
    have hcrossed : k < crossings (⟨consumed, p.poll.1⟩ :: polls) + 1 :=
      lt_of_deadline_lt hf (Int.lt_of_le_of_lt hreached (h.poll.in_phase hf hoften).2)
    cases hedge : p.poll.1 with
    | none =>
      simp [hedge] at hcrossed
      omega
    | some edge =>
      simp [hedge] at hcrossed
      exact ⟨rfl, by omega⟩

/-- For frames of at least ten ticks, whatever ticks are consumed and whenever the pacer is polled: the ticks
left until the next boundary are exactly those to its deadline, the boundaries crossed alternate, the first
of them a start, and none is crossed by a poll before its deadline. If at most the ticks of a blanking phase
are consumed before the first poll and from each poll to the next, then every boundary is crossed by the
first poll from its deadline on, and the starts and the ends crossed are those that have fallen due. -/
theorem crossed_on_schedule (hf : 10 ≤ frame) (h : Used frame consumed polls p) :
    p.remaining = deadline frame (crossings polls + 1) - consumed ∧
    edges polls = Machine.alternation (crossings polls) ∧
    (∀ later x earlier k, polls = later ++ x :: earlier → x.Crosses earlier k →
      deadline frame k ≤ x.consumed) ∧
    (Frequent (frame.tdiv 10) polls → ∀ later x earlier, polls = later ++ x :: earlier →
      (∀ k, 1 ≤ k → (x.Crosses earlier k ↔
        deadline frame k ≤ x.consumed ∧ ∀ y ∈ earlier, y.consumed < deadline frame k)) ∧
      (edges (x :: earlier)).count .start =
        (x.consumed + frame.tdiv 10) / ((frame * 9).tdiv 10 + frame.tdiv 10) ∧
      (edges (x :: earlier)).count .finish = x.consumed / ((frame * 9).tdiv 10 + frame.tdiv 10)) := by
  refine ⟨h.scheduled.remaining, h.scheduled.edges, ?_, ?_⟩
  · rintro later x earlier k hx ⟨hedge, rfl⟩
    obtain ⟨q, hq, heq⟩ := h.before hx
    exact hq.isSome_poll.mp (heq ▸ hedge)
  · intro hoften later x earlier hx
    obtain ⟨q, hq, heq⟩ := h.before hx
    obtain ⟨reached, edge⟩ := x
    obtain rfl : edge = q.poll.1 := heq
    have hoften' : Frequent (frame.tdiv 10) (⟨reached, q.poll.1⟩ :: earlier) := .of_append (hx ▸ hoften)
    obtain ⟨hlow, hhigh⟩ := hq.poll.in_phase hf hoften'
    obtain ⟨hstarts, hfinishes⟩ := phases_eq hf hlow hhigh
    obtain ⟨hstarts', hfinishes'⟩ := Machine.alternation_count (crossings (⟨reached, q.poll.1⟩ :: earlier))
    refine ⟨fun k hk => hq.crosses_iff hf hoften' hk, ?_, ?_⟩
    · rw [hq.poll.scheduled.edges, hstarts']
      exact hstarts
    · rw [hq.poll.scheduled.edges, hfinishes']
      exact hfinishes

/-- A pacer that is polled after every so many ticks. -/
theorem exists_regular (frame ticks : Int) (hticks : 0 ≤ ticks) (n : Nat) : ∃ polls p,
    Used frame (n * ticks) polls p ∧ Frequent ticks polls ∧ lastPolled polls = n * ticks ∧ polls.length = n := by
  induction n with
  | zero => exact ⟨[], _, by simpa using .new, trivial, by simp, rfl⟩
  | succ n ih =>
    obtain ⟨polls, p, h, hoften, hlast, hlength⟩ := ih
    have hnext : n * ticks + ticks = (n + 1 : Nat) * ticks := by push_cast; ring
    have h' := (h.consume ticks hticks).poll
    rw [hnext] at h'
    refine ⟨_, _, h', (frequent_cons ..).mpr ⟨?_, hoften⟩, rfl, by simp [hlength]⟩
    rw [hlast]
    simp only
    omega

/-- A frame of 25 ticks, 22 of them on screen, polled after every two ticks: the twelfth poll is at the end of
the first blanking phase. -/
theorem crossed_on_schedule_frame : ∃ polls p, Used 25 24 polls p ∧ polls.length = 12 ∧
    (edges polls).count .start = 1 ∧ (edges polls).count .finish = 1 := by
  obtain ⟨polls, p, h, hoften, hlast, hlength⟩ := exists_regular 25 2 (by decide) 12
  cases polls with
  | nil => cases hlength
  | cons x earlier =>
    obtain ⟨_, _, _, hfrequent⟩ := crossed_on_schedule (by decide) h
    obtain ⟨_, hstarts, hfinishes⟩ := hfrequent hoften [] x earlier rfl
    rw [lastPolled_cons] at hlast
    rw [hlast] at hstarts hfinishes
    exact ⟨_, p, h, hlength, Int.ofNat.inj hstarts, Int.ofNat.inj hfinishes⟩

end Pacer

end Tandem
