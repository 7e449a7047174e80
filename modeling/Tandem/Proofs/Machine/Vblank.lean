import Tandem.Proofs.Machine.Reliable

/-!
How the vertical blank is made known. Boundaries alternate since the last reset, and everybody concerned
learns of each in the same iteration. Nine tenths of a frame are no whole number of quanta, but a frame is
1024 of them: what an undisturbed primary processor overshoots the on-screen phase by is the same in every
frame.
-/
namespace Tandem

namespace Call

/-- The boundary that a unit is told of. -/
def edge? (u : UnitId) : Call → Option VblankEdge
  | .vblank v begins => if v = u then some (if begins then .start else .finish) else none
  | _ => none

theorem total_reverse (f : Call → Int) (cs : List Call) : total f cs.reverse = total f cs := by
  induction cs with
  | nil => rfl
  | cons c cs ih => rw [List.reverse_cons, total_append, ih, total_cons, total_cons, total_nil]; omega

theorem total_filter {f : Call → Int} {p : Call → Bool} (h : ∀ c, p c = false → f c = 0) (cs : List Call) :
    total f (cs.filter p) = total f cs := by
  induction cs with
  | nil => rfl
  | cons c cs ih =>
    rw [List.filter_cons, total_cons]
    split
    · rw [total_cons, ih]
    next hp => rw [ih, h c (by simpa using hp), Int.zero_add]

theorem filterMap_edge?_filter (u : UnitId) (cs : List Call) :
    (cs.filter isBeat).filterMap (edge? u) = cs.filterMap (edge? u) := by
  rw [List.filterMap_filter]
  congr 1
  funext c
  cases c <;> rfl

end Call

/-- A pacer whose phase has run out crosses the boundary at its end. -/
theorem Pacer.poll_cases (p : Pacer) : (0 < p.remaining ∧ p.poll = (none, p)) ∨
    (p.remaining ≤ 0 ∧ p.inVblank = true ∧
      p.poll = (some .finish, { p with remaining := p.remaining + p.onscreen, inVblank := false })) ∨
    (p.remaining ≤ 0 ∧ p.inVblank = false ∧
      p.poll = (some .start, { p with remaining := p.remaining + p.blanking, inVblank := true })) := by
  unfold poll
  by_cases hr : 0 < p.remaining
  · exact .inl ⟨hr, if_pos hr⟩
  · rw [if_neg hr]
    cases hv : p.inVblank with
    | true => exact .inr (.inl ⟨Int.not_lt.mp hr, rfl, if_pos rfl⟩)
    | false => exact .inr (.inr ⟨Int.not_lt.mp hr, rfl, if_neg nofun⟩)

namespace Machine

variable {k : Console} {m m' : Machine k} {a : Action k} {x : Passage (Machine k) (Action k)}
  {passages : List (Passage (Machine k) (Action k))} {edge : Option VblankEdge}

/-! ### One iteration -/

/-- Everybody concerned learns of a boundary, or nobody of any. -/
structure Delivers (m m' : Machine k) (edge : Option VblankEdge) : Prop where
  told : (m'.callsSince m).reverse.filter Call.isBeat = m.tidings edge
  graphics : m'.devices.graphics = (m.attend edge).1
  input : m'.devices.input = (m.attend edge).2

theorem Mixes.tidings {mixing : List Call} (h : Mixes m m' mixing) : m'.tidings edge = m.tidings edge := by
  obtain ⟨_, _, _, hgraphics, hinput, _⟩ := h.rest
  cases edge with
  | none => rfl
  | some edge => cases edge <;> simp only [Machine.tidings, h.sampled, hgraphics, hinput]

theorem Mixes.attend {mixing : List Call} (h : Mixes m m' mixing) : m'.attend edge = m.attend edge := by
  obtain ⟨_, _, _, hgraphics, hinput, _⟩ := h.rest
  cases edge with
  | none => simp only [Machine.attend, hgraphics, hinput]
  | some edge => cases edge <;> simp only [Machine.attend, h.sampled, hgraphics, hinput]

theorem Iteration.delivers {r : Option Halt} (h : Iteration m r m') :
    Delivers m m' m.pacer.poll.1 ∧ m'.pacer.inVblank = m.pacer.poll.2.inVblank := by
  obtain ⟨mixing, crossing, running, ha⟩ := h.anatomy
  have hmixing : mixing.reverse.filter Call.isBeat = [] :=
    Call.filter_reverse_eq_nil fun c hc => Call.not_isBeat_of_isMixing (ha.mixes.kind c hc)
  have hrunning : running.reverse.filter Call.isBeat = [] :=
    Call.filter_reverse_eq_nil fun c hc => Call.not_isBeat_of_isEffort (ha.kind c hc)
  refine ⟨⟨?_, ?_, ?_⟩, ?_⟩
  · have hcalls : m'.calls = running ++ (crossing ++ mixing) ++ m.calls := by
      rw [ha.calls]
      simp only [List.append_assoc]
    rw [callsSince_eq hcalls]
    simp only [List.reverse_append, List.filter_append, hmixing, hrunning, List.nil_append, List.append_nil]
    rw [ha.crosses.tidings]
    exact ha.mixes.tidings
  · rw [ha.labours.devices, ha.crosses.graphics]
    exact congrArg Prod.fst ha.mixes.attend
  · rw [ha.labours.devices, ha.crosses.input]
    exact congrArg Prod.snd ha.mixes.attend
  · rw [ha.labours.inVblank, ha.crosses.pacer]

/-- What a delivery comes to: both processors are told of the boundary, once. -/
theorem Delivers.edges (h : Delivers m m' edge) {u : UnitId} (hu : u.isVector = false) :
    (m'.callsSince m).reverse.filterMap (Call.edge? u) = edge.toList := by
  rw [← Call.filterMap_edge?_filter, h.told]
  cases edge with
  | none => rfl
  | some edge =>
    cases u <;> cases edge <;> simp only [tidings] <;> cases m.devices.graphics <;> cases m.devices.input <;>
      first | rfl | cases hu

theorem Delivers.crossed (h : Delivers m m' edge) (begins : Bool) :
    Call.total (Call.crossed begins) (m'.callsSince m) =
      if edge = some (if begins then .start else .finish) then 1 else 0 := by
  have hbeat : ∀ c : Call, c.isBeat = false → c.crossed begins = 0 := by
    intro c hc
    cases c <;> first | rfl | cases hc
  rw [← Call.total_reverse, ← Call.total_filter hbeat, h.told]
  cases edge with
  | none => rfl
  | some edge =>
    cases begins <;> cases edge <;> simp only [tidings] <;> cases m.devices.graphics <;>
      cases m.devices.input <;> rfl

/-! ### Since the last reset -/

/-- The boundaries that a unit was told of, oldest first, each with the number of the iteration. -/
def notices (u : UnitId) : List (Passage (Machine k) (Action k)) → List (Int × VblankEdge)
  | [] => []
  | x :: passages => notices u passages ++ ((deed x).calls.reverse.filterMap (Call.edge? u)).map fun edge =>
      ((history (x :: passages)).iterations, edge)

/-- Boundaries in turn, the first of them a start. -/
def alternation (n : Nat) : List VblankEdge :=
  (List.range n).map fun i => if i % 2 = 0 then .start else .finish

theorem alternation_succ (n : Nat) :
    alternation (n + 1) = alternation n ++ [if n % 2 = 0 then .start else .finish] := by
  rw [alternation, List.range_succ, List.map_append]
  rfl

theorem notices_of_iteration {r : Option Halt} (hx : x.action = .iteration r) {u : UnitId}
    (h : Delivers x.before x.after edge) (hu : u.isVector = false) :
    notices u (x :: passages) =
      notices u passages ++ (edge.map fun e => ((history passages).iterations + 1, e)).toList := by
  have hedges : (deed x).calls.reverse.filterMap (Call.edge? u) = edge.toList := h.edges hu
  rw [notices, hedges, iterations_of_iteration hx]
  cases edge <;> rfl

/-- Nobody is told of a boundary between two iterations. -/
theorem Step.untold (h : Step m a m') (ha : ∀ r, a ≠ .iteration r) :
    (m'.callsSince m).filter Call.isBeat = [] := by
  obtain ⟨new, hc, hu⟩ := h.unpaced ha
  rw [callsSince_eq hc, List.filter_eq_nil_iff]
  intro c hn hb
  have hpaced := hu c hn
  rw [Call.isPaced_of_isBeat hb] at hpaced
  cases hpaced

theorem notices_of_not_iteration (hs : Step x.before x.action x.after) (ha : ∀ r, x.action ≠ .iteration r)
    (u : UnitId) : notices u (x :: passages) = notices u passages := by
  have hnone : (deed x).calls.reverse.filterMap (Call.edge? u) = [] := by
    have huntold : (deed x).calls.reverse.filter Call.isBeat = [] := by
      rw [List.filter_reverse]
      exact congrArg List.reverse (hs.untold ha)
    rw [← Call.filterMap_edge?_filter, huntold]
    rfl
  rw [notices, hnone]
  exact List.append_nil _

section Courses

variable {number blocks : Nat} {hardware : Hardware k} {s : Surroundings k}

/-- Boundaries alternate, and the pacer knows which one comes next. -/
theorem alternates (h : Course Step (ofHardware number hardware blocks s) passages m) {u : UnitId}
    (hu : u.isVector = false) : ∃ n, (notices u (recent passages)).map (·.2) = alternation n ∧
      (m.pacer.inVblank = true ↔ n % 2 = 1) := by
  refine since_reset (P := fun ps m => ∃ n, (notices u ps).map (·.2) = alternation n ∧
    (m.pacer.inVblank = true ↔ n % 2 = 1)) ?_ ?_ ?_ h
  · exact fun m hm => ⟨0, rfl, by rw [hm.onscreen]; decide⟩
  · rintro passages m r m' _ ⟨n, halternates, hphase⟩ h
    obtain ⟨hdelivers, hphase'⟩ := h.delivers
    rw [notices_of_iteration rfl hdelivers hu, hphase', List.map_append, halternates]
    rcases m.pacer.poll_cases with ⟨_, hpoll⟩ | ⟨_, hv, hpoll⟩ | ⟨_, hv, hpoll⟩
    · rw [hpoll]
      exact ⟨n, List.append_nil _, hphase⟩
    · have hodd : n % 2 = 1 := hphase.mp hv
      rw [hpoll]
      refine ⟨n + 1, ?_, ?_⟩
      · rw [alternation_succ, if_neg (by omega)]
        rfl
      · simp
        omega
    · have heven : n % 2 = 0 := by
        have hodd : ¬ n % 2 = 1 := fun h => by rw [hphase.mpr h] at hv; cases hv
        omega
      rw [hpoll]
      refine ⟨n + 1, ?_, ?_⟩
      · rw [alternation_succ, if_pos heven]
        rfl
      · simp
        omega
  · rintro passages m a m' ⟨n, halternates, hphase⟩ hs hr hi
    rw [notices_of_not_iteration hs hi, (hs.quiet hr hi).pacer]
    exact ⟨n, halternates, hphase⟩

end Courses

/-! ### The calendar -/

/-- What is made known in an iteration, if nothing disturbs the primary processor. -/
def boundary (i : Nat) : Option VblankEdge :=
  if i % 1024 = 923 then some .start else if i % 1024 = 1 ∧ i ≠ 1 then some .finish else none

theorem boundary_eq_start_iff {i : Nat} : boundary i = some .start ↔ i % 1024 = 923 := by
  unfold boundary
  split
  next h => simp [h]
  next h =>
    split
    · simp [h]
    · simp [h]

theorem boundary_eq_finish_iff {i : Nat} : boundary i = some .finish ↔ i % 1024 = 1 ∧ i ≠ 1 := by
  unfold boundary
  split
  next h => simp [h]
  next h =>
    split
    next h' => simp [h']
    next h' => simp [h']

/-- What is made known in the first iterations. -/
def calendar : Nat → List (Int × VblankEdge)
  | 0 => []
  | n + 1 => calendar n ++ ((boundary (n + 1)).map fun e => ((n : Int) + 1, e)).toList

theorem calendar_length (n : Nat) : (calendar n).length = (n + 101) / 1024 + (n - 1) / 1024 := by
  induction n with
  | zero => rfl
  | succ n ih =>
    rw [calendar, List.length_append, ih, boundary]
    split
    · simp
      omega
    · split
      · simp
        omega
      · simp
        omega

theorem getElem?_concat {α : Type} (l : List α) (x : α) (i : Nat) :
    (l ++ [x])[i]? = if i = l.length then some x else l[i]? := by
  by_cases hi : i = l.length
  · rw [if_pos hi, hi, List.getElem?_concat_length]
  · rw [if_neg hi]
    by_cases hlt : i < l.length
    · exact List.getElem?_append_left hlt
    · have hlength : (l ++ [x]).length = l.length + 1 := List.length_append
      rw [List.getElem?_eq_none (by omega), List.getElem?_eq_none (by omega)]

/-- Every start comes 1024 iterations after the one before, and so does every end. -/
theorem calendar_get (n j : Nat) :
    (calendar n)[2 * j]? = (if 1024 * j + 923 ≤ n then some (1024 * (j : Int) + 923, .start) else none) ∧
    (calendar n)[2 * j + 1]? =
      (if 1024 * (j + 1) + 1 ≤ n then some (1024 * ((j : Int) + 1) + 1, .finish) else none) := by
  induction n with
  | zero => exact ⟨rfl, rfl⟩
  | succ n ih =>
    obtain ⟨hstart, hfinish⟩ := ih
    have hlength := calendar_length n
    unfold calendar boundary
    split
    next hi =>
      simp only [Option.map_some, Option.toList_some, getElem?_concat, hlength, hstart, hfinish]
      refine ⟨?_, ?_⟩
      · by_cases hj : 1024 * j + 923 = n + 1
        · rw [if_pos (by omega), if_pos (by omega)]
          exact congrArg (fun i => some (i, VblankEdge.start)) (by omega)
        · rw [if_neg (by omega)]
          exact if_congr (by omega) rfl rfl
      · rw [if_neg (by omega)]
        exact if_congr (by omega) rfl rfl
    next hi =>
      split
      next hi' =>
        simp only [Option.map_some, Option.toList_some, getElem?_concat, hlength, hstart, hfinish]
        refine ⟨?_, ?_⟩
        · rw [if_neg (by omega)]
          exact if_congr (by omega) rfl rfl
        · by_cases hj : 1024 * (j + 1) + 1 = n + 1
          · rw [if_pos (by omega), if_pos (by omega)]
            exact congrArg (fun i => some (i, VblankEdge.finish)) (by omega)
          · rw [if_neg (by omega)]
            exact if_congr (by omega) rfl rfl
      next hi' =>
        simp only [Option.map_none, Option.toList_none, List.append_nil, hstart, hfinish]
        exact ⟨if_congr (by omega) rfl rfl, if_congr (by omega) rfl rfl⟩

/-- The boundaries made known and the phase of the pacer are those of the calendar. -/
structure Punctual (n : Nat) (passages : List (Passage (Machine k) (Action k))) (m : Machine k) : Prop where
  iterations : (history passages).iterations = n
  notices : notices .primary passages = calendar n
  starts : Call.total (Call.crossed true) (history passages).calls = ((n + 101) / 1024 : Nat)
  finishes : Call.total (Call.crossed false) (history passages).calls = ((n - 1) / 1024 : Nat)
  inVblank : m.pacer.inVblank = true ↔ (n - 1) / 1024 < (n + 101) / 1024

/-- The pacer has run out just when the calendar says so. -/
theorem Punctual.poll {n : Nat} (h : Punctual n passages m) (hc : Conserved (history passages) m)
    (ht : OnTime .primary passages m) : m.pacer.poll.1 = boundary (n + 1) ∧
      (m.pacer.poll.2.inVblank = true ↔ n / 1024 < (n + 102) / 1024) := by
  have hon : m.pacer.onscreen = 4423680 := hc.onscreen
  have hblank : m.pacer.blanking = 491520 := hc.blanking
  have hpacer := hc.pacer
  have hcounted := ht.counted
  have hnonneg : 0 ≤ m.primaryTicks := ht.nonneg
  have hused : (n : Int) ≠ 1 → m.primaryTicks = 0 := h.iterations ▸ ht.used
  have hgranted : granted .primary = 4800 := rfl
  have hticks : m.ticks .primary = m.primaryTicks := rfl
  rw [History.pacerCharge, hon, hblank, h.starts, h.finishes] at hpacer
  rw [h.iterations, hgranted, hticks, ← hpacer] at hcounted
  have hphase := h.inVblank
  unfold boundary
  rcases m.pacer.poll_cases with ⟨hr, hpoll⟩ | ⟨hr, hv, hpoll⟩ | ⟨hr, hv, hpoll⟩
  · have hstart : ¬ (n + 1) % 1024 = 923 := by omega
    have hfinish : ¬ ((n + 1) % 1024 = 1 ∧ n + 1 ≠ 1) := by omega
    rw [hpoll, if_neg hstart, if_neg hfinish]
    exact ⟨rfl, hphase.trans (by omega)⟩
  · have hlate := hphase.mp hv
    have hfinish : (n + 1) % 1024 = 1 ∧ n + 1 ≠ 1 := by omega
    rw [hpoll, if_neg (by omega), if_pos hfinish]
    exact ⟨rfl, by simp; omega⟩
  · have hearly : ¬ (n - 1) / 1024 < (n + 101) / 1024 := fun h => by rw [hphase.mpr h] at hv; cases hv
    have hstart : (n + 1) % 1024 = 923 := by omega
    rw [hpoll, if_pos hstart]
    exact ⟨rfl, by simp; omega⟩

section Courses

variable {number blocks : Nat} {hardware : Hardware k} {s : Surroundings k}

theorem crossed_of_not_iteration (hs : Step m a m') (hr : a.resets m = false) (ha : ∀ r, a ≠ .iteration r)
    (begins : Bool) : Call.total (Call.crossed begins) (m'.callsSince m) = 0 := by
  obtain ⟨new, hc, hu⟩ := (hs.quiet hr ha).journal
  rw [callsSince_eq hc]
  exact Call.total_eq_zero fun c hn => Call.crossed_untimed (hu c hn) begins

/-- While nothing disturbs the primary processor, the calendar is kept. -/
theorem punctual_of_undisturbed (h : Course Step (ofHardware number hardware blocks s) passages m)
    (hu : Undisturbed .primary (recent passages)) : ∃ n, Punctual n (recent passages) m := by
  refine since_reset (P := fun ps m => Undisturbed .primary ps → ∃ n, Punctual n ps m) ?_ ?_ ?_ h hu
  · exact fun m hm _ => ⟨0, rfl, rfl, rfl, rfl, by rw [hm.onscreen]; decide⟩
  · intro passages m r m' hcourse ih h hu
    obtain ⟨n, hp⟩ := ih hu.tail
    have hcalls : (history (⟨m, .iteration r, m'⟩ :: recent passages)).calls =
      m'.callsSince m ++ (history (recent passages)).calls := rfl
    obtain ⟨hpoll, hphase⟩ := hp.poll (conserved_of_course hcourse)
      (onTime_of_undisturbed hcourse hu.tail rfl)
    obtain ⟨hdelivers, hphase'⟩ := h.delivers
    rw [hpoll] at hdelivers
    refine ⟨n + 1, ?_, ?_, ?_, ?_, ?_⟩
    · rw [iterations_of_iteration rfl, hp.iterations]
      rfl
    · rw [notices_of_iteration rfl hdelivers rfl, hp.notices, hp.iterations, calendar]
    · rw [hcalls, Call.total_append, hdelivers.crossed, hp.starts]
      simp only [if_true, boundary_eq_start_iff]
      split <;> omega
    · rw [hcalls, Call.total_append, hdelivers.crossed, hp.finishes]
      simp only [Bool.false_eq_true, if_false, boundary_eq_finish_iff]
      split <;> omega
    · rw [hphase']
      exact hphase
  · intro passages m a m' ih hs hr hi hu
    obtain ⟨n, hp⟩ := ih hu.tail
    have hcalls : (history (⟨m, a, m'⟩ :: recent passages)).calls =
      m'.callsSince m ++ (history (recent passages)).calls := rfl
    have hcrossed := crossed_of_not_iteration hs hr hi
    refine ⟨n, ?_, ?_, ?_, ?_, ?_⟩
    · rw [iterations_of_not_iteration hi, hp.iterations]
    · rw [notices_of_not_iteration hs hi, hp.notices]
    · rw [hcalls, Call.total_append, hcrossed, hp.starts, Int.zero_add]
    · rw [hcalls, Call.total_append, hcrossed, hp.finishes, Int.zero_add]
    · rw [(hs.quiet hr hi).pacer]
      exact hp.inVblank

/-- Both processors are told of the same boundaries in the same iterations. -/
theorem notices_together (h : ∀ x ∈ passages, Step x.before x.action x.after) :
    notices .secondary passages = notices .primary passages := by
  induction passages with
  | nil => rfl
  | cons x passages ih =>
    have ih' := ih fun y hy => h y (List.mem_cons_of_mem x hy)
    have hx := h x List.mem_cons_self
    obtain ⟨r, hr⟩ | hi := iteration_or_not x.action
    · rw [hr] at hx
      cases hx with
      | iteration hi =>
        rw [notices_of_iteration hr hi.delivers.1 rfl, notices_of_iteration hr hi.delivers.1 rfl, ih']
    · rw [notices_of_not_iteration hx hi, notices_of_not_iteration hx hi, ih']

/-- Whatever happens to a machine, at most one boundary is made known in an iteration, to everybody
concerned, and none otherwise. Since the last reset the boundaries alternate, the first of them a start, and
both processors are told of the same in the same iterations. As long as the primary processor never
overshoots what it is offered, is not stepped and hits no breakpoint, and all iterations are finished, the
starts are made known in the iterations 923, 1947, ... since the reset, and the ends in 1025, 2049, ...,
however it slices what it is offered. -/
theorem vblank_delivered (h : Course Step (ofHardware number hardware blocks s) passages m) :
    (∀ x ∈ passages, ∀ r, x.action = .iteration r → ∃ edge, Delivers x.before x.after edge) ∧
    (∀ x ∈ passages, (∀ r, x.action ≠ .iteration r) → (deed x).calls.filter Call.isBeat = []) ∧
    (∃ n, (notices .primary (recent passages)).map (·.2) = alternation n) ∧
    notices .secondary (recent passages) = notices .primary (recent passages) ∧
    (Undisturbed .primary (recent passages) → ∀ j : Nat,
      (notices .primary (recent passages))[2 * j]? =
        (if 1024 * j + 923 ≤ (history (recent passages)).iterations then
          some (1024 * (j : Int) + 923, .start) else none) ∧
      (notices .primary (recent passages))[2 * j + 1]? =
        (if 1024 * (j + 1) + 1 ≤ (history (recent passages)).iterations then
          some (1024 * ((j : Int) + 1) + 1, .finish) else none)) := by
  refine ⟨fun x hx r hr => ?_, fun x hx hi => (h.step_of_mem hx).untold hi, ?_, ?_, fun hu j => ?_⟩
  · have hs := h.step_of_mem hx
    rw [hr] at hs
    cases hs with
    | iteration hi => exact ⟨_, hi.delivers.1⟩
  · obtain ⟨n, hn, _⟩ := alternates h (u := .primary) rfl
    exact ⟨n, hn⟩
  · exact notices_together fun x hx => h.step_of_mem (mem_recent hx)
  · obtain ⟨n, hp⟩ := punctual_of_undisturbed h hu
    obtain ⟨hstart, hfinish⟩ := calendar_get n j
    rw [hp.notices, hp.iterations, hstart, hfinish]
    exact ⟨if_congr (by omega) rfl rfl, if_congr (by omega) rfl rfl⟩

end Courses

/-- The first boundaries of a machine that goes through 1025 iterations. -/
theorem vblank_delivered_frame : ∃ passages m, Course Step (Scripted.bare {}) passages m ∧
    (history (recent passages)).iterations = 1025 ∧ (notices .primary (recent passages))[0]? = some (923, .start) ∧
    (notices .primary (recent passages))[1]? = some (1025, .finish) := by
  obtain ⟨passages, m, hcourse, _, hn, hu⟩ := Scripted.course_of_iterations {} 1025
  have h := (vblank_delivered hcourse).2.2.2.2 (hu .primary rfl) 0
  rw [hn] at h
  exact ⟨passages, m, hcourse, hn, h.1, h.2⟩

end Machine

end Tandem
