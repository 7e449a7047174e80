import Tandem.Proofs.Machine.Budgets
import Tandem.Proofs.Machine.Publication

/-!
Runs that stay in words. What a frame counts is bounded by the length of a frame and by what was carried on into it,
and the two processors count in proportion but for what they carry on. So a machine of processors that never use up
more than they are offered, and are seldom cut short, never leaves its words, however long it runs.
-/
namespace Tandem

namespace Machine

open Gauges

variable {k : Console} {m m' n : Machine k} {K i j : Int}

/-- What the counters of a frame come to. The primary processor has counted no more than has gone by of the frame,
and the secondary no more than its share of that, if `K` iterations in a row are cut short at most. -/
structure Metered (K : Int) (m : Machine k) : Prop where
  primary : 0 ≤ m.utilisation.primaryIdle ∧ m.utilisation.primaryIdle ≤ m.utilisation.primaryTotal
  secondary : 0 ≤ m.utilisation.secondaryIdle ∧ m.utilisation.secondaryIdle ≤ m.utilisation.secondaryTotal
  frame : m.utilisation.primaryTotal + m.pacer.remaining ≤ 4915200
  blanking : m.pacer.inVblank = true → m.utilisation.primaryTotal + m.pacer.remaining ≤ 491520
  share : 8 * (m.utilisation.secondaryTotal + m.secondaryTicks) ≤
    m.utilisation.primaryTotal + m.primaryTicks + 4800 * (K + 1)

namespace Metered

theorem of_eq (h : Metered K m) (hg : m'.gauges = m.gauges) (hv : m'.pacer.inVblank = m.pacer.inVblank)
    (hu : m'.utilisation = m.utilisation) : Metered K m' := by
  have hp : m'.primaryTicks = m.primaryTicks := congrArg Gauges.primary hg
  have hs : m'.secondaryTicks = m.secondaryTicks := congrArg Gauges.secondary hg
  have hr : m'.pacer.remaining = m.pacer.remaining := congrArg Gauges.pacer hg
  obtain ⟨hprimary, hsecondary, hframe, hblanking, hshare⟩ := h
  constructor <;> simp only [hu, hp, hs, hr, hv] <;> assumption

/-- At the start of a frame. -/
theorem of_fresh (hK : 0 ≤ K) (hg : m.gauges = ⟨0, 0, 4423680, 13360⟩) (hv : m.pacer.inVblank = false)
    (hu : m.utilisation = {}) : Metered K m := by
  have hp : m.primaryTicks = 0 := congrArg Gauges.primary hg
  have hs : m.secondaryTicks = 0 := congrArg Gauges.secondary hg
  have hr : m.pacer.remaining = 4423680 := congrArg Gauges.pacer hg
  refine ⟨?_, ?_, ?_, fun hblanking => ?_, ?_⟩
  · simp only [hu]
    omega
  · simp only [hu]
    omega
  · simp only [hu, hr]
    omega
  · rw [hv] at hblanking
    cases hblanking
  · simp only [hu, hp, hs]
    omega

theorem mixIfDue (h : Metered K m) : Metered K m.mixIfDue := by
  unfold Machine.mixIfDue
  split
  · exact ⟨h.primary, h.secondary, h.frame, h.blanking, h.share⟩
  · exact h

/-- With the start of a vertical blank the counters start again, and nothing is owed but what the processors
carry on. -/
theorem pollPacer (h : Metered K m) (hl : IsPaced m) (hg : Graded K i j m.gauges) (hj : j ≤ K) :
    Metered K m.pollPacer := by
  obtain ⟨hon, hblank⟩ := hl
  rw [onscreen_eq] at hon
  rw [blanking_eq] at hblank
  obtain ⟨crossing, hcrosses⟩ := crosses_pollPacer m
  have hpacer : m.pollPacer.pacer = m.pacer.poll.2 := hcrosses.pacer
  have hgauges := gauges_pollPacer m
  have hp : m.pollPacer.primaryTicks = m.primaryTicks := congrArg Gauges.primary hgauges
  have hs : m.pollPacer.secondaryTicks = m.secondaryTicks := congrArg Gauges.secondary hgauges
  have hcounters := utilisation_pollPacer m
  have hgraded := hg.primary
  have hgraded' := hg.secondary
  dsimp only [Core.gauges] at hgraded hgraded'
  obtain ⟨hprimary, hsecondary, hframe, hblanking, hshare⟩ := h
  obtain ⟨_, hpoll⟩ | ⟨hspent, hv, hpoll⟩ | ⟨hspent, hv, hpoll⟩ := m.pacer.poll_cases
  · rw [hpoll] at hpacer hcounters
    constructor <;> simp only [hpacer, hcounters, hp, hs, reduceCtorEq, if_false] <;> assumption
  · have hlate := hblanking hv
    rw [hpoll] at hpacer hcounters
    simp only [Option.some.injEq, reduceCtorEq, if_false] at hcounters
    refine ⟨by rwa [hcounters], by rwa [hcounters], ?_, fun hv' => ?_, by rwa [hcounters, hp, hs]⟩
    · rw [hpacer, hcounters]
      dsimp only
      omega
    · rw [hpacer] at hv'
      cases hv'
  · rw [hpoll] at hpacer hcounters
    rw [if_pos rfl] at hcounters
    constructor <;> simp only [hpacer, hcounters, hp, hs, true_implies] <;> omega

theorem grant (h : Metered K m) : Metered K m.grant := by
  obtain ⟨hprimary, hsecondary, hframe, hblanking, hshare⟩ := h
  refine ⟨hprimary, hsecondary, hframe, hblanking, ?_⟩
  change 8 * (m.utilisation.secondaryTotal + (m.secondaryTicks + Clock.secondaryQuantum)) ≤
    m.utilisation.primaryTotal + (m.primaryTicks + Clock.quantum) + 4800 * (K + 1)
  rw [secondaryQuantum_eq, Clock.quantum]
  omega

theorem charged {used used' : Int} (h : Metered K m) (hc : Charged m m' used used') : Metered K m' := by
  have hp := hc.primaryTicks
  have hs := hc.secondaryTicks
  have hr := hc.remaining
  obtain ⟨idle, idle', hidle, hidle', hcounters⟩ := hc.counters
  obtain ⟨hprimary, hsecondary, hframe, hblanking, hshare⟩ := h
  simp only [Utilisation.chargePrimary, Utilisation.chargeSecondary] at hcounters
  refine ⟨?_, ?_, ?_, fun hv => ?_, ?_⟩
  · simp only [hcounters]
    omega
  · simp only [hcounters]
    omega
  · simp only [hcounters, hr]
    omega
  · rw [hc.inVblank] at hv
    have hlate := hblanking hv
    simp only [hcounters, hr]
    omega
  · simp only [hcounters, hp, hs]
    omega

/-- Then the counters have room in their words. -/
theorem fits (h : Metered K m) (hr : InRange K m.gauges) (hK : K ≤ 447391) : m.Fits := by
  have hgauges := hr.fits hK
  obtain ⟨hp, hs, hpacer, -⟩ := hr
  rw [secondaryQuantum_eq] at hs
  simp only [Clock.quantum, Core.gauges] at hp hs hpacer
  obtain ⟨hprimary, hsecondary, hframe, -, hshare⟩ := h
  refine ⟨hgauges, ?_⟩
  constructor <;> unfold IsI64 <;> omega

end Metered

/-! ### Iterations -/

theorem runs_of_callsInPrimary (hn : Runs m n) (h : CallsIn (·.primaryTicks) callPrimary n m') :
    Runs m m' ∧ 0 < m'.primaryTicks := by
  induction h with
  | now hpos => exact ⟨hn, hpos⟩
  | later hpos hc _ ih =>
    have hcall := hn.primary hpos
    rw [hc] at hcall
    exact ih hcall

theorem runs_of_callsInSecondary (hn : Runs m n) (h : CallsIn (·.secondaryTicks) callSecondary n m') :
    Runs m m' ∧ 0 < m'.secondaryTicks := by
  induction h with
  | now hpos => exact ⟨hn, hpos⟩
  | later hpos hc _ ih =>
    have hcall := hn.secondary hpos
    rw [hc] at hcall
    exact ih hcall

section Iterations

variable {T : Traits k} (hT : T.Kept) (hprimary : Processor.Tame T.primary)
  (hsecondary : Processor.Tame T.secondary) (h : Has T m) (hl : IsPaced m) (hg : Graded K i j m.gauges) (hj : j ≤ K)
  (hm : Metered K m)
include hl hg hj hm

theorem metered_prepare : Metered K m.prepare :=
  (hm.mixIfDue.pollPacer (isPaced_mixIfDue hl) (graded_mixIfDue hg) hj).grant

include hT hprimary hsecondary h

theorem Runs.metered (hn : Runs m n) : Metered K n := by
  induction hn with
  | granted => exact metered_prepare hl hg hj hm
  | primary hn hpos ih =>
    obtain ⟨_, hc⟩ := charged_callPrimary hprimary (hn.has hT h) hpos
    exact ih.charged hc
  | secondary hn hpos ih =>
    obtain ⟨_, hc⟩ := charged_callSecondary hsecondary (hn.has hT h) hpos
    exact ih.charged hc

theorem Within.metered (hn : Within m n) : Metered K n := by
  cases hn with
  | start => exact hm
  | mixed => exact hm.mixIfDue
  | crossed => exact hm.mixIfDue.pollPacer (isPaced_mixIfDue hl) (graded_mixIfDue hg) hj
  | runs hn => exact hn.metered hT hprimary hsecondary h hl hg hj hm

end Iterations

/-- It is enough that everything has room in its words all through an iteration. -/
theorem inWords_of_within (hfits : ∀ n, Within m n → n.Fits ∧ ∀ v ∈ n.allFigures, IsI32 v) : InWords m where
  mixed := (hfits _ .mixed).1
  crossed := (hfits _ .crossed).1
  granted := (hfits _ (.runs .granted)).1
  primary a ha := by
    obtain ⟨hruns, hpos⟩ := runs_of_callsInPrimary .granted ha
    refine ⟨fun v hv => (hfits a (.runs hruns)).2 v ?_, (hfits _ (.runs (hruns.primary hpos))).1⟩
    rw [allFigures, if_pos hpos]
    exact List.mem_append_left _ hv
  secondary m₁ a h₁ ha := by
    obtain ⟨hruns, hpos⟩ := runs_of_callsInSecondary (runs_of_primaryPart .granted h₁) ha
    refine ⟨fun v hv => (hfits a (.runs hruns)).2 v ?_, (hfits _ (.runs (hruns.secondary hpos))).1⟩
    rw [allFigures, if_pos (c := 0 < a.secondaryTicks) hpos]
    exact List.mem_append_right _ hv

/-! ### Courses -/

section Courses

variable {passages earlier : List (Passage (Machine k) (Action k))} {u : UnitId}

theorem streak_le_append (u : UnitId) (later earlier : List (Passage (Machine k) (Action k))) :
    streak u later ≤ streak u (later ++ earlier) := by
  induction later with
  | nil => exact Nat.zero_le _
  | cons x later ih =>
    obtain ⟨m, a, m'⟩ := x
    cases a with
    | iteration r =>
      rw [List.cons_append, streak_of_iteration, streak_of_iteration]
      split <;> omega
    | _ => exact ih

/-- If iterations are seldom cut short in a row, they are so since any reset. -/
theorem SeldomCut.recent {limit : Nat} (h : SeldomCut limit passages) : SeldomCut limit (recent passages) := by
  intro u hu earlier he
  obtain ⟨later, hlater⟩ := he
  have hsplit : later ++ (earlier ++ passages.dropWhile fun x => !x.action.resets x.before) = passages := by
    rw [← List.append_assoc, hlater]
    exact List.takeWhile_append_dropWhile
  exact Nat.le_trans (streak_le_append u earlier _) (h u hu _ ⟨later, hsplit⟩)

variable {number blocks limit : Nat} {hardware : Hardware k} {s : Surroundings k} {P S : k.Cpu → Prop}
  (hP : Processor.Tame P) (hS : Processor.Tame S) (hprimary : P hardware.primary) (hsecondary : S hardware.secondary)
include hP hS hprimary hsecondary

theorem metered_within (h : Course Step (ofHardware number hardware blocks s) passages m)
    (hcut : SeldomCut limit passages) (hm : Metered limit m) (hn : Within m n) : Metered limit n :=
  have hlimit : (streak .secondary (recent passages) : Int) ≤ limit :=
    Int.ofNat_le.mpr (hcut.recent .secondary rfl _ (List.suffix_refl _))
  hn.metered (tame_kept hP hS) hP hS (has_tame hP hS hprimary hsecondary h) (isPaced_of_course h)
    (graded_tame hP hS hprimary hsecondary h hcut.recent) hlimit hm

theorem metered_of_course (h : Course Step (ofHardware number hardware blocks s) passages m)
    (hcut : SeldomCut limit passages) : Metered limit m := by
  induction h with
  | start =>
    have hg : (ofHardware number hardware blocks s).gauges = _ := gauges_of_fresh ⟨rfl, rfl⟩
    refine .of_fresh (Int.natCast_nonneg limit) hg ?_ (utilisation_ofHardware number blocks hardware s)
    exact (fresh_resetAll (clampBlocks_pos blocks)).onscreen
  | @step passages m a m' before hs ih =>
    have hm := ih hcut.tail
    cases hr : a.resets m with
    | true =>
      obtain ⟨rfl, hpaused, rfl⟩ := eq_reset_of_resets hs hr
      have hfresh := fresh_of_resets hs hr (blockCount_pos_of_course before)
      have hg : m.reset.gauges = m.resetAll.gauges := by
        unfold reset
        rw [hpaused]
        rfl
      rw [gauges_of_fresh (isPaced_of_course before)] at hg
      exact .of_fresh (Int.natCast_nonneg limit) hg hfresh.onscreen (utilisation_reset hpaused)
    | false =>
      obtain ⟨r, rfl⟩ | hi := iteration_or_not a
      · cases hs with
        | iteration h =>
          obtain ⟨n, hn, hclocks⟩ := runs_of_iteration h
          have hmetered := metered_within hP hS hprimary hsecondary before hcut.tail hm (.runs hn)
          exact hmetered.of_eq (gauges_of_clocks hclocks) (congrArg (·.pacer.inVblank) hclocks)
            (congrArg Clocks.utilisation hclocks)
      · have hquiet := hs.quiet hr hi
        exact hm.of_eq (gauges_of_quiet hquiet) (by rw [hquiet.pacer]) (hs.utilisation hi hr)

/-- Processors that never use up more than they are offered keep a machine in its words, as long as only so many
iterations in a row are cut short for them. -/
theorem wordCourse_of_seldomCut (h : Course Step (ofHardware number hardware blocks s) passages m)
    (hcut : SeldomCut limit passages) (hfew : limit ≤ 447391) :
    Course WordStep (ofHardware number hardware blocks s) passages m := by
  induction h with
  | start => exact .start
  | @step passages m a m' before hs ih =>
    refine (ih hcut.tail).step ⟨hs, fun r _ => inWords_of_within fun n hn => ?_⟩
    have hmetered := metered_within hP hS hprimary hsecondary before hcut.tail
      (metered_of_course hP hS hprimary hsecondary before hcut.tail) hn
    have hrange := inRange_tame hP hS hprimary hsecondary before hcut.tail.recent hn
    have hfigures := figures_tame hP hS hprimary hsecondary before hcut.tail.recent hn
    exact ⟨hmetered.fits hrange (by omega), fun v hv => isI32_of_bounds (hfigures v hv) (by omega)⟩

end Courses

/-- A run of nothing but iterations is as long as there are iterations. -/
theorem iterations_eq_length {passages : List (Passage (Machine k) (Action k))}
    (h : ∀ x ∈ passages, x.action = .iteration none) : (history (recent passages)).iterations = passages.length := by
  induction passages with
  | nil => rfl
  | cons x passages ih =>
    have hx := h x List.mem_cons_self
    rw [recent_of_not_resets (by rw [hx]; rfl), iterations_of_iteration hx,
      ih fun y hy => h y (List.mem_cons_of_mem x hy)]
    rfl

end Machine

namespace Scripted

/-- A machine of diligent processors makes so many iterations in words. -/
theorem wordCourse_of_iterations (c : Conduct) {n : Nat} (hn : n ≤ 447391) : ∃ passages m,
    Course Machine.WordStep (bare c) passages m ∧ (∀ x ∈ passages, x.action = .iteration none) ∧
    (Machine.history (Machine.recent passages)).iterations = n ∧
    ∀ u : UnitId, u.isVector = false → Machine.Undisturbed u (Machine.recent passages) := by
  obtain ⟨passages, m, hcourse, hactions, hiterations, hu⟩ := course_of_iterations c n
  have hlength : passages.length = n := by
    have h := Machine.iterations_eq_length hactions
    omega
  have htame := Cpu.diligent_reliable.tame
  have hwords := Machine.wordCourse_of_seldomCut htame htame ⟨rfl, rfl, rfl⟩ ⟨rfl, rfl, rfl⟩ hcourse
    (Machine.seldomCut_of_length (Nat.le_of_eq hlength)) hn
  exact ⟨passages, m, hwords, hactions, hiterations, hu⟩

end Scripted

end Tandem
