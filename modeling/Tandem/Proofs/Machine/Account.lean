import Tandem.Proofs.Machine.Quiet

/-!
An account of the time that passes from one state of a machine to another: every tick that a processor
counts is charged to its budget and to the pacer or the mixer, and clocks the vector units.
-/
namespace Tandem

def UnitId.isVector : UnitId → Bool
  | .vector0 | .vector1 => true
  | .primary | .secondary => false

/-- By how much a processor overshot what it was offered. -/
def Call.overshot (u : UnitId) : Call → Int
  | .execute v budget (.ran ticks) => if v = u then ticks - budget else 0
  | _ => 0

namespace Machine

variable {k : Console}

open Call

/-- What happened between two states while some units were stepped: so many quanta were granted, and
the new calls, newest first, say where they went. -/
structure Account (stepping : Stepping) (grants : Int) (new : List Call) (m m' : Machine k) : Prop where
  calls : m'.calls = new ++ m.calls
  primary : m'.primaryTicks + total (counted .primary) new =
    m.primaryTicks + Clock.quantum * grants
  secondary : m'.secondaryTicks + total (counted .secondary) new =
    m.secondaryTicks + Clock.secondaryQuantum * grants
  onscreen : m'.pacer.onscreen = m.pacer.onscreen
  blanking : m'.pacer.blanking = m.pacer.blanking
  pacer : m'.pacer.remaining + total (counted .primary) new =
    m.pacer.remaining + m.pacer.blanking * total (crossed true) new +
      m.pacer.onscreen * total (crossed false) new
  mixer : m'.mixer.budget + total (counted .secondary) new =
    m.mixer.budget + blockTicks * total blocks new
  vectors : ∀ u, u.isVector → total (clocked u) new =
    total (if stepping.has u then passes else counted .primary) new
  primaryFloor : ∀ slack, 0 ≤ slack → (∀ c ∈ new, c.overshot .primary ≤ slack) →
    -slack ≤ m.primaryTicks → -slack ≤ m'.primaryTicks
  secondaryFloor : ∀ slack, 0 ≤ slack → (∀ c ∈ new, c.overshot .secondary ≤ slack) →
    -slack ≤ m.secondaryTicks → -slack ≤ m'.secondaryTicks

namespace Account

variable {st : Stepping} {m m₁ m₂ : Machine k}

theorem trans {a b : Int} {new₁ new₂ : List Call} (h₁ : Account st a new₁ m m₁)
    (h₂ : Account st b new₂ m₁ m₂) : Account st (a + b) (new₂ ++ new₁) m m₂ := by
  have split {P : Call → Prop} (h : ∀ c ∈ new₂ ++ new₁, P c) : (∀ c ∈ new₁, P c) ∧ ∀ c ∈ new₂, P c :=
    ⟨fun c hc => h c (List.mem_append_right _ hc), fun c hc => h c (List.mem_append_left _ hc)⟩
  refine ⟨?_, ?_, ?_, h₂.onscreen.trans h₁.onscreen, h₂.blanking.trans h₁.blanking, ?_, ?_,
    fun u hu => ?_, ?_, ?_⟩
  · rw [h₂.calls, h₁.calls, List.append_assoc]
  · have e₁ := h₁.primary
    have e₂ := h₂.primary
    rw [total_append, Int.mul_add]
    omega
  · have e₁ := h₁.secondary
    have e₂ := h₂.secondary
    rw [total_append, Int.mul_add]
    omega
  · have e₁ := h₁.pacer
    have e₂ := h₂.pacer
    rw [h₁.onscreen, h₁.blanking] at e₂
    simp only [total_append, Int.mul_add]
    omega
  · have e₁ := h₁.mixer
    have e₂ := h₂.mixer
    simp only [total_append, Int.mul_add]
    omega
  · rw [total_append, total_append, h₁.vectors u hu, h₂.vectors u hu]
  · intro slack hs hc hm
    obtain ⟨hc₁, hc₂⟩ := split hc
    exact h₂.primaryFloor slack hs hc₂ (h₁.primaryFloor slack hs hc₁ hm)
  · intro slack hs hc hm
    obtain ⟨hc₁, hc₂⟩ := split hc
    exact h₂.secondaryFloor slack hs hc₂ (h₁.secondaryFloor slack hs hc₁ hm)

end Account

/-- There is an account of what happened between two states. -/
def Accounted (st : Stepping) (grants : Int) (m m' : Machine k) : Prop :=
  ∃ new, Account st grants new m m'

namespace Accounted

variable {st : Stepping} {m m₁ m₂ : Machine k} {a : Int}

theorem of_quiet (h : Quiet m m₁) : Accounted st 0 m m₁ := by
  obtain ⟨new, hc, hu⟩ := h.journal
  have zero {f : Call → Int} (hf : ∀ c : Call, c.isTimed = false → f c = 0) : total f new = 0 :=
    total_eq_zero fun c hn => hf c (hu c hn)
  have hp := zero fun c h => counted_untimed h .primary
  have hs := zero fun c h => counted_untimed h .secondary
  refine ⟨new, hc, ?_, ?_, by rw [h.pacer], by rw [h.pacer], ?_, ?_, fun u _ => ?_, ?_, ?_⟩
  · rw [hp, h.primary]; omega
  · rw [hs, h.secondary]; omega
  · rw [hp, h.pacer, zero fun c h => crossed_untimed h true, zero fun c h => crossed_untimed h false]
    omega
  · rw [hs, h.budget, zero fun c h => blocks_untimed h]
    omega
  · rw [zero fun c h => clocked_untimed h u]
    split
    · rw [zero fun c h => passes_untimed h]
    · exact hp.symm
  · intro slack _ _ hm
    rwa [h.primary]
  · intro slack _ _ hm
    rwa [h.secondary]

theorem andThen (h₁ : Accounted st a m m₁) (h₂ : Accounted st 0 m₁ m₂) : Accounted st a m m₂ := by
  obtain ⟨new₁, h₁⟩ := h₁
  obtain ⟨new₂, h₂⟩ := h₂
  have h := h₁.trans h₂
  rw [Int.add_zero] at h
  exact ⟨_, h⟩

theorem quietly (h₁ : Accounted st a m m₁) (h₂ : Quiet m₁ m₂) : Accounted st a m m₂ :=
  h₁.andThen (of_quiet h₂)

theorem refl (m : Machine k) : Accounted st 0 m m := of_quiet (.refl m)

end Accounted

end Machine

namespace Pacer

variable {p p' : Pacer}

theorem poll_eq_none (h : p.poll = (none, p')) : p' = p := by
  unfold poll at h
  split at h
  · exact (Prod.mk.inj h).2.symm
  · split at h <;> cases h

theorem poll_eq_start (h : p.poll = (some .start, p')) :
    p' = { p with remaining := p.remaining + p.blanking, inVblank := true } := by
  unfold poll at h
  split at h
  · cases h
  · split at h
    · cases h
    · exact (Prod.mk.inj h).2.symm

theorem poll_eq_finish (h : p.poll = (some .finish, p')) :
    p' = { p with remaining := p.remaining + p.onscreen, inVblank := false } := by
  unfold poll at h
  split at h
  · cases h
  · split at h
    · exact (Prod.mk.inj h).2.symm
    · cases h

end Pacer

/-! ### Mixing -/

namespace Mixer

variable {S A : Type} [SoundCore S] [AudioHandler A]

theorem renderBlock_calls (old : Block) (s0 s1 : S) :
    (renderBlock old s0 s1).calls = [.render 0 blockSize sampleRate] ∨
      (renderBlock old s0 s1).calls =
        [.render 0 blockSize sampleRate, .render 1 blockSize sampleRate] := by
  unfold renderBlock
  dsimp only
  split
  · exact .inr rfl
  · exact .inl rfl

theorem writeBatch_calls (samples : Array Int16) (audio : A) (j : Journal) :
    ∃ new, (writeBatch samples audio j).2.calls = new ++ j.calls ∧ ∀ c ∈ new, c.isTimed = false := by
  unfold writeBatch
  dsimp only
  split
  · exact ⟨[.write sampleRate samples, .recycle], by simp [Journal.call], by simp [Call.isTimed]⟩
  · exact ⟨[.write sampleRate samples], by simp [Journal.call], by simp [Call.isTimed]⟩

theorem update_budget (d : Desk S A) : (update d).2.mixer.budget = d.mixer.budget + blockTicks := by
  unfold update
  dsimp only
  split
  · rfl
  · split <;> rfl

/-- Mixing a block is to render it and perhaps to write a batch. -/
theorem update_calls (d : Desk S A) : ∃ new rendered,
    (update d).2.journal.calls = new ++ (rendered ++ d.journal.calls) ∧ (∀ c ∈ new, c.isTimed = false) ∧
    (rendered = [.render 0 blockSize sampleRate] ∨
      rendered = [.render 1 blockSize sampleRate, .render 0 blockSize sampleRate]) := by
  unfold update
  dsimp only
  generalize hr : renderBlock _ d.sound0 d.sound1 = r
  have hcalls : r.calls.reverse = [.render 0 blockSize sampleRate] ∨
      r.calls.reverse = [.render 1 blockSize sampleRate, .render 0 blockSize sampleRate] := by
    cases hr ▸ renderBlock_calls _ d.sound0 d.sound1 with
    | inl h => exact .inl (by rw [h]; rfl)
    | inr h => exact .inr (by rw [h]; rfl)
  split
  · exact ⟨[], _, Journal.foldl_call_calls _ _, by simp, hcalls⟩
  · split
    · exact ⟨[], _, Journal.foldl_call_calls _ _, by simp, hcalls⟩
    next audio _ =>
      obtain ⟨new, hn, hu⟩ := writeBatch_calls _ audio (r.calls.foldl Journal.call d.journal)
      refine ⟨new, _, ?_, hu, hcalls⟩
      rw [← Journal.foldl_call_calls]
      exact hn

end Mixer

namespace Machine

variable {k : Console} {st : Stepping} {m m' : Machine k}

open Call

/-- Rendering a block recharges the mixer. -/
theorem account_rendered {rendered : List Call} (hc : m'.calls = rendered ++ m.calls)
    (hr : rendered = [.render 0 blockSize sampleRate] ∨
      rendered = [.render 1 blockSize sampleRate, .render 0 blockSize sampleRate])
    (hp : m'.primaryTicks = m.primaryTicks) (hs : m'.secondaryTicks = m.secondaryTicks)
    (hpacer : m'.pacer = m.pacer) (hb : m'.mixer.budget = m.mixer.budget + blockTicks) :
    Account st 0 rendered m m' := by
  refine ⟨hc, ?_, ?_, by rw [hpacer], by rw [hpacer], ?_, ?_, fun u _ => ?_, ?_, ?_⟩
  · rcases hr with rfl | rfl <;> simp [counted, hp]
  · rcases hr with rfl | rfl <;> simp [counted, hs]
  · rcases hr with rfl | rfl <;> simp [counted, crossed, hpacer]
  · rcases hr with rfl | rfl <;> simp [counted, blocks, hb]
  · rcases hr with rfl | rfl <;> split <;> simp [clocked, passes, counted]
  · intro slack _ _ hm
    rwa [hp]
  · intro slack _ _ hm
    rwa [hs]

theorem account_mixIfDue (m : Machine k) : Accounted st 0 m m.mixIfDue := by
  unfold mixIfDue
  split
  · let d : Mixer.Desk k.Voice k.Audio :=
      ⟨m.mixer, m.hardware.sound0, m.hardware.sound1, m.devices.audio, m.toJournal⟩
    obtain ⟨new, rendered, hc, hu, hr⟩ := Mixer.update_calls d
    have hrendered : Account st 0 rendered m { m with
        mixer := (Mixer.update d).2.mixer, calls := rendered ++ m.calls } :=
      account_rendered rfl hr rfl rfl rfl (Mixer.update_budget d)
    refine Accounted.quietly ⟨_, hrendered⟩ ?_
    exact ⟨rfl, rfl, rfl, rfl, new, hc, hu⟩
  · exact Accounted.refl m

/-! ### Crossing a vblank boundary -/

/-- The processors learn of a boundary, and the pacer goes on to the phase that begins there. -/
theorem account_crossed {begins : Bool}
    (hc : m'.calls = [.vblank .secondary begins, .vblank .primary begins] ++ m.calls)
    (hp : m'.primaryTicks = m.primaryTicks) (hs : m'.secondaryTicks = m.secondaryTicks)
    (hpacer : m'.pacer = { m.pacer with
      remaining := m.pacer.remaining + if begins then m.pacer.blanking else m.pacer.onscreen
      inVblank := begins })
    (hb : m'.mixer.budget = m.mixer.budget) :
    Account st 0 [.vblank .secondary begins, .vblank .primary begins] m m' := by
  refine ⟨hc, ?_, ?_, by rw [hpacer], by rw [hpacer], ?_, ?_, fun u _ => ?_, ?_, ?_⟩
  · simp [counted, hp]
  · simp [counted, hs]
  · cases begins <;> simp [counted, crossed, hpacer]
  · simp [counted, blocks, hb]
  · split <;> simp [clocked, passes, counted]
  · intro slack _ _ hm
    rwa [hp]
  · intro slack _ _ hm
    rwa [hs]

theorem account_start {p : Pacer} (h : m.pacer.poll = (some .start, p)) :
    Accounted st 0 m (cross { m with pacer := p } .start) := by
  have hp := Pacer.poll_eq_start h
  have hprocessors : Account st 0 [.vblank .secondary true, .vblank .primary true] m
      (processorsEnterVblank { m with pacer := p }) := by
    unfold processorsEnterVblank
    dsimp only
    rw [noteAll_eq, sayAll_eq]
    exact account_crossed rfl rfl rfl hp rfl
  refine Accounted.quietly ⟨_, hprocessors⟩ ?_
  exact (((still_graphicsEnterVblank _).trans (still_samplePads _)).trans (still_publish _)).toQuiet

theorem account_finish {p : Pacer} (h : m.pacer.poll = (some .finish, p)) :
    Accounted st 0 m (cross { m with pacer := p } .finish) := by
  have hp := Pacer.poll_eq_finish h
  have hprocessors : Account st 0 [.vblank .secondary false, .vblank .primary false] m { m with
      pacer := p
      hardware.primary := Processor.vblankEnd m.hardware.primary
      hardware.secondary := Processor.vblankEnd m.hardware.secondary
      calls := .vblank .secondary false :: .vblank .primary false :: m.calls } :=
    account_crossed rfl rfl rfl hp rfl
  refine Accounted.quietly ⟨_, hprocessors⟩ ?_
  unfold cross leaveVblank
  dsimp only
  split
  · exact .of_timing rfl rfl rfl rfl rfl
  next g _ => exact ⟨rfl, rfl, rfl, rfl, [.drawVblank false], rfl, by simp [Call.isTimed]⟩

theorem account_pollPacer (m : Machine k) : Accounted st 0 m m.pollPacer := by
  obtain ⟨edge, p, h⟩ : ∃ edge p, m.pacer.poll = (edge, p) := ⟨_, _, rfl⟩
  unfold pollPacer
  rw [h]
  cases edge with
  | none =>
    rw [Pacer.poll_eq_none h]
    exact Accounted.refl m
  | some edge =>
    cases edge with
    | start => exact account_start h
    | finish => exact account_finish h

theorem account_grant (m : Machine k) : Account st 1 [] m m.grant := by
  refine ⟨rfl, ?_, ?_, rfl, rfl, ?_, ?_, fun u _ => ?_, ?_, ?_⟩
  · simp [grant]
  · simp [grant]
  · simp [grant]
  · simp [grant]
  · simp
  · intro slack hs _ hm
    have hq : 0 < Clock.quantum := by decide
    have e : m.grant.primaryTicks = m.primaryTicks + Clock.quantum := rfl
    omega
  · intro slack hs _ hm
    have hq : 0 < Clock.secondaryQuantum := by decide
    have e : m.grant.secondaryTicks = m.secondaryTicks + Clock.secondaryQuantum := rfl
    omega

/-! ### Calling the processors -/

theorem account_prepare (m : Machine k) : Accounted st 1 m m.prepare := by
  obtain ⟨new₁, h₁⟩ : Accounted st 0 m m.mixIfDue := account_mixIfDue m
  obtain ⟨new₂, h₂⟩ : Accounted st 0 m.mixIfDue m.mixIfDue.pollPacer := account_pollPacer _
  exact ⟨_, (h₁.trans h₂).trans (account_grant _)⟩

section Charges

variable (m : Machine k) (ran : Int)

/-- What the primary processor is charged. -/
def primaryCharge : Int :=
  ran + if Processor.isIdle m.hardware.primary then m.primaryTicks - ran else 0

/-- What the secondary processor is charged. -/
def secondaryCharge : Int :=
  ran + if Processor.isIdle m.hardware.secondary then m.secondaryTicks - ran else 0

theorem primaryCharge_cases : m.primaryCharge ran = ran ∨ m.primaryCharge ran = m.primaryTicks := by
  unfold primaryCharge
  split
  · exact .inr (by omega)
  · exact .inl (by omega)

theorem secondaryCharge_cases :
    m.secondaryCharge ran = ran ∨ m.secondaryCharge ran = m.secondaryTicks := by
  unfold secondaryCharge
  split
  · exact .inr (by omega)
  · exact .inl (by omega)

theorem chargePrimary_pacer : (m.chargePrimary ran).pacer = m.pacer.consume (m.primaryCharge ran) := rfl

theorem chargeSecondary_mixer :
    (m.chargeSecondary ran).mixer = m.mixer.consume (m.secondaryCharge ran) := rfl

/-- The ticks charged to the primary processor are counted, and clock both vector units, once. -/
theorem account_chargePrimary (hst : m.stepping = st) {budget : Int} (hb : budget ≤ m.primaryTicks) :
    Accounted st 0 m ((m.note (.execute .primary budget (.ran ran))).chargePrimary ran) := by
  let charge := m.primaryCharge ran
  have hcharge := primaryCharge_cases m ran
  let new := [Call.count .primary charge, .clock .vector1 (if m.stepping.vector1 then 1 else charge),
    .clock .vector0 (if m.stepping.vector0 then 1 else charge), .execute .primary budget (.ran ran)]
  have hp : ((m.note (.execute .primary budget (.ran ran))).chargePrimary ran).primaryTicks =
    m.primaryTicks - charge := rfl
  refine ⟨new, rfl, ?_, ?_, rfl, rfl, ?_, ?_, fun u hu => ?_, ?_, fun _ _ _ hm => hm⟩
  · rw [hp]
    simp [new, counted]
  · simp [new, counted, chargePrimary, clockVectors, noteAll, note]
  · simp [new, counted, crossed, chargePrimary_pacer, note, charge, primaryCharge]
  · simp [new, counted, blocks, chargePrimary, clockVectors, noteAll, note]
  · cases u with
    | primary => cases hu
    | secondary => cases hu
    | vector0 => cases h : st.vector0 <;> simp [new, clocked, Stepping.has, hst, h, passes, counted]
    | vector1 => cases h : st.vector1 <;> simp [new, clocked, Stepping.has, hst, h, passes, counted]
  · intro slack hs hc hm
    have ho := hc (.execute .primary budget (.ran ran)) (by simp [new])
    simp only [overshot, if_true] at ho
    rw [hp]
    omega

/-- The ticks charged to the secondary processor are counted once. -/
theorem account_chargeSecondary {budget : Int} (hb : budget ≤ m.secondaryTicks) :
    Accounted st 0 m ((m.note (.execute .secondary budget (.ran ran))).chargeSecondary ran) := by
  let charge := m.secondaryCharge ran
  have hcharge := secondaryCharge_cases m ran
  let new := [Call.count .secondary charge, .execute .secondary budget (.ran ran)]
  have hs : ((m.note (.execute .secondary budget (.ran ran))).chargeSecondary ran).secondaryTicks =
    m.secondaryTicks - charge := rfl
  refine ⟨new, rfl, ?_, ?_, rfl, rfl, ?_, ?_, fun u _ => ?_, fun _ _ _ hm => hm, ?_⟩
  · simp [new, counted, chargeSecondary, note]
  · rw [hs]
    simp [new, counted]
  · simp [new, counted, crossed, chargeSecondary, note]
  · simp [new, counted, blocks, chargeSecondary_mixer, Mixer.consume, note, charge, secondaryCharge]
  · split <;> simp [new, clocked, passes, counted]
  · intro slack hslack hc hm
    have ho := hc (.execute .secondary budget (.ran ran)) (by simp [new])
    simp only [overshot, if_true] at ho
    rw [hs]
    omega

end Charges

/-! A processor that has ticks in hand is offered some of them. -/

theorem offered_pos (stepping : Bool) {ticks : Int} (h : 0 < ticks) :
    0 < (if stepping = true then 1 else ticks) := by
  split
  · exact Int.one_pos
  · exact h

theorem offered_le (stepping : Bool) {ticks : Int} (h : 0 < ticks) :
    (if stepping = true then 1 else ticks) ≤ ticks := by
  split
  · exact h
  · exact Int.le_refl ticks

theorem account_callPrimary (hst : m.stepping = st) (hpos : 0 < m.primaryTicks) :
    Accounted st 0 m m.callPrimary.2 := by
  have hbudget := offered_le m.stepping.primary hpos
  unfold callPrimary
  generalize (if m.stepping.primary then 1 else m.primaryTicks) = budget at hbudget ⊢
  obtain ⟨result, primary, he⟩ : ∃ result primary,
    Processor.execute m.hardware.primary budget = (result, primary) := ⟨_, _, rfl⟩
  have hq : Quiet m { m with hardware.primary := primary } := .of_timing rfl rfl rfl rfl rfl
  dsimp only
  rw [he]
  cases result with
  | ran ticks =>
    have h := account_chargePrimary { m with hardware.primary := primary } ticks hst hbudget
    exact (Accounted.of_quiet hq).andThen h
  | fault e => exact Accounted.of_quiet (hq.trans (still_note _ rfl).toQuiet)
  | panic text => exact Accounted.of_quiet (hq.trans (still_note _ rfl).toQuiet)

theorem account_callSecondary (hpos : 0 < m.secondaryTicks) :
    Accounted st 0 m m.callSecondary.2 := by
  have hbudget := offered_le m.stepping.secondary hpos
  unfold callSecondary
  generalize (if m.stepping.secondary then 1 else m.secondaryTicks) = budget at hbudget ⊢
  obtain ⟨result, secondary, he⟩ : ∃ result secondary,
    Processor.execute m.hardware.secondary budget = (result, secondary) := ⟨_, _, rfl⟩
  have hq : Quiet m { m with hardware.secondary := secondary } := .of_timing rfl rfl rfl rfl rfl
  dsimp only
  rw [he]
  cases result with
  | ran ticks =>
    have h : Accounted st 0 { m with hardware.secondary := secondary } _ :=
      account_chargeSecondary _ ticks hbudget
    exact (Accounted.of_quiet hq).andThen h
  | fault e => exact Accounted.of_quiet (hq.trans (still_note _ rfl).toQuiet)
  | panic text => exact Accounted.of_quiet (hq.trans (still_note _ rfl).toQuiet)

end Machine

end Tandem
