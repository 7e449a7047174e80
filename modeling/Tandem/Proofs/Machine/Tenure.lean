import Tandem.Proofs.Machine.Anatomy

/-!
The lives of graphics handlers. A handler is connected as soon as it has been built, and released just
before it is dropped; in between it is used. There is one slot, so that one life follows another.
-/
namespace Tandem

namespace Call

/-- All calls to a graphics handler that is still in its slot, oldest first. -/
def IsOpenLife (life : List Call) : Prop :=
  ∃ number uses, life = [.built .graphics, .connect number] ++ uses ∧ ∀ c ∈ uses, c.isUse = true

/-- All calls to a graphics handler that is gone, oldest first. -/
def IsLife (life : List Call) : Prop :=
  ∃ number uses, life = [.built .graphics, .connect number] ++ uses ++ [.release, .dropped .graphics] ∧
    ∀ c ∈ uses, c.isUse = true

/-- One life after another, and what there is so far of the life of the handler in the slot. -/
def Attended (attached : Bool) (calls : List Call) : Prop :=
  ∃ (lives : List (List Call)) (current : List Call), calls.reverse.filter isGraphic = lives.flatten ++ current ∧
    (∀ life ∈ lives, IsLife life) ∧ if attached then IsOpenLife current else current = []

theorem Attended.nil : Attended false [] := ⟨[], [], rfl, by simp, rfl⟩

theorem Attended.lives {calls : List Call} (h : Attended false calls) :
    ∃ lives : List (List Call), calls.reverse.filter isGraphic = lives.flatten ∧ ∀ life ∈ lives, IsLife life := by
  obtain ⟨lives, current, hcalls, hlives, rfl⟩ := h
  exact ⟨lives, by rw [hcalls, List.append_nil], hlives⟩

section Kinds

variable {c : Call}

theorem not_isGraphic_of_isMixing (h : c.isMixing = true) : c.isGraphic = false := by
  cases c <;> first | rfl | cases h

theorem not_isGraphic_of_isSignal (h : c.isSignal = true) : c.isGraphic = false := by
  cases c <;> first | rfl | cases h

theorem not_isGraphic_of_isEffort (h : c.isEffort = true) : c.isGraphic = false := by
  cases c <;> first | rfl | cases h

theorem eq_drawVblank (hbeat : c.isBeat = true) (hg : c.isGraphic = true) : ∃ begins, c = .drawVblank begins := by
  cases c with
  | drawVblank begins => exact ⟨begins, rfl⟩
  | vblank => cases hg
  | updateInput => cases hg
  | _ => cases hbeat

end Kinds

theorem filter_append_calls (new calls : List Call) : (new ++ calls).reverse.filter isGraphic =
    calls.reverse.filter isGraphic ++ new.reverse.filter isGraphic := by
  rw [List.reverse_append, List.filter_append]

end Call

namespace Machine

open Call Devices

variable {k : Console} {m m₁ m' : Machine k}

/-- How the graphics slot is filled and emptied. -/
inductive Tenure (m m' : Machine k) : Prop
  | stays (h : Tends m m')
  | comes (hbefore : m.devices.graphics.isSome = false) (hafter : m'.devices.graphics.isSome = true)
      (number : Nat) (hcalls : m'.calls = [.connect number, .built .graphics] ++ m.calls)
  | goes (hbefore : m.devices.graphics.isSome = true) (hafter : m'.devices.graphics.isSome = false)
      (new : List Call) (hcalls : m'.calls = new ++ ([.dropped .graphics, .release] ++ m.calls))
      (hnew : ∀ c ∈ new, c.isGraphic = false)

/-- Lives go on, begin and end, each with the calls that belong there. -/
theorem Tenure.attended (ht : Tenure m m') (h : Attended m.devices.graphics.isSome m.calls) :
    Attended m'.devices.graphics.isSome m'.calls := by
  obtain ⟨lives, current, hcalls, hlives, hcurrent⟩ := h
  cases ht with
  | stays h =>
    obtain ⟨new, hc, hnew⟩ := h.journal
    rw [h.attached, hc]
    refine ⟨lives, current ++ new.reverse.filter isGraphic, ?_, hlives, ?_⟩
    · rw [filter_append_calls, hcalls, List.append_assoc]
    · have huse : ∀ c ∈ new.reverse.filter isGraphic, c.isUse = true ∧ m.devices.graphics.isSome = true := by
        intro c hc
        obtain ⟨hmem, hgraphic⟩ := List.mem_filter.mp hc
        exact hnew c (List.mem_reverse.mp hmem) hgraphic
      cases ha : m.devices.graphics.isSome with
      | true =>
        rw [ha] at hcurrent
        obtain ⟨number, uses, rfl, huses⟩ := hcurrent
        refine ⟨number, uses ++ new.reverse.filter isGraphic, by simp, fun c hc => ?_⟩
        cases List.mem_append.mp hc with
        | inl hc => exact huses c hc
        | inr hc => exact (huse c hc).1
      | false =>
        rw [ha] at hcurrent
        have hnone : new.reverse.filter isGraphic = [] := by
          rw [List.eq_nil_iff_forall_not_mem]
          intro c hc
          have hattached := (huse c hc).2
          rw [ha] at hattached
          cases hattached
        have hnil : current = [] := hcurrent
        simp [hnil, hnone]
  | comes hbefore hafter number hc =>
    rw [hbefore] at hcurrent
    have hnil : current = [] := hcurrent
    rw [hafter, hc]
    refine ⟨lives, [.built .graphics, .connect number], ?_, hlives, number, [], rfl, by simp⟩
    rw [filter_append_calls, hcalls, hnil, List.append_nil]
    rfl
  | goes hbefore hafter new hc hnew =>
    rw [hbefore] at hcurrent
    obtain ⟨number, uses, rfl, huses⟩ := hcurrent
    have hnone : new.reverse.filter isGraphic = [] := filter_reverse_eq_nil hnew
    rw [hafter, hc]
    refine ⟨lives ++ [[.built .graphics, .connect number] ++ uses ++ [.release, .dropped .graphics]], [], ?_, ?_,
      rfl⟩
    · rw [filter_append_calls, filter_append_calls, hcalls, hnone, List.flatten_append]
      simp [isGraphic]
    · intro life hl
      cases List.mem_append.mp hl with
      | inl hl => exact hlives life hl
      | inr hl =>
        rw [List.mem_singleton.mp hl]
        exact ⟨number, uses, rfl, huses⟩

theorem Tends.attended (ht : Tends m m') (h : Attended m.devices.graphics.isSome m.calls) :
    Attended m'.devices.graphics.isSome m'.calls := (Tenure.stays ht).attended h

/-! ### Requests -/

/-- Every graphics handler has been treated as it should, the one in the slot so far. -/
abbrev Tended (m : Machine k) : Prop := Attended m.devices.graphics.isSome m.calls

section Requests

variable (h : Tended m)
include h

theorem tended_vacate (kind : HandlerKind) : Tended (m.vacate kind) := by
  by_cases hk : kind = .graphics
  · subst hk
    cases ha : m.devices.isAttached .graphics with
    | false => rwa [vacate_of_not_attached m ha]
    | true =>
      obtain ⟨lines, hv⟩ := vacate_of_attached m ha
      rw [hv]
      exact (Tenure.goes ha rfl [] rfl (by simp)).attended h
  · exact (interlude_vacate m hk).toTends.attended h

theorem tended_detach (kind : HandlerKind) : Tended (m.detach kind) := by
  rw [detach_eq]
  split
  · exact tended_vacate h kind
  · exact tended_vacate h kind

theorem tended_detachAll : Tended m.detachAll :=
  tended_vacate (tended_vacate (tended_vacate h .graphics) .input) .audio

theorem tended_attachGraphics (b : Builder k k.Graphics) : Tended (m.attachGraphics b).2 := by
  unfold attachGraphics
  split
  · exact h
  · exact h
  next g hb =>
    have hnone : m.devices.graphics.isSome = false := by
      unfold Devices.build at hb
      split at hb
      · cases hb
      next hg => rw [hg]; rfl
    exact (Tenure.comes hnone rfl m.number rfl).attended h

theorem tended_serve (r : Request k) : Tended (m.serve r).2 := by
  by_cases hr : r.isRoutine = true
  · exact (interlude_serve m r hr).toTends.attended h
  cases r with
  | attachGraphics b =>
    rw [serve, built_snd]
    exact tended_attachGraphics h b
  | detach kind => exact tended_detach h kind
  | terminate => exact tended_detachAll h
  | reset => exact (renewal_reset m).1.toTends.attended h
  | reloadBlockCount n => exact (renewal_reloadBlockCount m n).1.toTends.attended h
  | _ => exact absurd rfl hr

end Requests

/-! ### Iterations -/

/-- Calls that have nothing to do with the graphics handler. -/
theorem Tends.of_calls {new : List Call} (hs : m'.devices.graphics.isSome = m.devices.graphics.isSome)
    (hc : m'.calls = new ++ m.calls) (h : ∀ c ∈ new, c.isGraphic = false) : Tends m m' := by
  refine ⟨hs, new, hc, fun c hn hg => ?_⟩
  rw [h c hn] at hg
  cases hg

theorem continues_mixIfDue (m : Machine k) : Continues m m.mixIfDue := by
  obtain ⟨mixing, h⟩ := mixes_mixIfDue m
  exact ⟨.of_calls (by rw [h.rest.2.2.2.1]) h.calls fun c hc => not_isGraphic_of_isMixing (h.kind c hc), h.ended⟩

theorem isSome_of_drawVblank {edge : Option VblankEdge} {begins : Bool}
    (h : .drawVblank begins ∈ m.tidings edge) : m.devices.graphics.isSome = true := by
  cases hg : m.devices.graphics with
  | some g => rfl
  | none =>
    cases edge with
    | none => cases h
    | some edge => cases edge <;> simp [tidings, hg] at h

theorem continues_pollPacer (m : Machine k) : Continues m m.pollPacer := by
  obtain ⟨crossing, h⟩ := crosses_pollPacer m
  have hsome : m.pollPacer.devices.graphics.isSome = m.devices.graphics.isSome := by
    rw [h.graphics]
    cases m.pacer.poll.1 with
    | none => rfl
    | some edge => cases edge <;> simp [attend]
  refine ⟨⟨hsome, crossing, h.calls, fun c hc hg => ?_⟩, h.ended⟩
  cases h.kind c hc with
  | inl hbeat =>
    obtain ⟨begins, rfl⟩ := eq_drawVblank hbeat hg
    have hmem : .drawVblank begins ∈ crossing.reverse.filter isBeat :=
      List.mem_filter.mpr ⟨List.mem_reverse.mpr hc, rfl⟩
    rw [h.tidings] at hmem
    exact ⟨rfl, isSome_of_drawVblank hmem⟩
  | inr hsignal =>
    rw [not_isGraphic_of_isSignal hsignal] at hg
    cases hg

theorem Labours.continues (h : Labours m m') : Continues m m' := by
  obtain ⟨running, hc, hk⟩ := h.journal
  exact ⟨.of_calls (by rw [h.devices]) hc fun c hn => not_isGraphic_of_isEffort (hk c hn), h.ended⟩

theorem continues_prepare (m : Machine k) : Continues m m.prepare :=
  ((continues_mixIfDue m).trans (continues_pollPacer _)).trans (labours_grant _).continues

/-! ### Tearing down -/

/-- What is left of a machine when its thread has come to its end. -/
def tornDown (m : Machine k) : Machine k := { m.detachAll with capture := m.capture.abandon }.eject

theorem shutDown_eq (m : Machine k) : m.shutDown = (m.tornDown.hardware, m.tornDown.toSurroundings) := rfl

theorem emptied_of_not_attached {d : Devices k} {kind : HandlerKind} (h : d.isAttached kind = false) :
    d.emptied kind = d := by
  obtain ⟨graphics, input, audio⟩ := d
  cases kind with
  | graphics =>
    cases graphics with
    | none => rfl
    | some _ => cases h
  | input =>
    cases input with
    | none => rfl
    | some _ => cases h
  | audio =>
    cases audio with
    | none => rfl
    | some _ => cases h

/-- All but the slot and the journal stays as it is. -/
theorem vacate_eq (m : Machine k) (kind : HandlerKind) : ∃ calls lines,
    m.vacate kind = { m with devices := m.devices.emptied kind, calls, lines } := by
  cases h : m.devices.isAttached kind with
  | true =>
    obtain ⟨lines, hv⟩ := vacate_of_attached m h
    exact ⟨_, _, hv⟩
  | false =>
    refine ⟨m.calls, m.lines, ?_⟩
    rw [vacate_of_not_attached m h, emptied_of_not_attached h]

theorem detachAll_eq_emptied (m : Machine k) :
    ∃ calls lines, m.detachAll = { m with devices := {}, calls, lines } := by
  obtain ⟨calls₁, lines₁, h₁⟩ := vacate_eq m .graphics
  obtain ⟨calls₂, lines₂, h₂⟩ := vacate_eq (m.vacate .graphics) .input
  obtain ⟨calls₃, lines₃, h₃⟩ := vacate_eq ((m.vacate .graphics).vacate .input) .audio
  refine ⟨calls₃, lines₃, ?_⟩
  rw [detachAll_eq, h₃, h₂, h₁]
  rfl

theorem eject_eq (m : Machine k) : ∃ lines, m.eject = { m with
    tray := m.tray.clear
    hardware := m.hardware.setMedia none
    calls := .media .secondary none :: .media .primary none :: m.calls
    lines } := by
  unfold eject
  dsimp only
  split
  · exact ⟨_, rfl⟩
  · exact ⟨_, rfl⟩

/-- A machine that is torn down has no handler, no media, and no recording. Its hardware is as it was, but
without media, and of that it was told last. -/
theorem tornDown_eq (m : Machine k) : ∃ calls lines, m.tornDown = { m with
    devices := {}
    tray := m.tray.clear
    hardware := m.hardware.setMedia none
    capture := m.capture.abandon
    calls := .media .secondary none :: .media .primary none :: calls
    lines } := by
  obtain ⟨calls, lines, hd⟩ := detachAll_eq_emptied m
  obtain ⟨lines', he⟩ := eject_eq { m.detachAll with capture := m.capture.abandon }
  refine ⟨calls, lines', ?_⟩
  rw [tornDown, he, hd]

theorem tended_tornDown (h : Tended m) : Tended m.tornDown := by
  have hdetached : Tended { m.detachAll with capture := m.capture.abandon } := tended_detachAll h
  exact (Interlude.eject _).toTends.attended hdetached

end Machine

end Tandem
