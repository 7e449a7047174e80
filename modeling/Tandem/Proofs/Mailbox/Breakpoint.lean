import Tandem.Proofs.Mailbox.PlainCalls

/-!
How far a consumer comes that processes messages up to a breakpoint: behind the first breakpoint of the queue if
there is one, otherwise as far as a breakpoint that is sent later. At a released mailbox it stops at once.
-/
namespace Tandem

open Exchange (Event messages)

namespace Processing

variable {α : Type} {r : Manners} {q q' : Processing α} {a : Act α} {acts : List (Act α)}
  {base : List (Taken α)} {past : List (Message α)} {x y : Exchange α} {e : Event α}

/-! ### Up to the first breakpoint -/

/-- What lies before the first element with a property does not reach behind that element. -/
theorem eq_append_of_first {β : Type} {p : β → Bool} {front back past rest : List β} {b : β}
    (h : front ++ b :: back = past ++ rest) (hpast : ∀ x ∈ past, p x = false) (hb : p b = true) :
    ∃ more, front = past ++ more ∧ rest = more ++ b :: back := by
  rcases List.append_eq_append_iff.mp h with ⟨more, rfl, hrest⟩ | ⟨more, rfl, hrest⟩
  · cases more with
    | nil => exact ⟨[], by simp, by simpa using hrest.symm⟩
    | cons c more =>
      obtain ⟨rfl, -⟩ := List.cons.inj hrest
      exact absurd (hpast b (by simp)) (by simp [hb])
  · exact ⟨more, rfl, hrest⟩

/-- How a consumer fares that has a breakpoint in its queue. -/
structure UpTo (r : Manners) (before : List (Message α)) (b : Message α) (after : List (Message α))
    (acts : List (Act α)) (q : Processing α) : Prop where
  /-- The messages up to the breakpoint are served in order, each of them once. -/
  served : dealings acts <+: (before ++ [b]).flatMap service
  goesOn : q.station ≠ .stopped → GoesOn r q
  moves_le : moves acts ≤ 5 * (before.length + 1)
  /-- The last of these moves stops it. -/
  stopped_iff : q.station = .stopped ↔ moves acts = 5 * (before.length + 1)
  all_served : q.station = .stopped → dealings acts = (before ++ [b]).flatMap service
  /-- What followed the breakpoint is left, and behind it what was sent meanwhile. -/
  left : q.station = .stopped → q.exchange.mailbox.queue = after ++ accepted acts

variable {before after : List (Message α)} {b : Message α}

theorem Follows.upTo_of_running (h : Follows base (before ++ b :: after) acts q past)
    (hbase : r.nests = true ∨ base = []) (hb : b.breakpoint = true)
    (hstopped : q.station ≠ .stopped) : UpTo r before b after acts q := by
  have hpast := h.stage.breakpoint_eq_false hstopped
  have hinOrder := h.inOrder
  rw [List.append_assoc, List.cons_append, List.append_assoc] at hinOrder
  obtain ⟨more, rfl, hmore⟩ := eq_append_of_first hinOrder hpast hb
  have hmoves := h.stage.moves_lt hstopped
  have hhand : above base q.exchange <+: more ++ [b] := by
    refine List.prefix_of_prefix_length_le (List.prefix_append _ q.exchange.mailbox.queue) ?_ ?_
    · rw [hmore]
      exact ⟨after ++ accepted acts, by simp⟩
    · have := h.stage.above_le
      rw [List.length_append, List.length_singleton]
      omega
  have hlt : moves acts < 5 * ((past ++ more).length + 1) := by
    rw [List.length_append]
    omega
  refine ⟨?_, fun _ => h.goesOn hbase hstopped fun hwaiting hqueue => ?_, Nat.le_of_lt hlt, ?_, ?_, ?_⟩
  · refine h.stage.dealings_prefix.trans ?_
    obtain ⟨rest, hrest⟩ := hhand
    rw [List.append_assoc, ← hrest]
    simp
  · have hhand := h.stage.above_eq_nil (by simp [hwaiting])
    simp [hhand, hqueue] at hmore
  · exact iff_of_false hstopped (Nat.ne_of_lt hlt)
  · exact fun h => absurd h hstopped
  · exact fun h => absurd h hstopped

theorem Follows.upTo_of_stopped (h : Follows base (before ++ b :: after) acts q past)
    (hbefore : ∀ m ∈ before, m.breakpoint = false) (hb : b.breakpoint = true) (hstopped : q.station = .stopped) :
    UpTo r before b after acts q := by
  have hinOrder := h.inOrder
  cases h.stage with
  | waiting | looking | taking | begun | returned => cases hstopped
  | @stopped x front b' _ _ hhand hpast hfront hb' hdone hn =>
    subst hpast
    simp only [above_of_eq hhand, List.append_nil, List.append_assoc, List.cons_append, List.nil_append] at hinOrder
    obtain ⟨more, rfl, hmore⟩ := eq_append_of_first hinOrder hfront hb
    cases more with
    | cons c more =>
      obtain ⟨rfl, -⟩ := List.cons.inj hmore
      exact absurd (hbefore b' (by simp)) (by simp [hb'])
    | nil =>
      obtain ⟨rfl, hqueue⟩ := List.cons.inj hmore
      have hmoves : moves acts = 5 * (front.length + 1) := by simpa using hn
      rw [List.append_nil]
      exact ⟨hdone ▸ List.prefix_rfl, fun h => absurd rfl h, Nat.le_of_eq hmoves, iff_of_true rfl hmoves,
        fun _ => hdone, fun _ => hqueue⟩

theorem Follows.upTo (h : Follows base (before ++ b :: after) acts q past) (hbase : r.nests = true ∨ base = [])
    (hbefore : ∀ m ∈ before, m.breakpoint = false) (hb : b.breakpoint = true) : UpTo r before b after acts q := by
  by_cases hstopped : q.station = .stopped
  · exact h.upTo_of_stopped hbefore hb hstopped
  · exact h.upTo_of_running hbase hb hstopped

/-! ### Without a breakpoint -/

/-- A message is queued only if it was before, or is accepted now. -/
theorem queued_of_step (h : Exchange.Step r x e y) {m : Message α} (hm : m ∈ y.mailbox.queue) :
    m ∈ x.mailbox.queue ∨ e = .accepted m := by
  cases h with
  | accept payload wait breakpoint hr =>
    simp only [Mailbox.post_of_not_isReleased hr, List.mem_append, List.mem_singleton] at hm
    exact hm.imp_right fun hm => by rw [hm]
  | refuse payload wait breakpoint hr =>
    rw [Mailbox.post_of_isReleased hr] at hm
    exact .inl hm
  | take _ hpop =>
    rw [(Mailbox.pop_eq_some hpop).1]
    exact .inl (List.mem_cons_of_mem _ hm)
  | complete => exact .inl (by simpa using hm)
  | giveBack | setCanWait | panic | endReset => exact .inl hm
  | release | beginReset => cases hm

theorem hand_of_foreign (h : Exchange.Step r x e y) (he : e.isForeign = true) : y.hand = x.hand := by
  cases h with
  | accept | refuse | release | beginReset | endReset => rfl
  | take | giveBack | setCanWait | complete | panic => cases he

theorem released_of_step (h : Exchange.Step r x e y) (hy : y.mailbox.isReleased = true) :
    x.mailbox.isReleased = true ∨ ∃ dropped, e = .released dropped := by
  cases h with
  | accept payload wait breakpoint hr =>
    rw [Mailbox.post_of_not_isReleased hr] at hy
    exact .inl hy
  | refuse _ _ _ hr => exact .inl hr
  | take _ hpop =>
    rw [(Mailbox.pop_eq_some hpop).2] at hy
    exact .inl hy
  | complete _ => exact .inl (by simpa using hy)
  | giveBack | setCanWait | panic => exact .inl hy
  | release | beginReset => exact .inr ⟨_, rfl⟩
  | endReset _ => cases hy

/-- A message was queued at first, or has been accepted meanwhile. -/
def Known (x : Exchange α) (acts : List (Act α)) (m : Message α) : Prop :=
  m ∈ x.mailbox.queue ∨ .accepted m ∈ events acts

/-- The mailbox was released at first, or has been released meanwhile. -/
def BeenReleased (x : Exchange α) (acts : List (Act α)) : Prop :=
  x.mailbox.isReleased = true ∨ ∃ dropped, .released dropped ∈ events acts

theorem Known.cons {m : Message α} (h : Known x acts m) : Known x (a :: acts) m := h.imp_right (by simp +contextual)

theorem BeenReleased.cons (h : BeenReleased x acts) : BeenReleased x (a :: acts) :=
  h.imp_right fun ⟨dropped, hd⟩ => ⟨dropped, by simp [hd]⟩

/-- Where the messages come from that a consumer serves, and why it stops. -/
structure Accounted (x : Exchange α) (acts : List (Act α)) (q : Processing α) : Prop where
  queued : ∀ m ∈ q.exchange.mailbox.queue, Known x acts m
  idle : q.station ≠ .serving → q.exchange.hand = x.hand
  serving : q.station = .serving → ∃ t, q.exchange.hand = t :: x.hand ∧ Known x acts t.message
  released : q.exchange.mailbox.isReleased = true → BeenReleased x acts
  stopped : q.station = .stopped → (∃ m, Known x acts m ∧ m.breakpoint = true ∧ .completed m ∈ dealings acts) ∨
    BeenReleased x acts

theorem Accounted.start : Accounted x [] ⟨x, .waiting⟩ where
  queued _ h := .inl h
  idle _ := rfl
  serving h := by cases h
  released h := .inl h
  stopped h := by cases h

theorem Accounted.step_queued (h : Accounted x acts q) (hs : Step r q a q') :
    ∀ m ∈ q'.exchange.mailbox.queue, Known x (a :: acts) m := by
  intro m hm
  rcases hs.exchange with ⟨-, hexchange⟩ | ⟨e, he, hstep⟩
  · exact (h.queued m (hexchange ▸ hm)).cons
  · rcases queued_of_step hstep hm with hm | rfl
    · exact (h.queued m hm).cons
    · exact .inr (by simp [he])

theorem Accounted.step_released (h : Accounted x acts q) (hs : Step r q a q')
    (hr : q'.exchange.mailbox.isReleased = true) : BeenReleased x (a :: acts) := by
  rcases hs.exchange with ⟨-, hexchange⟩ | ⟨e, he, hstep⟩
  · exact (h.released (hexchange ▸ hr)).cons
  · rcases released_of_step hstep hr with hr | ⟨dropped, rfl⟩
    · exact (h.released hr).cons
    · exact .inr ⟨dropped, by simp [he]⟩

/-- The message that is completed was known. -/
theorem Accounted.completed {m : Message α} {y : Exchange α} (h : Accounted x acts q) (hserving : q.station = .serving)
    (hs : Exchange.Step r q.exchange (.completed m) y) : Known x acts m ∧ y.hand = x.hand := by
  obtain ⟨t, hhand, hknown⟩ := h.serving hserving
  obtain ⟨rfl, hrest⟩ := List.cons.inj (hhand.symm.trans (of_completed hs).1)
  exact ⟨hknown, hrest.symm⟩

theorem Accounted.step (h : Accounted x acts q) (hs : Step r q a q') : Accounted x (a :: acts) q' := by
  have hqueued := h.step_queued hs
  have hreleased := h.step_released hs
  cases hs with
  | wake => exact ⟨hqueued, fun _ => h.idle (by simp), by simp, hreleased, by simp⟩
  | @look x' =>
    refine ⟨hqueued, fun _ => h.idle (by simp), ?_, hreleased, ?_⟩ <;> cases x'.mailbox.isPending <;> simp
  | @ask x' =>
    refine ⟨hqueued, fun _ => h.idle (by simp), ?_, hreleased, fun hstopped => ?_⟩
    · cases x'.mailbox.isReleased <;> simp
    · cases hr : x'.mailbox.isReleased with
      | true => exact .inr (hreleased hr)
      | false => simp [hr] at hstopped
  | miss => exact ⟨hqueued, fun _ => h.idle (by simp), by simp, hreleased, by simp⟩
  | @take x' m y hs =>
    obtain ⟨hhand, hqueue, -⟩ := of_begun hs
    refine ⟨hqueued, by simp, fun _ => ⟨⟨m, false⟩, ?_, ?_⟩, hreleased, by simp⟩
    · rw [hhand, h.idle (by simp)]
    · exact (h.queued m (by simp [hqueue])).cons
  | @giveBack x' m y hs =>
    obtain ⟨rest, hhand, hhand', -⟩ := of_returned hs
    obtain ⟨t, ht, hknown⟩ := h.serving rfl
    obtain ⟨rfl, rfl⟩ := List.cons.inj (hhand.symm.trans ht)
    exact ⟨hqueued, by simp, fun _ => ⟨_, hhand', hknown.cons⟩, hreleased, by simp⟩
  | @complete x' m y hs =>
    obtain ⟨hknown, hhand⟩ := h.completed rfl hs
    refine ⟨hqueued, fun _ => hhand, ?_, hreleased, fun hstopped => ?_⟩
    · cases m.breakpoint <;> simp
    · cases hb : m.breakpoint with
      | true => exact .inl ⟨m, hknown.cons, hb, by simp [Act.dealings]⟩
      | false => simp [hb] at hstopped
  | @send x' m call rest e y _ _ he hs =>
    obtain ⟨t, ht, hknown⟩ := h.serving rfl
    exact ⟨hqueued, by simp, fun _ => ⟨t, (hand_of_foreign hs (isForeign_of_isUnawaited he)).trans ht, hknown.cons⟩,
      hreleased, by simp⟩
  | @interfere x' e y station he hs =>
    have hhand := hand_of_foreign hs he
    refine ⟨hqueued, fun hstation => hhand.trans (h.idle hstation), fun hstation => ?_, hreleased, fun hstopped => ?_⟩
    · obtain ⟨t, ht, hknown⟩ := h.serving hstation
      exact ⟨t, hhand.trans ht, hknown.cons⟩
    · refine (h.stopped hstopped).imp ?_ BeenReleased.cons
      rintro ⟨m, hm, hb, hcompleted⟩
      exact ⟨m, hm.cons, hb, by simp [hcompleted]⟩

theorem Accounted.run (h : Run r ⟨x, .waiting⟩ acts q) : Accounted x acts q := by
  induction h with
  | refl => exact .start
  | step _ hs ih => exact ih.step hs

/-- How a consumer fares that has no breakpoint in its queue. -/
structure Unbroken (r : Manners) (x : Exchange α) (acts : List (Act α)) (q : Processing α) : Prop where
  /-- As long as nobody releases the mailbox, messages are served in order. -/
  served : Unreleased acts → x.mailbox.isReleased = false →
    dealings acts <+: (x.mailbox.queue ++ accepted acts).flatMap service
  /-- The consumer stands still only when it has served them all. -/
  all_served : Unreleased acts → x.mailbox.isReleased = false → q.station ≠ .stopped → ¬ GoesOn r q →
    dealings acts = (x.mailbox.queue ++ accepted acts).flatMap service
  /-- It has then served a breakpoint that was sent meanwhile, or found the mailbox released. -/
  stopped : q.station = .stopped →
    (∃ m, .accepted m ∈ events acts ∧ m.breakpoint = true ∧ .completed m ∈ dealings acts) ∨ BeenReleased x acts

theorem Run.unbroken (h : Run r ⟨x, .waiting⟩ acts q) (hhand : r.nests = true ∨ x.hand = [])
    (hx : ∀ m ∈ x.mailbox.queue, m.breakpoint = false) : Unbroken r x acts q := by
  refine ⟨fun hreleased htaking => ?_, fun hreleased htaking hstopped hstill => ?_, fun hstopped => ?_⟩
  · obtain ⟨past, hfollows⟩ := (Follows.start htaking).run h hreleased
    refine hfollows.stage.dealings_prefix.trans ?_
    rw [hfollows.inOrder]
    exact ⟨q.exchange.mailbox.queue.flatMap service, by simp⟩
  · obtain ⟨past, hfollows⟩ := (Follows.start htaking).run h hreleased
    obtain ⟨hwaiting, hqueue⟩ := hfollows.eq_of_not_goesOn hhand hstopped hstill
    have hserving : q.station ≠ .serving := by simp [hwaiting]
    rw [hfollows.inOrder, hfollows.stage.above_eq_nil hserving, hqueue, hfollows.stage.dealings_eq hserving]
    simp
  · refine ((Accounted.run h).stopped hstopped).imp_left fun ⟨m, hm, hb, hcompleted⟩ => ?_
    refine ⟨m, hm.resolve_left fun hqueue => ?_, hb, hcompleted⟩
    simp [hx m hqueue] at hb

/-! ### Where the mailbox is released -/

/-- A released mailbox holds nothing. -/
theorem queue_eq_nil_of_released {es : List (Event α)} (h : Exchange.Run r {} es x) :
    x.mailbox.isReleased = true → x.mailbox.queue = [] := by
  induction h with
  | refl => exact fun _ => rfl
  | @step es y e z _ hs ih =>
    intro hr
    cases hs with
    | accept payload wait breakpoint hy =>
      rw [Mailbox.post_of_not_isReleased hy] at hr
      exact absurd (hy.symm.trans hr) Bool.false_ne_true
    | refuse payload wait breakpoint hy =>
      rw [Mailbox.post_of_isReleased hy]
      exact ih hy
    | take _ hpop =>
      obtain ⟨hqueue, hmailbox⟩ := Mailbox.pop_eq_some hpop
      rw [hmailbox] at hr
      rw [ih hr] at hqueue
      cases hqueue
    | complete _ => exact (Mailbox.complete_queue _ _).trans (ih (by simpa using hr))
    | giveBack | setCanWait | panic => exact ih hr
    | release | beginReset => rfl
    | endReset _ => cases hr

/-- A consumer at a released mailbox does nothing but find that out, in three moves. -/
structure Idle (acts : List (Act α)) (q : Processing α) : Prop where
  released : q.exchange.mailbox.isReleased = true
  queue : q.exchange.mailbox.queue = []
  dealings : dealings acts = []
  moves : (q.station = .waiting ∧ moves acts = 0) ∨ (q.station = .looking ∧ moves acts = 1) ∨
    (q.station = .asking ∧ moves acts = 2) ∨ (q.station = .stopped ∧ moves acts = 3)

theorem Idle.step (h : Idle acts q) (hs : Step r q a q') (hrearmed : .rearmed ∉ a.events) : Idle (a :: acts) q' := by
  obtain ⟨hreleased, hqueue, hdealings, hmoves⟩ := h
  cases hs with
  | wake | look | ask =>
    refine ⟨hreleased, hqueue, by simp [hdealings, Act.dealings], ?_⟩
    simp_all [Act.isOwn, Mailbox.isPending]
  | miss | take | giveBack | complete | send => simp at hmoves
  | @interfere x e y station he hs =>
    have hy : y.mailbox.isReleased = true ∧ y.mailbox.queue = [] := by
      cases hs with
      | accept payload wait breakpoint hx => exact absurd (hx.symm.trans hreleased) Bool.false_ne_true
      | refuse payload wait breakpoint hx =>
        rw [Mailbox.post_of_isReleased hx]
        exact ⟨hreleased, hqueue⟩
      | release | beginReset => exact ⟨rfl, rfl⟩
      | endReset => simp [Act.events] at hrearmed
      | take | giveBack | setCanWait | complete | panic => cases he
    exact ⟨hy.1, hy.2, by simp [hdealings, Act.dealings], by simpa [Act.isOwn] using hmoves⟩

theorem Idle.run {x : Exchange α} (hreleased : x.mailbox.isReleased = true) (hqueue : x.mailbox.queue = [])
    (h : Run r ⟨x, .waiting⟩ acts q) (hrearmed : .rearmed ∉ events acts) : Idle acts q := by
  induction h with
  | refl => exact ⟨hreleased, hqueue, rfl, .inl ⟨rfl, rfl⟩⟩
  | step _ hs ih =>
    rw [events_cons, List.mem_append, not_or] at hrearmed
    exact (ih hrearmed.2).step hs hrearmed.1

/-- How a consumer fares at a released mailbox. -/
structure AtOnce (r : Manners) (acts : List (Act α)) (q : Processing α) : Prop where
  dealings_eq_nil : dealings acts = []
  goesOn : q.station ≠ .stopped → GoesOn r q
  moves_le : moves acts ≤ 3
  stopped_iff : q.station = .stopped ↔ moves acts = 3

theorem Idle.atOnce (h : Idle acts q) : AtOnce r acts q := by
  obtain ⟨hreleased, hqueue, hdealings, hmoves⟩ := h
  obtain ⟨x, station⟩ := q
  refine ⟨hdealings, fun hstopped => ?_, ?_, ?_⟩
  · rcases hmoves with ⟨rfl, -⟩ | ⟨rfl, -⟩ | ⟨rfl, -⟩ | ⟨rfl, -⟩
    · exact ⟨.quiet, _, rfl, .wake (Mailbox.starves_of_isReleased hreleased)⟩
    · exact ⟨.quiet, _, rfl, .look⟩
    · exact ⟨.quiet, _, rfl, .ask⟩
    · exact absurd rfl hstopped
  · omega
  · rcases hmoves with ⟨rfl, hn⟩ | ⟨rfl, hn⟩ | ⟨rfl, hn⟩ | ⟨rfl, hn⟩ <;> simp [hn]

/-! ### From any state of the mailbox -/

open Mailbox (Procedure Consumer plain)
open Mailbox.Consumer (serve withMailbox)

/-- In any state to which the mailbox has come: a consumer whose calls return, and do not receive, release or
reset, processes the queue up to its first breakpoint, whatever is sent meanwhile, and one that performs plain
calls does just that. Without a breakpoint in the queue it serves message after message, and stops only behind a
breakpoint that is sent later, or when the mailbox has been released. At a released mailbox it stops at once. -/
theorem processes_up_to_breakpoint {ω : Type} {x : Exchange (Procedure ω)} {es : List (Event (Procedure ω))}
    (hx : Exchange.Run r {} es x) (hhand : r.nests = true ∨ x.hand = []) :
    ((∃ m ∈ x.mailbox.queue, m.breakpoint = true) → ∃ before b after,
      x.mailbox.queue = before ++ b :: after ∧ (∀ m ∈ before, m.breakpoint = false) ∧ b.breakpoint = true ∧
      (∀ acts q, Run r ⟨x, .waiting⟩ acts q → Unreleased acts → UpTo r before b after acts q) ∧
      ∀ c : Consumer ω, c.mailbox = x.mailbox → c.tasks = [] → (∀ m ∈ before ++ [b], plain m = true) →
        c.processUntilBreakpoint =
          (.answers (true :: List.replicate before.length false), (before ++ [b]).foldl serve c) ∧
        ∃ acts, Run r ⟨x, .waiting⟩ acts ⟨withMailbox x ((before ++ [b]).foldl serve c), .stopped⟩ ∧
          (∀ e, .foreign e ∉ acts) ∧
          UpTo r before b after acts ⟨withMailbox x ((before ++ [b]).foldl serve c), .stopped⟩) ∧
    ((∀ m ∈ x.mailbox.queue, m.breakpoint = false) →
      ∀ acts q, Run r ⟨x, .waiting⟩ acts q → Unbroken r x acts q) ∧
    (x.mailbox.isReleased = true →
      (∀ acts q, Run r ⟨x, .waiting⟩ acts q → .rearmed ∉ events acts → AtOnce r acts q) ∧
      ∀ c : Consumer ω, c.mailbox = x.mailbox → c.processUntilBreakpoint = (.answers [], c)) := by
  refine ⟨fun ⟨m, hm, hb⟩ => ?_, fun hbreakpoint acts q hrun => hrun.unbroken hhand hbreakpoint,
    fun hreleased => ⟨fun acts q hrun hrearmed => ?_, fun c hc => ?_⟩⟩
  · obtain ⟨b, hfind⟩ := Option.ne_none_iff_exists'.mp fun hnone => List.find?_eq_none.mp hnone m hm hb
    obtain ⟨hb, before, after, hqueue, hbefore⟩ := List.find?_eq_some_iff_append.mp hfind
    have hbefore : ∀ m ∈ before, m.breakpoint = false := by simpa using hbefore
    have htaking : x.mailbox.isReleased = false := by
      cases hreleased : x.mailbox.isReleased with
      | false => rfl
      | true => simp [queue_eq_nil_of_released hx hreleased] at hqueue
    have hupTo (acts : List (Act (Procedure ω))) (q : Processing (Procedure ω)) (hrun : Run r ⟨x, .waiting⟩ acts q)
        (hunreleased : Unreleased acts) : UpTo r before b after acts q := by
      obtain ⟨past, hfollows⟩ := (Follows.start htaking).run hrun hunreleased
      rw [hqueue] at hfollows
      exact hfollows.upTo hhand hbefore hb
    refine ⟨before, b, after, hqueue, hbefore, hb, hupTo, fun c hc htasks hplain => ⟨?_, ?_⟩⟩
    · rw [Consumer.processUntilBreakpoint, Consumer.receiveUntil_breakpoint (hc ▸ hqueue) htasks hbefore hb hplain,
        List.append_nil]
    · obtain ⟨acts, hrun, halone⟩ := Consumer.alone_breakpoint (r := r) hhand (hc ▸ hqueue) hbefore hb
      rw [withMailbox, hc] at hrun
      exact ⟨acts, hrun, halone, hupTo acts _ hrun (hrun.unreleased halone)⟩
  · exact (Idle.run hreleased (queue_eq_nil_of_released hx hreleased) hrun hrearmed).atOnce
  · exact Consumer.receiveUntil_nil id (hc ▸ queue_eq_nil_of_released hx hreleased) []

/-- A call that notes something, a breakpoint that sends something, and a call behind it. -/
def shift : List (Message (Procedure Nat)) :=
  [⟨.call (.note 1), 1, false, false⟩, ⟨.call (.sequence [.post [.note 4], .note 2]), 2, true, true⟩,
    ⟨.call (.note 3), 3, false, false⟩]

/-- What the breakpoint sends. -/
def reply : Message (Procedure Nat) := ⟨.call (.note 4), 4, false, false⟩

theorem processes_shift :
    (∀ acts q, Run {} ⟨{ mailbox := ⟨shift, true, 3, some 0⟩ }, .waiting⟩ acts q → Unreleased acts →
      q.station = .stopped →
      dealings acts = (shift.take 2).flatMap service ∧ q.exchange.mailbox.queue = shift.drop 2 ++ accepted acts) ∧
    Consumer.processUntilBreakpoint ⟨⟨shift, true, 3, some 0⟩, [], []⟩ =
      (.answers [true, false], ⟨⟨shift.drop 2 ++ [reply], true, 4, some 2⟩, [], [.value 2, .value 1]⟩) := by
  have hx : Exchange.Run {} ({} : Exchange (Procedure Nat)) _ { mailbox := ⟨shift, true, 3, some 0⟩ } :=
    .step (.step (.step .refl (.accept shift[0].payload false false rfl)) (.accept shift[1].payload true true rfl))
      (.accept shift[2].payload false false rfl)
  obtain ⟨before, b, after, hqueue, hbefore, hb, hupTo, hserve⟩ :=
    (processes_up_to_breakpoint hx (.inr rfl)).1 ⟨shift[1], by simp [shift], rfl⟩
  have hfirst : before = shift.take 1 ∧ b = shift[1] ∧ after = shift.drop 2 := by
    match before, hqueue, hbefore with
    | [], hqueue, _ =>
      obtain ⟨rfl, -⟩ := List.cons.inj hqueue
      cases hb
    | [_], hqueue, _ =>
      obtain ⟨rfl, hrest⟩ := List.cons.inj hqueue
      obtain ⟨rfl, rfl⟩ := List.cons.inj hrest
      exact ⟨rfl, rfl, rfl⟩
    | _ :: _ :: _, hqueue, hbefore =>
      obtain ⟨-, hrest⟩ := List.cons.inj hqueue
      obtain ⟨rfl, -⟩ := List.cons.inj hrest
      cases hbefore _ (List.mem_cons_of_mem _ List.mem_cons_self)
  obtain ⟨rfl, rfl, rfl⟩ := hfirst
  refine ⟨fun acts q hrun hunreleased hstopped => ?_, ?_⟩
  · have h := hupTo acts q hrun hunreleased
    exact ⟨h.all_served hstopped, h.left hstopped⟩
  · exact (hserve ⟨_, [], []⟩ rfl rfl (by simp [shift, plain, Procedure.isPlain, Procedure.arePlain])).1

end Processing

end Tandem
