import Tandem.Proofs.Mailbox.Exchange

/-!
Nothing sent is lost, delivered twice or brought back. Whatever order senders, consumer, releases and
resets take turns in, every accepted message is begun, queued or dropped.
-/
namespace Tandem

namespace Exchange

variable {α : Type} {r : Manners} {x y z : Exchange α} {e : Event α} {es : List (Event α)}

namespace Event

def accepts : Event α → List (Message α)
  | .accepted m => [m]
  | _ => []

def begins : Event α → List (Message α)
  | .begun m => [m]
  | _ => []

def drops : Event α → List (Message α)
  | .released ms => ms
  | _ => []

end Event

/-- The messages that some events are about, oldest first; the events are given newest first. -/
def messages (f : Event α → List (Message α)) (es : List (Event α)) : List (Message α) :=
  es.reverse.flatMap f

@[simp] theorem messages_nil (f : Event α → List (Message α)) : messages f [] = [] := rfl

@[simp] theorem messages_cons (f : Event α → List (Message α)) (e : Event α) (es : List (Event α)) :
    messages f (e :: es) = messages f es ++ f e := by
  simp [messages]

theorem mem_messages_append {f : Event α → List (Message α)} {m : Message α}
    {later earlier : List (Event α)} (h : m ∈ messages f earlier) : m ∈ messages f (later ++ earlier) := by
  induction later with
  | nil => exact h
  | cons e later ih =>
    rw [List.cons_append, messages_cons]
    exact List.mem_append_left _ ih

/-- The messages that were accepted are those that are gone and those that are queued, in this order.
What is gone was begun or dropped. -/
structure Filed (es : List (Event α)) (x : Exchange α) (gone : List (Message α)) : Prop where
  accepted : messages Event.accepts es = gone ++ x.mailbox.queue
  increasing : (messages Event.accepts es).Pairwise (·.id < ·.id)
  issued : ∀ m ∈ messages Event.accepts es, m.id ≤ x.mailbox.issued
  begun : (messages Event.begins es).Sublist gone
  gone : gone.Perm (messages Event.begins es ++ messages Event.drops es)

namespace Filed

variable {gone : List (Message α)}

theorem start : Filed [] ({} : Exchange α) [] := ⟨rfl, .nil, by simp, .slnil, .nil⟩

/-- An event that concerns no message. -/
theorem idle (h : Filed es x gone) (ha : e.accepts = []) (hb : e.begins = []) (hd : e.drops = [])
    (hq : y.mailbox.queue = x.mailbox.queue) (hi : y.mailbox.issued = x.mailbox.issued) :
    Filed (e :: es) y gone := by
  refine ⟨?_, ?_, ?_, ?_, ?_⟩
  · rw [messages_cons, ha, List.append_nil, hq]
    exact h.accepted
  · rw [messages_cons, ha, List.append_nil]
    exact h.increasing
  · rw [messages_cons, ha, List.append_nil, hi]
    exact h.issued
  · rw [messages_cons, hb, List.append_nil]
    exact h.begun
  · rw [messages_cons, messages_cons, hb, hd, List.append_nil, List.append_nil]
    exact h.gone

theorem accept (h : Filed es x gone) (payload : Payload α) (wait breakpoint : Bool)
    (hr : x.mailbox.isReleased = false) :
    Filed (.accepted (x.mailbox.next payload wait breakpoint) :: es)
      { x with mailbox := (x.mailbox.post payload wait breakpoint).2 } gone := by
  rw [Mailbox.post_of_not_isReleased hr]
  refine ⟨?_, ?_, ?_, ?_, ?_⟩
  · rw [messages_cons, h.accepted, List.append_assoc]
    rfl
  · rw [messages_cons]
    refine List.pairwise_append.mpr ⟨h.increasing, List.pairwise_singleton _ _, fun m hm m' hm' => ?_⟩
    obtain rfl := List.mem_singleton.mp hm'
    exact Nat.lt_succ_of_le (h.issued m hm)
  · intro m hm
    rw [messages_cons] at hm
    cases List.mem_append.mp hm with
    | inl hm => exact Nat.le_succ_of_le (h.issued m hm)
    | inr hm =>
      obtain rfl := List.mem_singleton.mp hm
      exact Nat.le_refl _
  · rw [messages_cons]
    simpa [Event.begins] using h.begun
  · rw [messages_cons, messages_cons]
    simpa [Event.begins, Event.drops] using h.gone

theorem take {m : Message α} {mailbox : Mailbox α} {hand : List (Taken α)} (h : Filed es x gone)
    (hpop : x.mailbox.pop = some (m, mailbox)) :
    Filed (.begun m :: es) { x with mailbox, hand } (gone ++ [m]) := by
  obtain ⟨hq, hm⟩ := Mailbox.pop_eq_some hpop
  have haccepted : messages Event.accepts (.begun m :: es) = messages Event.accepts es := by
    simp [Event.accepts]
  refine ⟨?_, ?_, ?_, ?_, ?_⟩
  · rw [haccepted, h.accepted, hq, List.append_assoc]
    rfl
  · rw [haccepted]
    exact h.increasing
  · rw [haccepted, hm]
    exact h.issued
  · rw [messages_cons]
    exact h.begun.append (List.Sublist.refl _)
  · rw [messages_cons, messages_cons]
    simp only [Event.begins, Event.drops, List.append_nil]
    -- The new message moves past the dropped ones.
    calc (gone ++ [m]).Perm (messages Event.begins es ++ messages Event.drops es ++ [m]) :=
          h.gone.append_right [m]
      _ = messages Event.begins es ++ (messages Event.drops es ++ [m]) := List.append_assoc _ _ _
      List.Perm _ (messages Event.begins es ++ ([m] ++ messages Event.drops es)) :=
          List.Perm.append_left _ List.perm_append_comm
      _ = messages Event.begins es ++ [m] ++ messages Event.drops es := (List.append_assoc _ _ _).symm

theorem release (h : Filed es x gone) (n : Nat) :
    Filed (.released x.mailbox.queue :: es) { x with mailbox := x.mailbox.release, resetting := n }
      (gone ++ x.mailbox.queue) := by
  have haccepted : messages Event.accepts (.released x.mailbox.queue :: es) =
      messages Event.accepts es := by
    simp [Event.accepts]
  refine ⟨?_, ?_, ?_, ?_, ?_⟩
  · rw [haccepted, h.accepted]
    exact (List.append_nil _).symm
  · rw [haccepted]
    exact h.increasing
  · rw [haccepted]
    exact h.issued
  · rw [messages_cons]
    simp only [Event.begins, List.append_nil]
    exact h.begun.trans (List.sublist_append_left _ _)
  · rw [messages_cons, messages_cons]
    simp only [Event.begins, Event.drops, List.append_nil]
    rw [← List.append_assoc]
    exact h.gone.append_right _

theorem step (h : Filed es x gone) (hs : Step r x e y) : ∃ gone, Filed (e :: es) y gone := by
  cases hs with
  | accept payload wait breakpoint hr => exact ⟨gone, h.accept payload wait breakpoint hr⟩
  | refuse payload wait breakpoint hr =>
    rw [Mailbox.post_of_isReleased hr]
    exact ⟨gone, h.idle rfl rfl rfl rfl rfl⟩
  | @take m _ _ hpop => exact ⟨gone ++ [m], h.take hpop⟩
  | complete _ =>
    exact ⟨gone, h.idle rfl rfl rfl (Mailbox.complete_queue _ _) (Mailbox.complete_issued _ _)⟩
  | release => exact ⟨gone ++ x.mailbox.queue, h.release x.resetting⟩
  | beginReset _ => exact ⟨gone ++ x.mailbox.queue, h.release _⟩
  | giveBack | setCanWait | panic | endReset => exact ⟨gone, h.idle rfl rfl rfl rfl rfl⟩

theorem run {es' : List (Event α)} (h : Filed es x gone) (hr : Run r x es' y) :
    ∃ gone, Filed (es' ++ es) y gone := by
  induction hr with
  | refl => exact ⟨gone, h⟩
  | step _ hs ih =>
    obtain ⟨gone, h⟩ := ih
    exact h.step hs

theorem places (h : Filed es x gone) : (messages Event.accepts es).Perm
    (messages Event.begins es ++ x.mailbox.queue ++ messages Event.drops es) := by
  rw [h.accepted]
  calc (gone ++ x.mailbox.queue).Perm
          (messages Event.begins es ++ messages Event.drops es ++ x.mailbox.queue) :=
        h.gone.append_right _
    _ = messages Event.begins es ++ (messages Event.drops es ++ x.mailbox.queue) := List.append_assoc _ _ _
    List.Perm _ (messages Event.begins es ++ (x.mailbox.queue ++ messages Event.drops es)) :=
        List.Perm.append_left _ List.perm_append_comm
    _ = messages Event.begins es ++ x.mailbox.queue ++ messages Event.drops es :=
        (List.append_assoc _ _ _).symm

end Filed

/-- What is taken out or dropped has been accepted before. -/
theorem Run.accepted_before {later earlier : List (Event α)} (h : Run r {} (later ++ e :: earlier) y) :
    ∀ m ∈ e.begins ++ e.drops, m ∈ messages Event.accepts earlier := by
  obtain ⟨x, _, before, hs, -⟩ := h.split
  obtain ⟨gone, hf⟩ := Filed.start.run before
  have hqueue : ∀ m ∈ x.mailbox.queue, m ∈ messages Event.accepts earlier := by
    intro m hm
    have ha := hf.accepted
    rw [List.append_nil] at ha
    rw [ha]
    exact List.mem_append_right _ hm
  cases hs with
  | take _ hpop =>
    intro m hm
    obtain rfl := List.mem_singleton.mp hm
    exact hqueue m (by rw [(Mailbox.pop_eq_some hpop).1]; exact List.mem_cons_self)
  | release | beginReset => exact hqueue
  | accept | refuse | giveBack | setCanWait | complete | panic | endReset =>
    exact fun m hm => absurd hm List.not_mem_nil

/-- Without what was refused the run ends the same. -/
theorem Run.without_refused {payload : Payload α} {later earlier : List (Event α)}
    (h : Run r x (later ++ .refused payload :: earlier) y) : Run r x (later ++ earlier) y := by
  obtain ⟨_, _, before, hs, after⟩ := h.split
  exact (hs.eq_of_refused ▸ before).append after

/-- Every message is delivered at most once and in order, or dropped for good. -/
structure Delivered (r : Manners) (es : List (Event α)) (x : Exchange α) : Prop where
  /-- Numbers increase as messages are accepted, from one life of the mailbox to the next. -/
  increasing : (messages Event.accepts es).Pairwise (·.id < ·.id)
  /-- Calls begin in the order in which they were accepted. -/
  inOrder : (messages Event.begins es).Pairwise (·.id < ·.id)
  /-- Each accepted message is in one of three places. -/
  places : (messages Event.accepts es).Perm
    (messages Event.begins es ++ x.mailbox.queue ++ messages Event.drops es)
  once : ((messages Event.begins es ++ x.mailbox.queue ++ messages Event.drops es).map (·.id)).Nodup
  /-- A message is begun or dropped only after it was accepted. -/
  accepted : ∀ later e earlier, es = later ++ e :: earlier →
    ∀ m ∈ e.begins ++ e.drops, m ∈ messages Event.accepts earlier
  /-- What was dropped is not begun later. -/
  dead : ∀ later earlier, es = later ++ earlier → ∀ m ∈ messages Event.drops earlier,
    ∀ m' ∈ messages Event.begins es, m'.id ≠ m.id
  /-- What was refused leaves no trace. -/
  refused : ∀ later payload earlier, es = later ++ .refused payload :: earlier →
    Run r {} (later ++ earlier) x

theorem Run.delivered (h : Run r ({} : Exchange α) es x) : Delivered r es x := by
  obtain ⟨gone, hf⟩ := Filed.start.run h
  rw [List.append_nil] at hf
  have hplaces := hf.places
  have hnodup : ((messages Event.accepts es).map (·.id)).Nodup := by
    refine (List.pairwise_map.mpr hf.increasing).imp fun hlt => Nat.ne_of_lt hlt
  have honce := (hplaces.map (·.id)).nodup_iff.mp hnodup
  refine ⟨hf.increasing, ?_, hplaces, honce, ?_, ?_, ?_⟩
  · have hgone : (gone ++ x.mailbox.queue).Pairwise (·.id < ·.id) := hf.accepted ▸ hf.increasing
    exact (List.pairwise_append.mp hgone).1.sublist hf.begun
  · intro later e earlier he
    subst he
    exact h.accepted_before
  · intro later earlier he m hm m' hm'
    have hdropped : m ∈ messages Event.drops es := he ▸ mem_messages_append hm
    rw [List.map_append, List.map_append] at honce
    have hdisjoint := (List.nodup_append.mp honce).2.2
    exact hdisjoint _ (List.mem_append_left _ (List.mem_map_of_mem hm')) _ (List.mem_map_of_mem hdropped)
  · intro later payload earlier he
    subst he
    exact h.without_refused

/-- A call that a reset has dropped stays dropped while the next one is begun. -/
theorem delivered_after_reset : ∃ x : Exchange Nat, Delivered {}
    [.begun ⟨.call 7, 2, false, false⟩, .accepted ⟨.call 7, 2, false, false⟩, .rearmed,
      .released [⟨.call 5, 1, false, false⟩], .accepted ⟨.call 5, 1, false, false⟩] x := by
  have h₁ : Run {} ({} : Exchange Nat) [.accepted ⟨.call 5, 1, false, false⟩] _ :=
    .step .refl (.accept (.call 5) false false rfl)
  have h₂ : Run {} ({} : Exchange Nat) _ _ := .step (.step h₁ (.beginReset (.inr rfl))) (.endReset rfl)
  have h₃ : Run {} ({} : Exchange Nat) _ _ := .step h₂ (.accept (.call 7) false false rfl)
  exact ⟨_, Run.delivered (.step h₃ (.take (.inr rfl) rfl))⟩

end Exchange

end Tandem
