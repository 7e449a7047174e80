import Mathlib.Data.List.Forall2
import Mathlib.Data.List.TakeDrop
import Mathlib.Data.List.TakeWhile
import Tandem.Archive

/-!
Sections asked for one after another. A reader takes the first section of a name that is still to come, and
this is the best it can do: if some names can be had in order at all, they are had this way. A read that
fails moves nothing.
-/
namespace Tandem.Archive

/-- Some names, from left to right, at these places of a list of sections. -/
structure Stand (names : List String) (sections : List Section) (places : List Nat) : Prop where
  increasing : places.Pairwise (· < ·)
  named : places.map (sections[·]?.map (·.name)) = names.map some

/-- Wherever else the names stand, they stand no further to the left. -/
structure StandFirst (names : List String) (sections : List Section) (places : List Nat) : Prop
    extends Stand names sections places where
  first : ∀ others, Stand names sections others → List.Forall₂ (· ≤ ·) places others

section Places

variable {names : List String} {sections skipped rest : List Section} {s : Section} {places : List Nat}

theorem getElem?_behind (skipped rest : List Section) (s : Section) (place : Nat) :
    (skipped ++ s :: rest)[skipped.length + 1 + place]? = rest[place]? := by
  rw [List.getElem?_append_right (by omega)]
  simp [show skipped.length + 1 + place - skipped.length = place + 1 by omega]

theorem Stand.nil : Stand [] sections [] := ⟨.nil, rfl⟩

theorem StandFirst.nil : StandFirst [] sections [] := by
  refine ⟨.nil, fun others h => ?_⟩
  obtain rfl : others = [] := by simpa using h.named
  exact .nil

theorem Stand.cons (h : Stand names rest places) :
    Stand (s.name :: names) (skipped ++ s :: rest)
      (skipped.length :: places.map (skipped.length + 1 + ·)) := by
  refine ⟨List.pairwise_cons.mpr ⟨?_, ?_⟩, ?_⟩
  · intro place hplace
    obtain ⟨p, _, rfl⟩ := List.mem_map.mp hplace
    omega
  · refine List.pairwise_map.mpr (h.increasing.imp fun hlt => ?_)
    omega
  · simp only [List.map_cons, List.map_map, List.getElem?_append_right (Nat.le_refl _), Nat.sub_self,
      List.getElem?_cons_zero, Option.map_some, ← h.named]
    congr 1
    refine List.map_congr_left fun place _ => ?_
    simp only [Function.comp_apply, getElem?_behind]

/-- What stands behind the place of the first name stands in the rest. -/
theorem Stand.tail {name : String} {place : Nat} (h : Stand (name :: names) (skipped ++ s :: rest) (place :: places))
    (hplace : skipped.length ≤ place) : Stand names rest (places.map (· - (skipped.length + 1))) := by
  obtain ⟨hlt, hincreasing⟩ := List.pairwise_cons.mp h.increasing
  have hnamed := (List.cons.inj h.named).2
  have hbehind (p : Nat) (hp : p ∈ places) : skipped.length + 1 + (p - (skipped.length + 1)) = p := by
    have := hlt p hp
    omega
  refine ⟨List.pairwise_map.mpr (hincreasing.imp_of_mem fun {p q} hp hq hpq => ?_), ?_⟩
  · have := hlt p hp
    omega
  · rw [← hnamed, List.map_map]
    refine List.map_congr_left fun p hp => ?_
    simp only [Function.comp_apply]
    rw [← getElem?_behind skipped rest s, hbehind p hp]

/-- The first section of a name can always be taken for it. -/
theorem StandFirst.cons (hskipped : ∀ t ∈ skipped, t.name ≠ s.name) (h : StandFirst names rest places) :
    StandFirst (s.name :: names) (skipped ++ s :: rest)
      (skipped.length :: places.map (skipped.length + 1 + ·)) := by
  refine ⟨h.toStand.cons, fun others ho => ?_⟩
  cases others with
  | nil => simpa using ho.named
  | cons place others =>
    have hplace : skipped.length ≤ place := by
      by_contra hlt
      have hplace : place < skipped.length := Nat.lt_of_not_le hlt
      have hname : (skipped ++ s :: rest)[place]?.map (·.name) = some s.name := (List.cons.inj ho.named).1
      rw [List.getElem?_append_left hplace, List.getElem?_eq_getElem hplace] at hname
      exact hskipped _ (List.getElem_mem _) (Option.some.inj hname)
    refine .cons hplace ?_
    -- Behind the place of the first name there is no truncation in going over to the rest.
    have hbehind : ∀ q ∈ others, place < q := (List.pairwise_cons.mp ho.increasing).1
    have htail := List.forall₂_map_right_iff.mp (h.first _ (ho.tail hplace))
    refine List.forall₂_map_left_iff.mpr
      (((List.forall₂_and_left _ _).mpr ⟨hbehind, htail.flip⟩).flip.imp fun p q hpq => ?_)
    have := hpq.1
    have := hpq.2
    omega

end Places

namespace Reader

variable {r r' : Reader} {name : String} {names : List String} {data : Bytes} {e : StateError}

/-- A read takes the first section of the name that is still to come. -/
theorem read_split (skipped : List Section) (s : Section) (rest : List Section)
    (hskipped : ∀ t ∈ skipped, t.name ≠ s.name) : (⟨r.passed, skipped ++ s :: rest⟩ : Reader).read s.name =
      .ok (s.data, ⟨r.passed ++ skipped ++ [s], rest⟩) := by
  have hspan : (skipped ++ s :: rest).span (·.name ≠ s.name) = (skipped, s :: rest) := by
    rw [List.span_eq_takeWhile_dropWhile, List.takeWhile_append_of_pos (by simpa using hskipped),
      List.dropWhile_append_of_pos (by simpa using hskipped)]
    simp
  simp only [read, hspan]

/-- Why a section that is not to come any more cannot be had. -/
def refusal (r : Reader) (name : String) : StateError :=
  if name ∈ r.passed.map (·.name) then .sectionOutOfOrder name else .missingSection name

theorem read_of_not_mem (h : name ∉ r.ahead.map (·.name)) : r.read name = .error (r.refusal name) := by
  have hahead (t : Section) (ht : t ∈ r.ahead) : t.name ≠ name := fun hname =>
    h (List.mem_map.mpr ⟨t, ht, hname⟩)
  have hspan : r.ahead.span (·.name ≠ name) = (r.ahead, []) := by
    rw [List.span_eq_takeWhile_dropWhile, List.takeWhile_eq_self_iff.mpr (by simpa using hahead),
      List.dropWhile_eq_nil_iff.mpr (by simpa using hahead)]
  have hpassed : r.passed.any (·.name = name) = true ↔ name ∈ r.passed.map (·.name) := by simp
  simp only [read, hspan, refusal, hpassed]
  split <;> rfl

/-- The two ways in which a read can go. -/
theorem read_cases (r : Reader) (name : String) :
    (∃ skipped s rest, r.ahead = skipped ++ s :: rest ∧ (∀ t ∈ skipped, t.name ≠ name) ∧ s.name = name ∧
      r.read name = .ok (s.data, ⟨r.passed ++ skipped ++ [s], rest⟩)) ∨
    (name ∉ r.ahead.map (·.name) ∧ r.read name = .error (r.refusal name)) := by
  by_cases h : name ∈ r.ahead.map (·.name)
  · left
    obtain ⟨s, hs, rfl⟩ := List.mem_map.mp h
    obtain ⟨skipped, s', rest, hahead, hname, hskipped⟩ :
        ∃ skipped s' rest, r.ahead = skipped ++ s' :: rest ∧ s'.name = s.name ∧ ∀ t ∈ skipped, t.name ≠ s.name := by
      obtain ⟨s', hs'⟩ : ∃ s', r.ahead.find? (·.name = s.name) = some s' :=
        Option.isSome_iff_exists.mp (List.find?_isSome.mpr ⟨s, hs, by simp⟩)
      obtain ⟨hname, skipped, rest, hahead, hskipped⟩ := List.find?_eq_some_iff_append.mp hs'
      exact ⟨skipped, s', rest, hahead, by simpa using hname, by simpa using hskipped⟩
    refine ⟨skipped, s', rest, hahead, hskipped, hname, ?_⟩
    rw [← hname, ← read_split skipped s' rest (by rwa [hname]), ← hahead]
  · exact .inr ⟨h, read_of_not_mem h⟩

theorem read_eq_error_iff :
    r.read name = .error e ↔ name ∉ r.ahead.map (·.name) ∧ e = r.refusal name := by
  rcases r.read_cases name with ⟨skipped, s, rest, hahead, -, rfl, hread⟩ | ⟨hahead, hread⟩
  · simp [hread, hahead]
  · rw [hread]
    constructor
    · intro h
      exact ⟨hahead, (Except.error.inj h).symm⟩
    · rintro ⟨_, rfl⟩
      rfl

/-- Ask for a section. A reader that cannot give it stays as it is. -/
def attempt (r : Reader) (name : String) : Except StateError Bytes × Reader :=
  match r.read name with
  | .ok (data, r') => (.ok data, r')
  | .error e => (.error e, r)

/-- Ask for some sections one after another, whatever comes of each. -/
def attemptAll (r : Reader) : List String → List (Except StateError Bytes) × Reader
  | [] => ([], r)
  | name :: names =>
    ((r.attempt name).1 :: ((r.attempt name).2.attemptAll names).1, ((r.attempt name).2.attemptAll names).2)

theorem attempt_of_ok (h : r.read name = .ok (data, r')) : r.attempt name = (.ok data, r') := by
  rw [attempt, h]

theorem attempt_of_error (h : r.read name = .error e) : r.attempt name = (.error e, r) := by
  rw [attempt, h]

@[simp] theorem length_attemptAll (r : Reader) (names : List String) :
    (r.attemptAll names).1.length = names.length := by
  induction names generalizing r with
  | nil => rfl
  | cons name names ih => simp [attemptAll, ih]

theorem attemptAll_append (r : Reader) (front back : List String) :
    r.attemptAll (front ++ back) = ((r.attemptAll front).1 ++ ((r.attemptAll front).2.attemptAll back).1,
      ((r.attemptAll front).2.attemptAll back).2) := by
  induction front generalizing r with
  | nil => rfl
  | cons name front ih => simp only [List.cons_append, attemptAll, ih]

/-- A read that fails leaves no trace but its answer. -/
theorem attemptAll_of_error {front back : List String} (h : (r.attemptAll front).2.read name = .error e) :
    r.attemptAll (front ++ back) =
      ((r.attemptAll (front ++ name :: back)).1.eraseIdx front.length, (r.attemptAll (front ++ name :: back)).2) := by
  rw [attemptAll_append, attemptAll_append, attemptAll, attempt_of_error h]
  simp [List.eraseIdx_append_of_length_le]

/-! ### The names that are found -/

/-- The names that are found when some are asked for. -/
def found (r : Reader) (names : List String) : List String :=
  ((names.zip (r.attemptAll names).1).filter (·.2.isOk)).map (·.1)

theorem found_cons_of_ok (h : r.read name = .ok (data, r')) :
    r.found (name :: names) = name :: r'.found names := by
  simp [found, attemptAll, attempt_of_ok h, Except.isOk, Except.toBool]

theorem found_cons_of_error (h : r.read name = .error e) : r.found (name :: names) = r.found names := by
  simp [found, attemptAll, attempt_of_error h, Except.isOk, Except.toBool]

/-- Those that are not found make no difference to those that are. -/
theorem attemptAll_found (r : Reader) (names : List String) :
    r.attemptAll (r.found names) = ((r.attemptAll names).1.filter (·.isOk), (r.attemptAll names).2) := by
  induction names generalizing r with
  | nil => rfl
  | cons name names ih =>
    cases h : r.read name with
    | ok answer =>
      rw [found_cons_of_ok h, attemptAll, attemptAll, attempt_of_ok h, ih]
      simp [Except.isOk, Except.toBool]
    | error e =>
      rw [found_cons_of_error h, attemptAll, attempt_of_error h, ih]
      simp [Except.isOk, Except.toBool]

/-! ### Taking the first is the best that can be done -/

/-- If a name and some more stand in a list, the others stand behind the first place of that name. -/
theorem sublist_of_cons_sublist {α : Type} {x : α} {xs front back : List α}
    (h : (x :: xs).Sublist (front ++ x :: back)) (hfront : x ∉ front) : xs.Sublist back := by
  induction front with
  | nil => exact List.cons_sublist_cons.mp h
  | cons y front ih =>
    have hne : x ≠ y := fun he => hfront (he ▸ List.mem_cons_self)
    have hfront' : x ∉ front := fun hx => hfront (List.mem_cons_of_mem _ hx)
    rw [List.cons_append] at h
    cases h with
    | cons _ h => exact ih h hfront'
    | cons_cons => exact absurd rfl hne

theorem attemptAll_isOk_iff (r : Reader) (names : List String) :
    (∀ a ∈ (r.attemptAll names).1, a.isOk = true) ↔ names.Sublist (r.ahead.map (·.name)) := by
  induction names generalizing r with
  | nil => simp [attemptAll]
  | cons name names ih =>
    rcases r.read_cases name with ⟨skipped, s, rest, hahead, hskipped, rfl, hread⟩ | ⟨hahead, hread⟩
    · rw [attemptAll, attempt_of_ok hread, List.forall_mem_cons, ih, hahead, List.map_append, List.map_cons]
      constructor
      · rintro ⟨-, h⟩
        exact List.sublist_append_of_sublist_right (h.cons_cons _)
      · intro h
        exact ⟨rfl, sublist_of_cons_sublist h (by simpa using hskipped)⟩
    · rw [attemptAll, attempt_of_error hread]
      constructor
      · intro h
        exact absurd (h _ List.mem_cons_self) (by simp [Except.isOk, Except.toBool])
      · intro h
        exact absurd (h.subset List.mem_cons_self) hahead

/-- How many sections are passed once the last of some places has been read. -/
def passing (places : List Nat) : Nat := places.getLast?.elim 0 (· + 1)

theorem passing_cons_map (n : Nat) (places : List Nat) :
    passing (n :: places.map (n + 1 + ·)) = n + 1 + passing places := by
  rw [passing, List.getLast?_cons, List.getLast?_map, passing]
  cases places.getLast? with
  | none => rfl
  | some last => simp [Nat.add_assoc]

theorem attemptAll_leftmost (r : Reader) (h : names.Sublist (r.ahead.map (·.name))) :
    ∃ places, StandFirst names r.ahead places ∧
      places.map (r.ahead[·]?.map (.ok ·.data)) = (r.attemptAll names).1.map some ∧
      (r.attemptAll names).2.cursor = r.cursor + passing places := by
  induction names generalizing r with
  | nil => exact ⟨[], .nil, rfl, rfl⟩
  | cons name names ih =>
    rcases r.read_cases name with ⟨skipped, s, rest, hahead, hskipped, rfl, hread⟩ | ⟨hahead, -⟩
    · rw [hahead, List.map_append, List.map_cons] at h
      have hrest : names.Sublist (rest.map (·.name)) := sublist_of_cons_sublist h (by simpa using hskipped)
      obtain ⟨places, hstand, hdata, hcursor⟩ := ih ⟨r.passed ++ skipped ++ [s], rest⟩ hrest
      refine ⟨skipped.length :: places.map (skipped.length + 1 + ·), ?_, ?_, ?_⟩
      · rw [hahead]
        exact hstand.cons hskipped
      · rw [attemptAll, attempt_of_ok hread, List.map_cons, List.map_cons, List.map_map, ← hdata, hahead,
          List.getElem?_append_right (Nat.le_refl _), Nat.sub_self, List.getElem?_cons_zero]
        congr 1
        refine List.map_congr_left fun place _ => ?_
        simp only [Function.comp_apply, getElem?_behind]
      · rw [attemptAll, attempt_of_ok hread, hcursor, passing_cons_map]
        simp only [cursor, List.length_append, List.length_singleton]
        omega
    · exact absurd (h.subset List.mem_cons_self) hahead

theorem found_sublist (r : Reader) (names : List String) :
    (r.found names).Sublist (r.ahead.map (·.name)) := by
  refine (attemptAll_isOk_iff r _).mp fun a ha => ?_
  rw [attemptAll_found] at ha
  exact (List.mem_filter.mp ha).2

/-! ### What a reader is left with -/

theorem names_eq (r : Reader) : r.names = r.passed.map (·.name) ++ r.ahead.map (·.name) := by
  rw [names, sections, List.map_append]

theorem take_names (r : Reader) : r.names.take r.cursor = r.passed.map (·.name) := by
  rw [names_eq, cursor, List.take_left' (by simp)]

theorem drop_names (r : Reader) : r.names.drop r.cursor = r.ahead.map (·.name) := by
  rw [names_eq, cursor, List.drop_left' (by simp)]

theorem sections_attempt (r : Reader) (name : String) : (r.attempt name).2.sections = r.sections := by
  rcases r.read_cases name with ⟨skipped, s, rest, hahead, -, -, hread⟩ | ⟨-, hread⟩
  · simp [attempt_of_ok hread, sections, hahead]
  · rw [attempt_of_error hread]

theorem cursor_attempt (r : Reader) (name : String) : r.cursor ≤ (r.attempt name).2.cursor := by
  rcases r.read_cases name with ⟨skipped, s, rest, -, -, -, hread⟩ | ⟨-, hread⟩
  · simp [attempt_of_ok hread, cursor]
  · rw [attempt_of_error hread]

theorem sections_attemptAll (r : Reader) (names : List String) : (r.attemptAll names).2.sections = r.sections := by
  induction names generalizing r with
  | nil => rfl
  | cons name names ih => rw [attemptAll, ih, sections_attempt]

theorem cursor_attemptAll (r : Reader) (names : List String) : r.cursor ≤ (r.attemptAll names).2.cursor := by
  induction names generalizing r with
  | nil => exact Nat.le_refl _
  | cons name names ih => exact Nat.le_trans (r.cursor_attempt name) (ih _)

theorem read_eq_outOfOrder_iff : r.read name = .error (.sectionOutOfOrder name) ↔
    name ∈ r.names.take r.cursor ∧ name ∉ r.names.drop r.cursor := by
  rw [read_eq_error_iff, take_names, drop_names, and_comm]
  refine and_congr_left fun _ => ?_
  unfold refusal
  split <;> simp [*]

theorem read_eq_missing_iff : r.read name = .error (.missingSection name) ↔ name ∉ r.names := by
  rw [read_eq_error_iff, names_eq, List.mem_append, not_or, and_comm]
  refine and_congr_left fun _ => ?_
  unfold refusal
  split <;> simp [*]

theorem refusal_cases (r : Reader) (name : String) :
    r.refusal name = .sectionOutOfOrder name ∨ r.refusal name = .missingSection name := by
  unfold refusal
  split
  · exact .inl rfl
  · exact .inr rfl

/-- Reading moves forward through the sections and loses nothing by failing. -/
structure InOrder (r : Reader) (names : List String) : Prop where
  /-- The names are found one after another just if they are to come in this order. -/
  all_found : (∀ a ∈ (r.attemptAll names).1, a.isOk = true) ↔ names.Sublist (r.names.drop r.cursor)
  /-- The data are then those of the leftmost match, and the reader stands behind it. -/
  leftmost : names.Sublist (r.names.drop r.cursor) → ∃ places,
    StandFirst names (r.sections.drop r.cursor) places ∧
    places.map ((r.sections.drop r.cursor)[·]?.map (.ok ·.data)) = (r.attemptAll names).1.map some ∧
    (r.attemptAll names).2.cursor = r.cursor + passing places
  /-- Without a read that fails all the others are answered the same. -/
  unmoved : ∀ front name back e, names = front ++ name :: back →
    (r.attemptAll front).2.read name = .error e → r.attemptAll (front ++ back) =
      ((r.attemptAll names).1.eraseIdx front.length, (r.attemptAll names).2)
  /-- Without any of the reads that fail those that succeed are answered the same. -/
  found : r.attemptAll (r.found names) = ((r.attemptAll names).1.filter (·.isOk), (r.attemptAll names).2)
  sections : (r.attemptAll names).2.sections = r.sections
  forward : r.cursor ≤ (r.attemptAll names).2.cursor
  within : (r.attemptAll names).2.cursor ≤ r.sections.length
  outOfOrder : ∀ name, (r.attemptAll names).2.read name = .error (.sectionOutOfOrder name) ↔
    name ∈ r.names.take (r.attemptAll names).2.cursor ∧ name ∉ r.names.drop (r.attemptAll names).2.cursor
  missing : ∀ name, (r.attemptAll names).2.read name = .error (.missingSection name) ↔ name ∉ r.names
  /-- There is no other way to fail. -/
  refused : ∀ name e, (r.attemptAll names).2.read name = .error e →
    e = .sectionOutOfOrder name ∨ e = .missingSection name
  /-- If all names differ, nothing is read twice, and nothing that was passed before. -/
  once : r.names.Nodup → (r.found names).Nodup ∧ ∀ name ∈ r.found names, name ∉ r.names.take r.cursor

theorem reads_in_order (r : Reader) (names : List String) : InOrder r names := by
  have hsections := r.sections_attemptAll names
  have hnames : (r.attemptAll names).2.names = r.names := by rw [Reader.names, hsections, Reader.names]
  have hdrop : r.sections.drop r.cursor = r.ahead := by simp [Reader.sections, cursor]
  refine ⟨?_, fun h => ?_, ?_, attemptAll_found r names, hsections, cursor_attemptAll r names, ?_, ?_, ?_, ?_, ?_⟩
  · rw [drop_names]
    exact attemptAll_isOk_iff r names
  · rw [drop_names] at h
    rw [hdrop]
    exact attemptAll_leftmost r h
  · rintro front name back e rfl h
    exact attemptAll_of_error h
  · rw [← hsections]
    simp [cursor, Reader.sections]
  · intro name
    rw [read_eq_outOfOrder_iff, hnames]
  · intro name
    rw [read_eq_missing_iff, hnames]
  · intro name e h
    obtain ⟨-, rfl⟩ := read_eq_error_iff.mp h
    exact refusal_cases _ name
  · intro hnodup
    rw [names_eq] at hnodup
    obtain ⟨-, hahead, hdisjoint⟩ := List.nodup_append.mp hnodup
    refine ⟨(r.found_sublist names).nodup hahead, fun name hname hpassed => ?_⟩
    rw [take_names] at hpassed
    exact hdisjoint name hpassed name ((r.found_sublist names).subset hname) rfl

end Reader

end Tandem.Archive
