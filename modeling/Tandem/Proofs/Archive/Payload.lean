import Tandem.Proofs.Archive.Field

/-!
Payloads as a whole. A list of fields is written as one byte string, and that byte string is the only one
from which a reader that asks for the same kinds gets these fields: cut short, it is found to be truncated,
and with anything behind it, it is refused in the end.
-/
namespace Tandem.Archive

namespace FieldReader

variable {α β : Type} {r r' : FieldReader} {n : Nat}

/-! ### What an action does to a reader -/

theorem run_take_of_le (h : n ≤ r.rest.length) :
    (take n).run.run r = (.ok (r.rest.take n), { r with rest := r.rest.drop n }) := by
  change (if n ≤ r.rest.length then _ else _ : ReadM Bytes).run.run r = _
  rw [if_pos h]
  rfl

theorem run_take_of_lt (h : r.rest.length < n) :
    (take n).run.run r = (.error (.corrupt r.name "truncated"), r) := by
  change (if n ≤ r.rest.length then _ else _ : ReadM Bytes).run.run r = _
  rw [if_neg (Nat.not_le.mpr h)]
  rfl

theorem run_bind_of_ok {action : ReadM α} {next : α → ReadM β} {a : α}
    (h : action.run.run r = (.ok a, r')) : (action >>= next).run.run r = (next a).run.run r' := by
  simp only [ExceptT.run_bind, StateT.run_bind, h]
  rfl

theorem run_bind_of_error {action : ReadM α} {next : α → ReadM β} {e : StateError}
    (h : action.run.run r = (.error e, r')) : (action >>= next).run.run r = (.error e, r') := by
  simp only [ExceptT.run_bind, StateT.run_bind, h]
  rfl

/-- A chain of reads succeeds if every read does. -/
theorem run_bind_eq_ok {action : ReadM α} {next : α → ReadM β} {b : β}
    (h : (action >>= next).run.run r = (.ok b, r')) :
    ∃ a r₁, action.run.run r = (.ok a, r₁) ∧ (next a).run.run r₁ = (.ok b, r') := by
  cases ha : action.run.run r with
  | mk outcome r₁ =>
    cases outcome with
    | error e =>
      rw [run_bind_of_error ha] at h
      cases h
    | ok a =>
      rw [run_bind_of_ok ha] at h
      exact ⟨a, r₁, rfl, h⟩

theorem run_map_eq_ok {action : ReadM α} {f : α → β} {b : β}
    (h : (do return f (← action) : ReadM β).run.run r = (.ok b, r')) :
    ∃ a, action.run.run r = (.ok a, r') ∧ f a = b := by
  obtain ⟨a, r₁, ha, hb⟩ := run_bind_eq_ok h
  cases hb
  exact ⟨a, ha, rfl⟩

/-! ### The place of a reader -/

/-- Whether it succeeds or not, the action moves on by some of the bytes that are left. -/
def Moves (action : ReadM α) : Prop :=
  ∀ r : FieldReader, ∃ n ≤ r.rest.length, (action.run.run r).2 = { r with rest := r.rest.drop n }

namespace Moves

theorem pure (a : α) : Moves (Pure.pure a) := fun _ => ⟨0, Nat.zero_le _, rfl⟩

theorem fail (reason : String) : Moves (FieldReader.fail reason : ReadM α) :=
  fun _ => ⟨0, Nat.zero_le _, rfl⟩

theorem take (n : Nat) : Moves (FieldReader.take n) := by
  intro r
  by_cases h : n ≤ r.rest.length
  · exact ⟨n, h, by rw [run_take_of_le h]⟩
  · exact ⟨0, Nat.zero_le _, by rw [run_take_of_lt (Nat.lt_of_not_le h)]; rfl⟩

theorem bind {action : ReadM α} {next : α → ReadM β} (h : Moves action) (h' : ∀ a, Moves (next a)) :
    Moves (action >>= next) := by
  intro r
  obtain ⟨n, hn, hr⟩ := h r
  cases ha : action.run.run r with
  | mk outcome r₁ =>
    rw [ha] at hr
    subst hr
    cases outcome with
    | error e => exact ⟨n, hn, by rw [run_bind_of_error ha]⟩
    | ok a =>
      obtain ⟨n', hn', hr'⟩ := h' a { r with rest := r.rest.drop n }
      refine ⟨n + n', ?_, ?_⟩
      · simp only [List.length_drop] at hn'
        omega
      · rw [run_bind_of_ok ha, hr', List.drop_drop]

theorem map {action : ReadM α} {f : α → β} (h : Moves action) : Moves (do return f (← action)) :=
  h.bind fun a => pure (f a)

theorem number (width : Nat) : Moves (FieldReader.number width) := (take width).map

theorem bool : Moves FieldReader.bool := by
  refine (number 1).bind fun n => ?_
  split
  · exact pure false
  · exact pure true
  · exact fail _

theorem field (kind : FieldKind) : Moves (FieldReader.field kind) := by
  cases kind with
  | u8 => exact (number 1).map.map
  | bool => exact bool.map
  | u32 => exact (number 4).map.map
  | i32 => exact (number 4).map.map
  | u64 => exact (number 8).map.map
  | blob => exact ((number 4).bind take).map

end Moves

/-- Read fields of the given kinds in a row. -/
def fields : List FieldKind → ReadM (List Field)
  | [] => return []
  | kind :: rest => return (← field kind) :: (← fields rest)

/-- What is left after fields of the given kinds have been asked for one by one, whether they were there
or not. -/
def after (r : FieldReader) (kinds : List FieldKind) : FieldReader :=
  kinds.foldl (fun r kind => ((field kind).run.run r).2) r

theorem after_append (r : FieldReader) (kinds later : List FieldKind) :
    r.after (kinds ++ later) = (r.after kinds).after later := by
  simp [after, List.foldl_append]

/-- However many fields are asked for, the place never moves back, and never past the end. -/
theorem after_eq (r : FieldReader) (kinds : List FieldKind) :
    ∃ n ≤ r.rest.length, r.after kinds = { r with rest := r.rest.drop n } := by
  induction kinds generalizing r with
  | nil => exact ⟨0, Nat.zero_le _, rfl⟩
  | cons kind kinds ih =>
    obtain ⟨n, hn, hr⟩ := Moves.field kind r
    obtain ⟨n', hn', hr'⟩ := ih ((field kind).run.run r).2
    rw [hr] at hn' hr'
    simp only [List.length_drop, List.drop_drop] at hn' hr'
    refine ⟨n + n', by omega, ?_⟩
    rw [after, List.foldl_cons, hr]
    exact hr'

end FieldReader

/-! ### Nothing else is accepted -/

/-- What the action takes is, as it stands, what its value is written as. -/
def Accepts {α : Type} (action : ReadM α) (written : α → Bytes → Prop) : Prop :=
  ∀ r a r', action.run.run r = (.ok a, r') →
    ∃ front, r.rest = front ++ r'.rest ∧ r'.name = r.name ∧ written a front

namespace Accepts

variable {α β : Type} {action : ReadM α} {written : α → Bytes → Prop}

theorem pure (a : α) : Accepts (Pure.pure a) fun b front => b = a ∧ front = [] := by
  intro r b r' h
  cases h
  exact ⟨[], rfl, rfl, rfl, rfl⟩

theorem bind {next : α → ReadM β} {written' : α → β → Bytes → Prop} (h : Accepts action written)
    (h' : ∀ a, Accepts (next a) (written' a)) : Accepts (action >>= next) fun b front =>
      ∃ a front₁ front₂, front = front₁ ++ front₂ ∧ written a front₁ ∧ written' a b front₂ := by
  intro r b r' hb
  obtain ⟨a, r₁, ha, hb⟩ := FieldReader.run_bind_eq_ok hb
  obtain ⟨front₁, hr, hn, hw⟩ := h r a r₁ ha
  obtain ⟨front₂, hr', hn', hw'⟩ := h' a r₁ b r' hb
  refine ⟨front₁ ++ front₂, ?_, hn'.trans hn, a, front₁, front₂, rfl, hw, hw'⟩
  rw [hr, hr', List.append_assoc]

theorem weaken {written' : α → Bytes → Prop} (h : Accepts action written)
    (hw : ∀ a front, written a front → written' a front) : Accepts action written' := by
  intro r a r' ha
  obtain ⟨front, hr, hn, hfront⟩ := h r a r' ha
  exact ⟨front, hr, hn, hw a front hfront⟩

theorem map {f : α → β} {written' : β → Bytes → Prop} (h : Accepts action written)
    (hf : ∀ a front, written a front → written' (f a) front) :
    Accepts (do return f (← action)) written' := by
  intro r b r' hb
  obtain ⟨a, ha, rfl⟩ := FieldReader.run_map_eq_ok hb
  obtain ⟨front, hr, hn, hw⟩ := h r a r' ha
  exact ⟨front, hr, hn, hf a front hw⟩

theorem take (n : Nat) :
    Accepts (FieldReader.take n) fun bs front => bs = front ∧ front.length = n := by
  intro r bs r' h
  by_cases hn : n ≤ r.rest.length
  · rw [FieldReader.run_take_of_le hn] at h
    cases h
    exact ⟨r.rest.take n, (List.take_append_drop n r.rest).symm, rfl, rfl, List.length_take_of_le hn⟩
  · rw [FieldReader.run_take_of_lt (Nat.lt_of_not_le hn)] at h
    cases h

theorem number (width : Nat) : Accepts (FieldReader.number width) fun n front =>
    n < LittleEndian.range width ∧ front = LittleEndian.encode width n := by
  refine (take width).map ?_
  rintro bs front ⟨rfl, rfl⟩
  exact ⟨LittleEndian.decode_lt bs, (LittleEndian.encode_decode bs).symm⟩

/-- A flag is accepted in one form only. -/
theorem bool : Accepts FieldReader.bool fun v front => front = [if v then 1 else 0] := by
  have hflag : Accepts FieldReader.bool fun v front => ∃ n front₁ front₂, front = front₁ ++ front₂ ∧
      (n < LittleEndian.range 1 ∧ front₁ = LittleEndian.encode 1 n) ∧
      front₂ = [] ∧ n = if v then 1 else 0 := by
    refine (number 1).bind fun n r v r' h => ?_
    split at h
    · cases h
      exact ⟨[], rfl, rfl, rfl, rfl⟩
    · cases h
      exact ⟨[], rfl, rfl, rfl, rfl⟩
    · cases h
  refine hflag.weaken ?_
  rintro v front ⟨n, front₁, front₂, rfl, ⟨-, rfl⟩, rfl, rfl⟩
  cases v <;> rfl

theorem u8 : Accepts FieldReader.u8 fun v front => front = [v] := by
  refine (number 1).map ?_
  rintro n front ⟨-, rfl⟩
  rfl

theorem u32 : Accepts FieldReader.u32 fun v front => front = LittleEndian.encode 4 v.toNat := by
  refine (number 4).map ?_
  rintro n front ⟨hn, rfl⟩
  rw [UInt32.toNat_ofNat_of_lt' hn]

theorem i32 :
    Accepts FieldReader.i32 fun v front => front = LittleEndian.encode 4 v.toUInt32.toNat := by
  refine (number 4).map ?_
  rintro n front ⟨hn, rfl⟩
  rw [UInt32.toUInt32_toInt32, UInt32.toNat_ofNat_of_lt' hn]

theorem u64 : Accepts FieldReader.u64 fun v front => front = LittleEndian.encode 8 v.toNat := by
  refine (number 8).map ?_
  rintro n front ⟨hn, rfl⟩
  rw [UInt64.toNat_ofNat_of_lt' hn]

theorem blob : Accepts FieldReader.blob fun v front =>
    v.length < 4294967296 ∧ front = LittleEndian.encode 4 v.length ++ v := by
  refine ((number 4).bind take).weaken ?_
  rintro v front ⟨n, front₁, front₂, rfl, ⟨hn, rfl⟩, rfl, rfl⟩
  exact ⟨hn, rfl⟩

end Accepts

theorem lengthPrefix_of_lt {n : Nat} (h : n < 4294967296) : lengthPrefix n = .ok (UInt32.ofNat n) := by
  rw [lengthPrefix, if_pos h]

namespace Field

theorem encode_blob {v : Bytes} (h : v.length < 4294967296) :
    (Field.blob v).encode = .ok (LittleEndian.encode 4 v.length ++ v) := by
  have hn : (UInt32.ofNat v.length).toNat = v.length := UInt32.toNat_ofNat_of_lt' h
  rw [encode, lengthPrefix_of_lt h]
  change Except.ok (LittleEndian.encode 4 (UInt32.ofNat v.length).toNat ++ v) = _
  rw [hn]

/-- A field that is accepted is written just so. -/
theorem accepts (kind : FieldKind) : Accepts (FieldReader.field kind) fun f front =>
    f.kind = kind ∧ f.encode = .ok front := by
  cases kind with
  | u8 =>
    refine Accepts.u8.map ?_
    rintro v front rfl
    exact ⟨rfl, rfl⟩
  | bool =>
    refine Accepts.bool.map ?_
    rintro v front rfl
    exact ⟨rfl, rfl⟩
  | u32 =>
    refine Accepts.u32.map ?_
    rintro v front rfl
    exact ⟨rfl, rfl⟩
  | i32 =>
    refine Accepts.i32.map ?_
    rintro v front rfl
    exact ⟨rfl, rfl⟩
  | u64 =>
    refine Accepts.u64.map ?_
    rintro v front rfl
    exact ⟨rfl, rfl⟩
  | blob =>
    refine Accepts.blob.map ?_
    rintro v front ⟨hv, rfl⟩
    exact ⟨rfl, encode_blob hv⟩

theorem encodeAll_nil : encodeAll [] = .ok [] := rfl

theorem encodeAll_cons {f : Field} {fs : List Field} {front rest : Bytes} (hf : f.encode = .ok front)
    (hfs : encodeAll fs = .ok rest) : encodeAll (f :: fs) = .ok (front ++ rest) := by
  obtain ⟨chunks, hc, rfl⟩ := map_eq_ok_iff.mp hfs
  refine map_eq_ok_iff.mpr ⟨front :: chunks, ?_, List.flatten_cons⟩
  rw [List.mapM_cons, hf, hc]
  rfl

/-- Whatever can be told in a length is written. -/
theorem encode_ok {f : Field} (h : ∀ v, f = .blob v → v.length < 4294967296) :
    ∃ bytes, f.encode = .ok bytes := by
  cases f with
  | blob v => exact ⟨_, encode_blob (h v rfl)⟩
  | u8 | bool | u32 | i32 | u64 => exact ⟨_, rfl⟩

theorem encodeAll_ok {fs : List Field} (h : ∀ v, Field.blob v ∈ fs → v.length < 4294967296) :
    ∃ data, encodeAll fs = .ok data := by
  induction fs with
  | nil => exact ⟨[], encodeAll_nil⟩
  | cons f fs ih =>
    obtain ⟨front, hf⟩ := encode_ok fun v hv => h v (hv ▸ List.mem_cons_self)
    obtain ⟨rest, hfs⟩ := ih fun v hv => h v (List.mem_cons_of_mem f hv)
    exact ⟨front ++ rest, encodeAll_cons hf hfs⟩

theorem reads_all {fs : List Field} {data : Bytes} (h : encodeAll fs = .ok data) :
    Reads (FieldReader.fields (fs.map kind)) data fs := by
  induction fs generalizing data with
  | nil =>
    cases h
    exact .pure []
  | cons f fs ih =>
    obtain ⟨front, rest, hf, hfs, rfl⟩ := encodeAll_cons_eq_ok h
    exact (reads hf).bind ((ih hfs).map (f :: ·))

theorem accepts_all (kinds : List FieldKind) : Accepts (FieldReader.fields kinds) fun fs data =>
    fs.map kind = kinds ∧ encodeAll fs = .ok data := by
  induction kinds with
  | nil =>
    refine (Accepts.pure []).weaken ?_
    rintro fs data ⟨rfl, rfl⟩
    exact ⟨rfl, encodeAll_nil⟩
  | cons kind kinds ih =>
    have hrest (f : Field) : Accepts (do return f :: (← FieldReader.fields kinds)) fun fs data =>
        ∃ fs', fs = f :: fs' ∧ fs'.map Field.kind = kinds ∧ encodeAll fs' = .ok data := by
      refine ih.map ?_
      rintro fs data ⟨hk, hd⟩
      exact ⟨fs, rfl, hk, hd⟩
    refine ((accepts kind).bind hrest).weaken ?_
    rintro fs data ⟨f, front, rest, rfl, ⟨hk, hf⟩, fs, rfl, hks, hfs⟩
    exact ⟨by rw [List.map_cons, hk, hks], encodeAll_cons hf hfs⟩

end Field

/-! ### Bytes that are missing -/

/-- Bytes that lack some of the last ones end within the first part, or behind it. -/
theorem prefix_append_cases {short front rest : Bytes} (hs : short <+: front ++ rest)
    (hne : short ≠ front ++ rest) : (short <+: front ∧ short ≠ front) ∨
      ∃ short', short = front ++ short' ∧ short' <+: rest ∧ short' ≠ rest := by
  by_cases hp : front <+: short
  · obtain ⟨short', rfl⟩ := hp
    refine .inr ⟨short', rfl, (List.prefix_append_right_inj front).mp hs, ?_⟩
    rintro rfl
    exact hne rfl
  · refine .inl ⟨(List.prefix_or_prefix_of_prefix hs (List.prefix_append front rest)).resolve_right hp, ?_⟩
    rintro rfl
    exact hp List.prefix_rfl

/-- The action needs all of these bytes: without some of the last ones, what is left is truncated. -/
def Needs {α : Type} (action : ReadM α) (front : Bytes) : Prop :=
  ∀ name short, short <+: front → short ≠ front →
    ∃ r, action.run.run ⟨name, short⟩ = (.error (.corrupt name "truncated"), r)

namespace Needs

variable {α β : Type} {action : ReadM α} {front front' : Bytes} {a : α}

theorem nil (action : ReadM α) : Needs action [] := by
  intro name short hs hne
  exact absurd (List.prefix_nil.mp hs) hne

theorem take (bs : Bytes) : Needs (FieldReader.take bs.length) bs := by
  intro name short hs hne
  refine ⟨_, FieldReader.run_take_of_lt ?_⟩
  have hlen := hs.length_le
  have : short.length ≠ bs.length := fun h => hne (hs.eq_of_length h)
  change short.length < bs.length
  omega

theorem bind {next : α → ReadM β} (h : Needs action front) (ha : Reads action front a)
    (h' : Needs (next a) front') : Needs (action >>= next) (front ++ front') := by
  intro name short hs hne
  rcases prefix_append_cases hs hne with ⟨hs, hne⟩ | ⟨short, rfl, hs, hne⟩
  · obtain ⟨r, hr⟩ := h name short hs hne
    exact ⟨r, FieldReader.run_bind_of_error hr⟩
  · obtain ⟨r, hr⟩ := h' name short hs hne
    exact ⟨r, (FieldReader.run_bind_of_ok (ha name short)).trans hr⟩

theorem map {f : α → β} (h : Needs action front) : Needs (do return f (← action)) front := by
  intro name short hs hne
  obtain ⟨r, hr⟩ := h name short hs hne
  exact ⟨r, FieldReader.run_bind_of_error hr⟩

theorem number (width n : Nat) : Needs (FieldReader.number width) (LittleEndian.encode width n) := by
  have h := (take (LittleEndian.encode width n)).map (f := LittleEndian.decode)
  rwa [LittleEndian.length_encode] at h

theorem bool (v : Bool) : Needs FieldReader.bool [if v then 1 else 0] := by
  have hread : Reads (FieldReader.number 1) [if v then 1 else 0] (if v then 1 else 0) := by
    cases v with
    | true => exact .number 1 1
    | false => exact .number 1 0
  have hneeds : Needs (FieldReader.number 1) [if v then 1 else 0] := by
    cases v with
    | true => exact number 1 1
    | false => exact number 1 0
  exact hneeds.bind hread (nil _)

theorem blob {v : Bytes} (h : v.length < 4294967296) :
    Needs FieldReader.blob (LittleEndian.encode 4 v.length ++ v) := by
  have hn := Reads.number 4 v.length
  rw [Nat.mod_eq_of_lt (show v.length < LittleEndian.range 4 from h)] at hn
  exact (number 4 v.length).bind hn (take v)

end Needs

/-- Each field is needed to its last byte. -/
theorem Field.needs {f : Field} {bytes : Bytes} (h : f.encode = .ok bytes) :
    Needs (FieldReader.field f.kind) bytes := by
  cases f with
  | u8 v =>
    cases h
    have hv : LittleEndian.encode 1 v.toNat = [v] := by simp [LittleEndian.encode]
    rw [← hv]
    exact (Needs.number 1 v.toNat).map.map
  | bool v =>
    cases h
    exact (Needs.bool v).map
  | u32 v =>
    cases h
    exact (Needs.number 4 v.toNat).map.map
  | i32 v =>
    cases h
    exact (Needs.number 4 v.toUInt32.toNat).map.map
  | u64 v =>
    cases h
    exact (Needs.number 8 v.toNat).map.map
  | blob v =>
    obtain ⟨n, hn, h⟩ := bind_eq_ok_iff.mp h
    obtain ⟨hlt, hn⟩ := lengthPrefix_eq_ok hn
    cases h
    rw [hn]
    exact (Needs.blob hlt).map

/-- Reading some fields breaks off at one of them for want of bytes, when all before it have been read. -/
def BreaksOff (name : String) (short : Bytes) (fs : List Field) : Prop :=
  ∃ before f later rest r, fs = before ++ f :: later ∧
    (FieldReader.fields (before.map Field.kind)).run.run ⟨name, short⟩ = (.ok before, ⟨name, rest⟩) ∧
    (FieldReader.field f.kind).run.run ⟨name, rest⟩ = (.error (.corrupt name "truncated"), r)

theorem breaksOff {fs : List Field} {data short : Bytes} (h : Field.encodeAll fs = .ok data)
    (hs : short <+: data) (hne : short ≠ data) (name : String) : BreaksOff name short fs := by
  induction fs generalizing data short with
  | nil =>
    cases h
    exact absurd (List.prefix_nil.mp hs) hne
  | cons f fs ih =>
    obtain ⟨front, rest, hf, hfs, rfl⟩ := Field.encodeAll_cons_eq_ok h
    rcases prefix_append_cases hs hne with ⟨hs, hne⟩ | ⟨short, rfl, hs, hne⟩
    · obtain ⟨r, hr⟩ := Field.needs hf name short hs hne
      exact ⟨[], f, fs, short, r, rfl, rfl, hr⟩
    · obtain ⟨before, g, later, left, r, rfl, hbefore, hg⟩ := ih hfs hs hne
      refine ⟨f :: before, g, later, left, r, rfl, ?_, hg⟩
      rw [List.map_cons, FieldReader.fields, FieldReader.run_bind_of_ok (Field.reads hf name short),
        FieldReader.run_bind_of_ok hbefore]
      rfl

/-! ### The whole payload -/

theorem run_finish (name : String) (rest : Bytes) : FieldReader.finish.run.run ⟨name, rest⟩ =
    (if rest = [] then .ok () else .error (.corrupt name "trailing bytes"), ⟨name, rest⟩) := by
  cases rest <;> rfl

/-- A payload is read as a whole if the action succeeds and leaves nothing over. -/
theorem readAll_eq_ok {α : Type} {action : ReadM α} {name : String} {data : Bytes} {a : α} :
    FieldReader.readAll name data action = .ok a ↔
      ∃ name', action.run.run ⟨name, data⟩ = (.ok a, ⟨name', []⟩) := by
  constructor
  · intro h
    have hrun : ∃ r, (do let a ← action; FieldReader.finish; return a : ReadM α).run.run ⟨name, data⟩ =
        (.ok a, r) := ⟨_, Prod.ext h rfl⟩
    obtain ⟨r, hrun⟩ := hrun
    obtain ⟨b, ⟨name', rest⟩, hb, hfinish⟩ := FieldReader.run_bind_eq_ok hrun
    obtain ⟨_, _, hfinish, hreturn⟩ := FieldReader.run_bind_eq_ok hfinish
    cases hreturn
    rw [run_finish] at hfinish
    split at hfinish
    next hrest => exact ⟨name', by rw [hb, hrest]⟩
    next => cases hfinish
  · rintro ⟨name', h⟩
    unfold FieldReader.readAll
    rw [FieldReader.run_bind_of_ok h]
    rfl

/-- These bytes are read as these fields, and neither with bytes missing nor with more behind them. -/
structure Spells (name : String) (data : Bytes) (fs : List Field) : Prop where
  whole : FieldReader.readAll name data (FieldReader.fields (fs.map Field.kind)) = .ok fs
  short : ∀ short, short <+: data → short ≠ data → BreaksOff name short fs
  /-- All fields are there, but reading does not end behind them. -/
  long : ∀ extra, extra ≠ [] →
    (FieldReader.fields (fs.map Field.kind)).run.run ⟨name, data ++ extra⟩ = (.ok fs, ⟨name, extra⟩) ∧
    (FieldReader.finish.run.run ⟨name, extra⟩).1 = .error (.corrupt name "trailing bytes")

theorem spells {fs : List Field} {data : Bytes} (h : Field.encodeAll fs = .ok data) (name : String) :
    Spells name data fs := by
  have hreads := Field.reads_all h
  refine ⟨hreads.readAll name, fun short hs hne => breaksOff h hs hne name, fun extra hextra => ?_⟩
  refine ⟨hreads name extra, ?_⟩
  rw [run_finish, if_neg hextra]

/-- Fields whose byte strings can tell their length are written as bytes that spell them and nothing else;
no other bytes are read as fields of the same kinds. Whatever is asked of a reader, and whether it succeeds
or not, its place moves on within the bytes it was given. -/
theorem payload_exact (name : String) :
    (∀ fs, (∀ v, Field.blob v ∈ fs → v.length < 4294967296) →
      ∃ data, Field.encodeAll fs = .ok data ∧ Spells name data fs) ∧
    (∀ data kinds fs, FieldReader.readAll name data (FieldReader.fields kinds) = .ok fs →
      fs.map Field.kind = kinds ∧ Field.encodeAll fs = .ok data) ∧
    (∀ data earlier later, ∃ place place', place ≤ place' ∧ place' ≤ data.length ∧
      FieldReader.after ⟨name, data⟩ earlier = ⟨name, data.drop place⟩ ∧
      FieldReader.after ⟨name, data⟩ (earlier ++ later) = ⟨name, data.drop place'⟩) := by
  refine ⟨fun fs hfs => ?_, fun data kinds fs h => ?_, fun data earlier later => ?_⟩
  · obtain ⟨data, hdata⟩ := Field.encodeAll_ok hfs
    exact ⟨data, hdata, spells hdata name⟩
  · obtain ⟨name', h⟩ := readAll_eq_ok.mp h
    obtain ⟨front, hfront, -, hkinds, hwritten⟩ := Field.accepts_all kinds _ _ _ h
    simp only [List.append_nil] at hfront
    exact ⟨hkinds, hfront ▸ hwritten⟩
  · obtain ⟨n, hn, h⟩ := FieldReader.after_eq ⟨name, data⟩ earlier
    obtain ⟨n', hn', h'⟩ := FieldReader.after_eq (FieldReader.after ⟨name, data⟩ earlier) later
    rw [h] at hn' h'
    simp only [List.length_drop, List.drop_drop] at hn hn' h'
    refine ⟨n, n + n', by omega, by omega, h, ?_⟩
    rw [FieldReader.after_append, h]
    exact h'

/-- A record of three fields, cut off within the first one and read past the end. -/
theorem payload_exact_record : ∃ data, Field.encodeAll [.u32 7, .bool true, .blob [97, 98, 99]] = .ok data ∧
    data.length = 12 ∧ BreaksOff "test" (data.take 3) [.u32 7, .bool true, .blob [97, 98, 99]] ∧
    ∃ place ≤ 12, FieldReader.after ⟨"test", data⟩ [.blob, .bool, .u64] = ⟨"test", data.drop place⟩ := by
  obtain ⟨hwritten, -, hplaces⟩ := payload_exact "test"
  have hfits : ∀ v, Field.blob v ∈ [.u32 7, .bool true, .blob [97, 98, 99]] → v.length < 4294967296 := by
    intro v hv
    simp only [List.mem_cons, Field.blob.injEq, List.not_mem_nil, or_false, reduceCtorEq, false_or] at hv
    subst hv
    decide
  obtain ⟨data, hdata, hspells⟩ := hwritten _ hfits
  have hlen : data.length = 12 := by
    cases hdata
    rfl
  obtain ⟨place, place', hle, hend, hafter, -⟩ := hplaces data [.blob, .bool, .u64] []
  refine ⟨data, hdata, hlen, hspells.short _ (List.take_prefix 3 data) fun he => ?_, place, by omega, hafter⟩
  have hshort := congrArg List.length he
  rw [List.length_take, hlen] at hshort
  omega

end Tandem.Archive
