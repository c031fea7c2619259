import DoubleEntry.Records.Json
set_option autoImplicit false

/-! # Records are read from what is written of them

A decoder is exact for a way to write values (`Json.Exact`) when it reads just the valid values and
reads each of them from what is written of it. `Fields.Holds` says that a list of written fields is
good for a record, and the record is then read from the object of these fields and from the array of
them. A record is put together field by field, and so is the proof that its decoder is exact:
`Fields.Tells` is what holds of the fields so far, and `Fields.Tells.exact` concludes.
-/

namespace DoubleEntry

/-- The forms a record is written in: the object of its fields, or the array of them in the order of
declaration. -/
inductive Form where
  | object
  | array
  deriving DecidableEq, Repr

/-- Written fields in one of the forms. -/
def Form.json : Form → Written → Json
  | .object => Written.toJson
  | .array => Written.toArray

namespace Json

variable {α β ι : Type}

/-- A decoder that reads just the valid values, each of them from what is written of it. -/
structure Exact (decode : Decoder α) (json : α → Json) (valid : α → Prop) : Prop where
  valid_of_decode {v : Json} {a : α} : decode v = .ok a → valid a
  decode_json {a : α} : valid a → decode (json a) = .ok a

namespace Exact

theorem congr {decode : Decoder α} {json : α → Json} {valid valid' : α → Prop}
    (h : Exact decode json valid) (hv : ∀ a, valid a ↔ valid' a) : Exact decode json valid' where
  valid_of_decode hd := (hv _).1 (h.valid_of_decode hd)
  decode_json ha := h.decode_json ((hv _).2 ha)

/-- The values that can be read are the valid ones. -/
theorem exists_decode_iff {decode : Decoder α} {json : α → Json} {valid : α → Prop}
    (h : Exact decode json valid) (a : α) : (∃ v, decode v = .ok a) ↔ valid a :=
  ⟨fun ⟨_, hd⟩ => h.valid_of_decode hd, fun ha => ⟨json a, h.decode_json ha⟩⟩

end Exact

theorem exact_int (w : WordType) :
    Exact (decodeInt w) .int fun n => w.least ≤ n ∧ n ≤ w.greatest where
  valid_of_decode {v n} hd := by
    cases v with
    | int m =>
        simp only [decodeInt] at hd
        split at hd
        · next hm => exact Except.ok.inj hd ▸ hm
        · cases hd
    | _ => cases hd
  decode_json hn := if_pos hn

theorem exact_string : Exact decodeString .string fun _ => True where
  valid_of_decode _ := trivial
  decode_json _ := rfl

/-! ## Members of an object -/

theorem lookup_cons_ite (m : String × α) (members : List (String × α)) (n : String) :
    (m :: members).lookup n = if n = m.1 then some m.2 else members.lookup n := by
  rw [List.lookup_cons]
  by_cases h : n = m.1
  · rw [beq_iff_eq.2 h, if_pos h]
  · rw [beq_false_of_ne h, if_neg h]

theorem lookup_of_mem {members : List (String × α)} (hn : (members.map Prod.fst).Nodup)
    {m : String × α} (hm : m ∈ members) : members.lookup m.1 = some m.2 := by
  induction members with
  | nil => cases hm
  | cons m' rest ih =>
      obtain ⟨hnew, hrest⟩ := List.nodup_cons.1 hn
      rw [lookup_cons_ite]
      rcases List.mem_cons.1 hm with rfl | hm
      · exact if_pos rfl
      · rw [if_neg fun h : m.1 = m'.1 => hnew (h ▸ List.mem_map_of_mem hm)]
        exact ih hrest hm

theorem lookup_insertMember (name : String) (value : α) (members : List (String × α)) (n : String) :
    (insertMember name value members).lookup n =
      if n = name then some value else members.lookup n := by
  induction members with
  | nil => exact lookup_cons_ite _ _ _
  | cons m rest ih =>
      simp only [insertMember]
      split
      · exact lookup_cons_ite _ _ _
      · split
        · next h =>
            simp only [lookup_cons_ite, h]
            split <;> rfl
        · next h =>
            simp only [lookup_cons_ite, ih]
            split
            · next hm => rw [if_neg fun hname : n = name => h (hname ▸ hm)]
            · rfl

theorem mem_insertMember {name : String} {value : α} {members : List (String × α)}
    {m : String × α} (hm : m ∈ insertMember name value members) :
    m = (name, value) ∨ m ∈ members := by
  induction members with
  | nil => exact .inl (List.mem_singleton.1 hm)
  | cons m' rest ih =>
      simp only [insertMember] at hm
      split at hm
      · exact (List.mem_cons.1 hm)
      · split at hm
        · exact (List.mem_cons.1 hm).imp_right (List.mem_cons_of_mem _)
        · rcases List.mem_cons.1 hm with rfl | hm
          · exact .inr List.mem_cons_self
          · exact (ih hm).imp_right (List.mem_cons_of_mem _)

theorem mem_foldl_insertMember {members acc : List (String × α)} {m : String × α}
    (hm : m ∈ members.foldl (fun acc m => insertMember m.1 m.2 acc) acc) :
    m ∈ members ∨ m ∈ acc := by
  induction members generalizing acc with
  | nil => exact .inr hm
  | cons m' rest ih =>
      rcases ih hm with h | h
      · exact .inl (List.mem_cons_of_mem _ h)
      · rcases mem_insertMember h with rfl | h
        · exact .inl List.mem_cons_self
        · exact .inr h

theorem lookup_foldl_insertMember {members : List (String × α)}
    (hn : (members.map Prod.fst).Nodup) (acc : List (String × α)) (n : String) :
    (members.foldl (fun acc m => insertMember m.1 m.2 acc) acc).lookup n =
      (members.lookup n).or (acc.lookup n) := by
  induction members generalizing acc with
  | nil => rfl
  | cons m rest ih =>
      obtain ⟨hnew, hrest⟩ := List.nodup_cons.1 hn
      rw [List.foldl_cons, ih hrest, lookup_insertMember, lookup_cons_ite]
      split
      · next h =>
          have hnone : rest.lookup n = none := by
            refine List.lookup_eq_none_iff.2 fun m' hm' => bne_iff_ne.2 fun hname => hnew ?_
            exact h ▸ hname ▸ List.mem_map_of_mem hm'
          rw [hnone]
          rfl
      · rfl

/-! ## Fields of a record -/

namespace Fields

/-- Written fields that are those declared, in their order, and pass their tests. -/
inductive Passes : List (String × (Json → Except DecodeError Unit)) → Written → Prop where
  | nil : Passes [] []
  | cons {name : String} {check : Json → Except DecodeError Unit} {v : Json}
      {declared : List (String × (Json → Except DecodeError Unit))} {w : Written}
      (hv : check v = .ok ()) (rest : Passes declared w) :
      Passes ((name, check) :: declared) ((name, v) :: w)

namespace Passes

variable {declared declared' : List (String × (Json → Except DecodeError Unit))} {w w' : Written}

theorem append (h : Passes declared w) (h' : Passes declared' w') :
    Passes (declared ++ declared') (w ++ w') := by
  induction h with
  | nil => exact h'
  | cons hv _ ih => exact .cons hv ih

theorem names (h : Passes declared w) : declared.map Prod.fst = w.map Prod.fst := by
  induction h with
  | nil => rfl
  | cons _ _ ih => exact congrArg _ ih

theorem length (h : Passes declared w) : declared.length = w.length := by
  simpa using congrArg List.length h.names

/-- The written field passes the test that is declared under its name. -/
theorem check_of_mem (h : Passes declared w) (hn : (w.map Prod.fst).Nodup) {m : String × Json}
    (hm : m ∈ w) {check : Json → Except DecodeError Unit}
    (hcheck : declared.lookup m.1 = some check) : check m.2 = .ok () := by
  induction h with
  | nil => cases hm
  | @cons name _ _ _ _ hv hrest ih =>
      obtain ⟨hnew, hn⟩ := List.nodup_cons.1 hn
      rw [lookup_cons_ite] at hcheck
      rcases List.mem_cons.1 hm with rfl | hm
      · rw [if_pos rfl] at hcheck
        exact Option.some.inj hcheck ▸ hv
      · have hmem := List.mem_map_of_mem (f := Prod.fst) hm
        rw [if_neg fun hname : m.1 = name => hnew (hname ▸ hmem)] at hcheck
        exact ih hn hm hcheck

theorem checkMembers (h : Passes declared w) (hn : (w.map Prod.fst).Nodup) {members : Written}
    (hm : ∀ m ∈ members, m ∈ w) : checkMembers declared members = .ok () := by
  induction members with
  | nil => rfl
  | cons m rest ih =>
      have hrest := ih fun m' hm' => hm m' (List.mem_cons_of_mem _ hm')
      simp only [Fields.checkMembers]
      cases hl : declared.lookup m.1 with
      | none => exact hrest
      | some check =>
          simp only
          rw [h.check_of_mem hn (hm m List.mem_cons_self) hl]
          exact hrest

theorem checkItems (h : Passes declared w) : checkItems declared (w.map Prod.snd) = .ok () := by
  induction h with
  | nil => rfl
  | cons hv _ ih =>
      simp only [List.map_cons, Fields.checkItems]
      rw [hv]
      exact ih

end Passes

/-- Written fields that are good for a record: they pass the tests, and the record is put together
from any values among which they are. -/
structure Holds (f : Fields α) (w : Written) (a : α) : Prop where
  passes : Passes f.declared w
  build (get : String → Option Json) (absent : String → DecodeError) :
    (∀ m ∈ w, get m.1 = some m.2) → f.build get absent = .ok a

namespace Holds

theorem nothing (a : α) : (Fields.nothing a).Holds [] a := ⟨.nil, fun _ _ _ => rfl⟩

theorem field {f : Fields (α → β)} {w : Written} {g : α → β} (h : f.Holds w g) {name : String}
    {decode : Decoder α} {v : Json} {a : α} (hv : decode v = .ok a) :
    (f.field name decode).Holds (w ++ [(name, v)]) (g a) where
  passes := h.passes.append (.cons (by simp only [hv]; rfl) .nil)
  build get absent hget := by
    have hw := h.build get absent fun m hm => hget m (List.mem_append_left _ hm)
    have hname := hget (name, v) (List.mem_append_right _ List.mem_cons_self)
    simp only [Fields.field, hw, hname, hv]
    rfl

variable {f : Fields α} {w : Written} {a : α}

/-- The record is read from the object of the fields. -/
theorem decode_toJson (h : f.Holds w a) (hn : (w.map Prod.fst).Nodup) (name : String) :
    f.decode name w.toJson = .ok a := by
  have hcheck := h.passes.checkMembers hn fun m hm =>
    (mem_foldl_insertMember hm).resolve_right List.not_mem_nil
  simp only [Written.toJson, ofMembers, Fields.decode]
  rw [hcheck]
  refine h.build _ _ fun m hm => ?_
  rw [lookup_foldl_insertMember hn, lookup_of_mem hn hm]
  rfl

/-- The record is read from the array of the fields. -/
theorem decode_toArray (h : f.Holds w a) (hn : (w.map Prod.fst).Nodup) (name : String) :
    f.decode name w.toArray = .ok a := by
  have hzip : (f.declared.map Prod.fst).zip (w.map Prod.snd) = w := by
    rw [h.passes.names, List.zip_map']
    exact List.map_id w
  have hbuild := h.build (fun n => w.lookup n)
    (fun _ => .invalidLength (w.map Prod.snd).length (lengthText name f.declared.length))
    fun m hm => lookup_of_mem hn hm
  have hlength : ¬ f.declared.length < (w.map Prod.snd).length := by
    rw [h.passes.length, List.length_map]
    exact Nat.lt_irrefl _
  simp only [Written.toArray, Fields.decode, hzip, hbuild, if_neg hlength]
  rw [h.passes.checkItems]
  rfl

/-- The record is read from the fields in either form. -/
theorem decode_json (h : f.Holds w a) (hn : (w.map Prod.fst).Nodup) (name : String) (form : Form) :
    f.decode name (form.json w) = .ok a :=
  match form with
  | .object => h.decode_toJson hn name
  | .array => h.decode_toArray hn name

end Holds

/-! ## Reading, field by field -/

theorem exists_of_bind_eq_ok {ε : Type} {x : Except ε α} {next : α → Except ε β} {b : β}
    (h : x >>= next = .ok b) : ∃ a, x = .ok a ∧ next a = .ok b := by
  cases x with
  | error e => cases h
  | ok a => exact ⟨a, rfl, h⟩

/-- What is put together with one more field comes from a value of that field and from what is put
together without it. -/
theorem build_field_eq_ok {f : Fields (α → β)} {name : String} {decode : Decoder α}
    {get : String → Option Json} {absent : String → DecodeError} {b : β}
    (h : (f.field name decode).build get absent = .ok b) :
    ∃ g a v, f.build get absent = .ok g ∧ decode v = .ok a ∧ g a = b := by
  obtain ⟨g, hg, h⟩ := exists_of_bind_eq_ok h
  simp only at h
  split at h
  · next v _ =>
      obtain ⟨a, ha, h⟩ := exists_of_bind_eq_ok h
      exact ⟨g, a, v, hg, ha, Except.ok.inj h⟩
  · next hdefault => cases hdefault
  · cases h

/-- A record that is read is put together from values of its fields. -/
theorem build_of_decode {f : Fields α} {name : String} {v : Json} {a : α}
    (h : f.decode name v = .ok a) : ∃ get absent, f.build get absent = .ok a := by
  cases v with
  | object members =>
      obtain ⟨_, _, h⟩ := exists_of_bind_eq_ok h
      exact ⟨_, _, h⟩
  | array items =>
      obtain ⟨_, _, h⟩ := exists_of_bind_eq_ok h
      obtain ⟨b, hb, h⟩ := exists_of_bind_eq_ok h
      split at h
      · cases h
      · exact ⟨_, _, hb.trans h⟩
  | _ => cases h

/-- How the records of a kind are told by the values `i` of their fields: what is put together is a
record of valid values, and such a record is written with good fields. -/
structure Tells (f : Fields α) (record : ι → α) (written : ι → Written) (valid : ι → Prop) :
    Prop where
  of_build {get : String → Option Json} {absent : String → DecodeError} {a : α} :
    f.build get absent = .ok a → ∃ i, valid i ∧ record i = a
  holds (i : ι) : valid i → f.Holds (written i) (record i)

namespace Tells

theorem nothing (a : α) :
    (Fields.nothing a).Tells (fun _ : Unit => a) (fun _ => []) fun _ => True where
  of_build h := ⟨(), trivial, Except.ok.inj h⟩
  holds _ _ := .nothing a

theorem field {f : Fields (α → β)} {record : ι → α → β} {written : ι → Written} {valid : ι → Prop}
    (hf : f.Tells record written valid) (name : String) {decode : Decoder α} {json : α → Json}
    {fits : α → Prop} (hd : Exact decode json fits) :
    (f.field name decode).Tells (fun i : ι × α => record i.1 i.2)
      (fun i => written i.1 ++ [(name, json i.2)]) fun i => valid i.1 ∧ fits i.2 where
  of_build h := by
    obtain ⟨g, a, v, hg, ha, rfl⟩ := build_field_eq_ok h
    obtain ⟨i, hi, rfl⟩ := hf.of_build hg
    exact ⟨(i, a), ⟨hi, hd.valid_of_decode ha⟩, rfl⟩
  holds i hi := (hf.holds i.1 hi.1).field (hd.decode_json hi.2)

/-- The decoder of a record is exact, for either form of the record. -/
theorem exact {f : Fields α} {record : ι → α} {written : ι → Written} {valid : ι → Prop}
    (h : f.Tells record written valid) (values : α → ι) (hr : ∀ a, record (values a) = a)
    (hv : ∀ i, values (record i) = i) (hn : ∀ i, ((written i).map Prod.fst).Nodup) (name : String)
    (form : Form) :
    Exact (f.decode name) (fun a => form.json (written (values a))) fun a => valid (values a) where
  valid_of_decode hd := by
    obtain ⟨get, absent, hb⟩ := build_of_decode hd
    obtain ⟨i, hi, rfl⟩ := h.of_build hb
    rwa [hv]
  decode_json {a} ha := by
    have hholds := h.holds (values a) ha
    rw [hr] at hholds
    exact hholds.decode_json (hn _) name form

end Tells

end Fields

end Json

end DoubleEntry
