import Mathlib.Data.List.Basic
import Mathlib.Data.List.Nodup
import Onebox.Python.Json

/-!
# Validation models

A pydantic model with `extra="forbid"`: each field is read from the given mapping, validated, and
dumped again, or takes its default; keys that are no fields are refused. What a model accepts is
then dumped field by field, in the order of the model.

Validating a dump once more looks at the same fields again, so the model is idempotent exactly when
each of its fields accepts what it has dumped.
-/

namespace Python

/-- A field. `validate` combines the validators of the field with the dump of its value. -/
structure ModelField where
  name : String
  /-- The dump of the default, `none` for a required field. -/
  default : Option Json
  validate : Json → Option Json

namespace ModelField

/-- The dumped value of a field. -/
def read (field : ModelField) (given : List (String × Json)) : Option Json :=
  match given.lookup field.name with
  | some v => field.validate v
  | none => field.default

/-- What the field reads, it dumps as it is. -/
def Settled (field : ModelField) (given : List (String × Json)) : Prop :=
  ∀ v, field.read given = some v → field.validate v = some v

/-- What holds of every dumped value, and of the default, holds of what is read. -/
theorem of_read {field : ModelField} {given : List (String × Json)} {P : Json → Prop}
    (hvalidate : ∀ u v, field.validate u = some v → P v)
    (hdefault : ∀ d, field.default = some d → P d) {v : Json} (h : field.read given = some v) :
    P v := by
  rw [read] at h
  split at h
  · exact hvalidate _ v h
  · exact hdefault v h

/-- A field that leaves alone what it dumps, and its own default. -/
theorem settled_of_fixed {field : ModelField} {given : List (String × Json)}
    (hvalidate : ∀ {u w}, field.validate u = some w → field.validate w = some w)
    (hdefault : ∀ d, field.default = some d → field.validate d = some d) :
    field.Settled given := by
  intro v h
  exact of_read (fun _ _ ↦ hvalidate) hdefault h

end ModelField

/-- A model, by its fields. -/
abbrev Schema := List ModelField

namespace Schema

/-- The dump of all fields. -/
def dump : Schema → List (String × Json) → Option (List (String × Json))
  | [], _ => some []
  | field :: schema, given =>
    match field.read given, dump schema given with
    | some v, some dumped => some ((field.name, v) :: dumped)
    | _, _ => none

/-- `model(**given).model_dump(mode="json")`; `none` is the `ValidationError`. -/
def validate (schema : Schema) (given : List (String × Json)) : Option (List (String × Json)) :=
  if given.all fun entry ↦ schema.any (·.name = entry.1) then schema.dump given else none

variable {schema : Schema} {given given' dumped : List (String × Json)} {field : ModelField}
  {v : Json}

theorem dump_of_validate (h : schema.validate given = some dumped) :
    schema.dump given = some dumped := by
  rw [validate] at h
  split at h
  · exact h
  · cases h

theorem dump_cons (h : dump (field :: schema) given = some dumped) :
    ∃ v rest, field.read given = some v ∧ schema.dump given = some rest ∧
      dumped = (field.name, v) :: rest := by
  rw [dump] at h
  split at h
  · rename_i v rest hread hdump
    exact ⟨v, rest, hread, hdump, (Option.some.inj h).symm⟩
  · cases h

/-- A dump has the keys of the model, in its order. -/
theorem map_fst_dump (h : schema.dump given = some dumped) :
    dumped.map Prod.fst = schema.map ModelField.name := by
  induction schema generalizing dumped with
  | nil =>
    obtain rfl := Option.some.inj h
    rfl
  | cons field schema ih =>
    obtain ⟨v, rest, -, hdump, rfl⟩ := dump_cons h
    rw [List.map_cons, List.map_cons, ih hdump]

/-- The values of a dump are those of the fields. -/
theorem mem_dump (h : schema.dump given = some dumped) (hmem : field ∈ schema) :
    ∃ v, field.read given = some v ∧ (field.name, v) ∈ dumped := by
  induction schema generalizing dumped with
  | nil => cases hmem
  | cons first schema ih =>
    obtain ⟨v, rest, hread, hdump, rfl⟩ := dump_cons h
    rcases List.mem_cons.mp hmem with rfl | hmem
    · exact ⟨v, hread, List.mem_cons_self⟩
    · obtain ⟨w, hw, hin⟩ := ih hdump hmem
      exact ⟨w, hw, List.mem_cons_of_mem _ hin⟩

/-- A dump has nothing else. -/
theorem exists_of_mem_dump (h : schema.dump given = some dumped) {entry : String × Json}
    (hmem : entry ∈ dumped) :
    ∃ field ∈ schema, field.name = entry.1 ∧ field.read given = some entry.2 := by
  induction schema generalizing dumped with
  | nil =>
    obtain rfl := Option.some.inj h
    cases hmem
  | cons first schema ih =>
    obtain ⟨v, rest, hread, hdump, rfl⟩ := dump_cons h
    rcases List.mem_cons.mp hmem with rfl | hmem
    · exact ⟨first, List.mem_cons_self, rfl, hread⟩
    · obtain ⟨field, hfield, hentry⟩ := ih hdump hmem
      exact ⟨field, List.mem_cons_of_mem _ hfield, hentry⟩

/-- The fields that a model reads decide its dump. -/
theorem dump_congr (h : ∀ field ∈ schema, field.read given = field.read given') :
    schema.dump given = schema.dump given' := by
  induction schema with
  | nil => rfl
  | cons first schema ih =>
    rw [dump, dump, h first List.mem_cons_self,
      ih fun field hmem ↦ h field (List.mem_cons_of_mem _ hmem)]

/-- A dump holds under each field what was read of it. -/
theorem lookup_dump (hnodup : (schema.map ModelField.name).Nodup)
    (h : schema.dump given = some dumped) (hmem : field ∈ schema) :
    dumped.lookup field.name = field.read given := by
  induction schema generalizing dumped with
  | nil => cases hmem
  | cons first schema ih =>
    obtain ⟨hnot, hrest⟩ := List.nodup_cons.mp hnodup
    obtain ⟨v, rest, hread, hdump, rfl⟩ := dump_cons h
    rcases List.mem_cons.mp hmem with rfl | hmem
    · rw [List.lookup_cons_self, hread]
    · have hne : field.name ≠ first.name := fun heq ↦
        hnot (heq ▸ List.mem_map_of_mem hmem)
      rw [List.lookup_cons, beq_false_of_ne hne]
      exact ih hrest hdump hmem

/-- **A dump is dumped as it is exactly when every field accepts what it has dumped.** -/
theorem dump_dump_iff (hnodup : (schema.map ModelField.name).Nodup)
    (h : schema.dump given = some dumped) :
    schema.dump dumped = some dumped ↔ ∀ field ∈ schema, field.Settled given := by
  have hread : ∀ field ∈ schema, ∀ v, field.read given = some v →
      field.read dumped = field.validate v := by
    intro field hmem v hv
    rw [ModelField.read, lookup_dump hnodup h hmem, hv]
  constructor
  · intro hagain field hmem v hv
    rw [← hread field hmem v hv, ← lookup_dump hnodup hagain hmem, lookup_dump hnodup h hmem, hv]
  · intro hfixed
    rw [← h]
    refine dump_congr fun field hmem ↦ ?_
    obtain ⟨v, hv, -⟩ := mem_dump h hmem
    rw [hread field hmem v hv, hfixed field hmem v hv, hv]

/-- Where a model knows every key, it forbids nothing. -/
theorem validate_eq_dump (h : ∀ entry ∈ given, entry.1 ∈ schema.map ModelField.name) :
    schema.validate given = schema.dump given := by
  refine if_pos (List.all_eq_true.mpr fun entry hmem ↦ ?_)
  obtain ⟨field, hfield, hname⟩ := List.mem_map.mp (h entry hmem)
  exact List.any_eq_true.mpr ⟨field, hfield, by simpa using hname⟩

end Schema

end Python
