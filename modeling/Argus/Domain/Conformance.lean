import Argus.Domain.Capability

/-!
# What the input validator decides

`Conforms` says what it is for a document to conform to a schema, in the subset of JSON Schema
that the declarations use: a type, required keys, properties, a closed object, and items. The
validator decides it. `Loosens` compares two schemas: what one accepts, a looser one does.
-/

namespace Argus

open Value

/-! ### Conformance -/

/-- The document has the type of the name. A name of no type constrains nothing. -/
structure OfKind (kind : String) (input : Value) : Prop where
  object : kind = "object" → ∃ fields, input = .object fields
  array : kind = "array" → ∃ items, input = .array items
  string : kind = "string" → ∃ text, input = .string text
  integer : kind = "integer" →
    (∃ n, input = .number (.posInt n)) ∨ ∃ n, input = .number (.negInt n)
  number : kind = "number" → ∃ n, input = .number n
  boolean : kind = "boolean" → ∃ b, input = .bool b
  null : kind = "null" → input = .null

/-- The keys that a schema requires. -/
def requiredKeys (schema : Value) : List String :=
  match schema.get "required" with
  | some (.array required) => required.filterMap asStr
  | _ => []

/-- The properties that a schema declares, with their schemas. -/
def declaredProperties (schema : Value) : List (String × Value) :=
  match schema.get "properties" with
  | some (.object properties) => properties
  | _ => []

/-- The schema admits no property but the declared ones. -/
def IsClosed (schema : Value) : Prop := schema.get "additionalProperties" = some (.bool false)

/-- A document conforms to a schema. -/
inductive Conforms : Value → Value → Prop
  /-- What is not an object constrains nothing. -/
  | unconstrained {schema input : Value} (h : schema.asObject = none) : Conforms schema input
  | constrained {schema input : Value}
      (kind : ∀ kind, schema.getStr "type" = some kind → OfKind kind input)
      (required : ∀ fields, input = .object fields → ∀ key ∈ requiredKeys schema,
        key ∈ fields.map Prod.fst)
      (closed : ∀ fields, input = .object fields → IsClosed schema →
        ∀ field ∈ fields, field.1 ∈ (declaredProperties schema).map Prod.fst)
      (properties : ∀ fields, input = .object fields → ∀ key inner,
        (key, inner) ∈ declaredProperties schema → ∀ value, fields.lookup key = some value →
          Conforms inner value)
      (items : ∀ elements, input = .array elements → ∀ inner, schema.get "items" = some inner →
        ∀ element ∈ elements, Conforms inner element) :
      Conforms schema input

theorem matchesKind_iff {kind : String} {input : Value} :
    matchesKind kind input = true ↔ OfKind kind input := by
  constructor
  · intro h
    constructor <;> rintro rfl
    case object | array | string | number | boolean =>
      cases input <;> first | exact ⟨_, rfl⟩ | cases h
    case null => cases input <;> first | rfl | cases h
    case integer =>
      cases input with
      | number n =>
          cases n with
          | posInt n => exact .inl ⟨n, rfl⟩
          | negInt n => exact .inr ⟨n, rfl⟩
          | float x => cases h
          | negZero => cases h
      | _ => cases h
  · intro h
    unfold matchesKind
    -- where the type is known and the document is not of it, the field of that type says it is
    split <;> try rfl
    · rename_i hne
      obtain ⟨fields, rfl⟩ := h.object rfl
      exact absurd rfl (hne fields)
    · rename_i hne
      obtain ⟨items, rfl⟩ := h.array rfl
      exact absurd rfl (hne items)
    · rename_i hne
      obtain ⟨text, rfl⟩ := h.string rfl
      exact absurd rfl (hne text)
    · rename_i hpos hneg
      rcases h.integer rfl with ⟨n, rfl⟩ | ⟨n, rfl⟩
      · exact absurd rfl (hpos n)
      · exact absurd rfl (hneg n)
    · rename_i hne
      obtain ⟨n, rfl⟩ := h.number rfl
      exact absurd rfl (hne n)
    · rename_i hne
      obtain ⟨b, rfl⟩ := h.boolean rfl
      exact absurd rfl (hne b)
    · rename_i hne
      exact absurd (h.null rfl) hne

theorem lookup_isSome_iff_mem {α : Type} {key : String} {fields : List (String × α)} :
    (fields.lookup key).isSome = true ↔ key ∈ fields.map Prod.fst := by
  rw [List.lookup_isSome_iff, List.mem_map]
  constructor
  · intro h
    obtain ⟨field, hfield, hkey⟩ := h
    exact ⟨field, hfield, (beq_iff_eq.mp hkey).symm⟩
  · intro h
    obtain ⟨field, hfield, rfl⟩ := h
    exact ⟨field, hfield, beq_self_eq_true _⟩

theorem requiredPresent_iff {schema : Value} {fields : List (String × Value)} :
    requiredPresent schema fields = true ↔
      ∀ key ∈ requiredKeys schema, key ∈ fields.map Prod.fst := by
  unfold requiredPresent requiredKeys
  cases schema.get "required" with
  | none => simp
  | some required =>
      cases required <;> simp only [List.all_eq_true, lookup_isSome_iff_mem, List.not_mem_nil,
        false_imp_iff, implies_true]

theorem noAdditional_iff {schema : Value} {fields : List (String × Value)} :
    noAdditional schema fields = true ↔
      (IsClosed schema → ∀ field ∈ fields, field.1 ∈ (declaredProperties schema).map Prod.fst) := by
  unfold noAdditional IsClosed
  split
  · rename_i hclosed
    simp only [List.all_eq_true, hclosed, true_imp_iff]
    -- a name is declared if it is one of the properties
    refine forall₂_congr fun field _ => ?_
    unfold declaredProperties
    cases schema.get "properties" with
    | none => simp
    | some properties => cases properties <;> simp [asObject]
  · rename_i hopen
    exact iff_of_true rfl fun hclosed => absurd hclosed hopen

variable {constraints : List (String × Value)}

theorem kind_iff {schema input : Value} :
    (match schema.getStr "type" with
      | some kind => matchesKind kind input
      | none => true) = true ↔
      ∀ kind, schema.getStr "type" = some kind → OfKind kind input := by
  cases schema.getStr "type" with
  | none => simp
  | some kind => simp [matchesKind_iff]

theorem inputMatches_object {fields : List (String × Value)} :
    inputMatches (.object constraints) (.object fields) = true ↔
      (∀ kind, getStr "type" (.object constraints) = some kind → OfKind kind (.object fields)) ∧
      (∀ key ∈ requiredKeys (.object constraints), key ∈ fields.map Prod.fst) ∧
      (IsClosed (.object constraints) →
        ∀ field ∈ fields, field.1 ∈ (declaredProperties (.object constraints)).map Prod.fst) ∧
      ∀ key inner, (key, inner) ∈ declaredProperties (.object constraints) →
        ∀ value, fields.lookup key = some value → inputMatches inner value = true := by
  rw [inputMatches]
  simp only [asObject, Bool.and_eq_true, requiredPresent_iff, noAdditional_iff, and_assoc]
  refine and_congr kind_iff (and_congr_right' (and_congr_right' ?_))
  split
  · rename_i properties hproperties
    simp only [declaredProperties, hproperties, List.all_eq_true, List.mem_attach, true_imp_iff,
      Subtype.forall, Prod.forall]
    refine forall₃_congr fun key inner _ => ?_
    cases fields.lookup key <;> simp
  · rename_i hproperties
    refine iff_of_true rfl fun key inner hmem => ?_
    unfold declaredProperties at hmem
    split at hmem
    · exact absurd ‹_› (hproperties _)
    · cases hmem

theorem inputMatches_array {items : List Value} :
    inputMatches (.object constraints) (.array items) = true ↔
      (∀ kind, getStr "type" (.object constraints) = some kind → OfKind kind (.array items)) ∧
      ∀ inner, get "items" (.object constraints) = some inner →
        ∀ item ∈ items, inputMatches inner item = true := by
  rw [inputMatches]
  simp only [asObject, Bool.and_eq_true]
  refine and_congr kind_iff ?_
  split
  · rename_i inner hinner
    simp [hinner]
  · rename_i hnone
    simp [hnone]

/-- Of any other document only the type is asked. -/
theorem inputMatches_scalar {input : Value} (hobject : ∀ fields, input ≠ .object fields)
    (harray : ∀ items, input ≠ .array items) :
    inputMatches (.object constraints) input = true ↔
      ∀ kind, getStr "type" (.object constraints) = some kind → OfKind kind input := by
  unfold inputMatches
  simp only [asObject, Bool.and_eq_true]
  cases input with
  | object fields => exact absurd rfl (hobject fields)
  | array items => exact absurd rfl (harray items)
  | _ => exact (and_iff_left trivial).trans kind_iff

theorem sizeOf_declared_lt {schema inner : Value} {key : String}
    (h : (key, inner) ∈ declaredProperties schema) : sizeOf inner < sizeOf schema := by
  unfold declaredProperties at h
  split at h
  · rename_i properties hproperties
    have hlt := Value.sizeOf_get_lt hproperties
    have hmem := List.sizeOf_lt_of_mem h
    simp only [Prod.mk.sizeOf_spec, Value.object.sizeOf_spec] at hlt hmem
    omega
  · cases h

/-- The validator decides conformance. The recursion is that of the validator, on the schema. -/
theorem inputMatches_iff_conforms (schema input : Value) :
    inputMatches schema input = true ↔ Conforms schema input := by
  cases hschema : schema.asObject with
  | none => exact iff_of_true (inputMatches_of_asObject_none hschema input) (.unconstrained hschema)
  | some constraints =>
      -- what the inner schemas accept, by the recursion
      have hinner (key : String) (inner : Value)
          (h : (key, inner) ∈ declaredProperties schema) (value : Value) :
          inputMatches inner value = true ↔ Conforms inner value :=
        have := sizeOf_declared_lt h
        inputMatches_iff_conforms inner value
      have hitem (inner : Value) (h : get "items" schema = some inner)
          (item : Value) : inputMatches inner item = true ↔ Conforms inner item :=
        have := Value.sizeOf_get_lt h
        inputMatches_iff_conforms inner item
      obtain rfl : schema = .object constraints := by
        cases schema <;> cases hschema
        rfl
      constructor
      · intro h
        cases input with
        | object fields =>
            obtain ⟨hkind, hrequired, hclosed, hproperties⟩ := inputMatches_object.mp h
            refine .constrained hkind ?_ ?_ ?_ fun _ hne => nomatch hne
            · rintro _ ⟨⟩
              exact hrequired
            · rintro _ ⟨⟩
              exact hclosed
            · rintro _ ⟨⟩ key inner hmem value hvalue
              exact (hinner key inner hmem value).mp (hproperties key inner hmem value hvalue)
        | array items =>
            -- the constraints on objects say nothing here
            obtain ⟨hkind, hitems⟩ := inputMatches_array.mp h
            refine .constrained hkind (fun _ hne => nomatch hne) (fun _ hne => nomatch hne)
              (fun _ hne => nomatch hne) ?_
            rintro _ ⟨⟩ inner hget item hmem
            exact (hitem inner hget item).mp (hitems inner hget item hmem)
        | _ =>
            have hkind := (inputMatches_scalar (by simp) (by simp)).mp h
            exact .constrained hkind nofun nofun nofun nofun
      · intro h
        cases h with
        | unconstrained hnone => cases hnone
        | constrained hkind hrequired hclosed hproperties hitems =>
            cases input with
            | object fields =>
                refine inputMatches_object.mpr
                  ⟨hkind, hrequired fields rfl, hclosed fields rfl, ?_⟩
                intro key inner hmem value hvalue
                exact (hinner key inner hmem value).mpr
                  (hproperties fields rfl key inner hmem value hvalue)
            | array items =>
                refine inputMatches_array.mpr ⟨hkind, fun inner hget item hmem => ?_⟩
                exact (hitem inner hget item).mpr (hitems items rfl inner hget item hmem)
            | _ => exact (inputMatches_scalar (by simp) (by simp)).mpr hkind
termination_by sizeOf schema

/-! ### Looser schemas -/

/-- The field of the name takes another document. -/
def putField (key : String) (value : Value) (fields : List (String × Value)) :
    List (String × Value) :=
  fields.map fun field => if field.1 = key then (key, value) else field

theorem lookup_cons_ite {key name : String} {value : Value} {fields : List (String × Value)} :
    ((key, value) :: fields).lookup name =
      if name = key then some value else fields.lookup name := by
  rw [List.lookup_cons]
  by_cases hname : name = key
  · rw [if_pos hname, hname, beq_self_eq_true]
  · rw [if_neg hname, beq_false_of_ne hname]

theorem lookup_putField {key : String} {value : Value} {fields : List (String × Value)}
    (name : String) :
    (putField key value fields).lookup name =
      if name = key then (fields.lookup key).map fun _ => value else fields.lookup name := by
  induction fields with
  | nil => simp [putField]
  | cons field fields ih =>
      obtain ⟨other, document⟩ := field
      simp only [putField, List.map_cons] at ih ⊢
      by_cases hkey : other = key <;> by_cases hname : name = key <;>
        by_cases hother : name = other <;> simp_all [lookup_cons_ite]

theorem mem_putField {key name : String} {value inner : Value} {fields : List (String × Value)}
    (h : (name, inner) ∈ putField key value fields) :
    (name, inner) ∈ fields ∨ name = key ∧ inner = value := by
  obtain ⟨field, hmem, heq⟩ := List.mem_map.mp h
  split at heq
  · cases heq
    exact .inr ⟨rfl, rfl⟩
  · exact .inl (heq ▸ hmem)

theorem map_fst_putField {key : String} {value : Value} {fields : List (String × Value)} :
    (putField key value fields).map Prod.fst = fields.map Prod.fst := by
  unfold putField
  rw [List.map_map]
  refine List.map_congr_left fun field _ => ?_
  by_cases hkey : field.1 = key <;> simp [hkey]

namespace Value

/-- The document with another document in its field of the name. -/
def put (document : Value) (key : String) (value : Value) : Value :=
  match document with
  | object fields => object (putField key value fields)
  | document => document

/-- The document without its field of the name. -/
def drop (document : Value) (key : String) : Value :=
  match document with
  | object fields => object (fields.filter fun field => field.1 != key)
  | document => document

theorem get_put {key name : String} {value document : Value} :
    (document.put key value).get name =
      if name = key then (document.get key).map fun _ => value else document.get name := by
  cases document <;> first | exact lookup_putField name | simp [put, get]

theorem get_drop {key name : String} {document : Value} :
    (document.drop key).get name = if name = key then none else document.get name := by
  cases document with
  | object fields =>
      simp only [drop, get]
      induction fields with
      | nil => simp
      | cons field fields ih =>
          obtain ⟨other, document⟩ := field
          rw [List.filter_cons, lookup_cons_ite]
          by_cases hkey : other = key <;> by_cases hname : name = key <;>
            by_cases hother : name = other <;> simp_all [lookup_cons_ite, -List.lookup_eq_none_iff]
  | _ => simp [drop, get]

end Value

/-- The second schema is the first, loosened: at any depth a schema gives way to the empty one, a
required key is dropped, or an object is open again. -/
inductive Loosens : Value → Value → Prop
  | refl (schema : Value) : Loosens schema schema
  | trans {tight middle loose : Value} (h : Loosens tight middle) (h' : Loosens middle loose) :
      Loosens tight loose
  | emptied (schema : Value) : Loosens schema (.object [])
  | notRequired {schema : Value} {required : List Value}
      (h : schema.get "required" = some (.array required)) (i : Nat) :
      Loosens schema (schema.put "required" (.array (required.eraseIdx i)))
  | opened (schema : Value) : Loosens schema (schema.drop "additionalProperties")
  | property {schema tight loose : Value} {properties : List (String × Value)} {key : String}
      (h : schema.get "properties" = some (.object properties))
      (hkey : properties.lookup key = some tight) (hloose : Loosens tight loose) :
      Loosens schema (schema.put "properties" (.object (putField key loose properties)))
  | items {schema tight loose : Value} (h : schema.get "items" = some tight)
      (hloose : Loosens tight loose) : Loosens schema (schema.put "items" loose)

/-- A schema accepts what another does, if each of its constraints is one of the other's, or looser
than one. -/
theorem inputMatches_of_looser {tight loose input : Value}
    (hkind : loose.getStr "type" = tight.getStr "type")
    (hrequired : requiredKeys loose ⊆ requiredKeys tight)
    (hclosed : IsClosed loose → IsClosed tight ∧
      (declaredProperties tight).map Prod.fst ⊆ (declaredProperties loose).map Prod.fst)
    (hproperties : ∀ key inner, (key, inner) ∈ declaredProperties loose →
      ∃ inner', (key, inner') ∈ declaredProperties tight ∧
        ∀ value, inputMatches inner' value = true → inputMatches inner value = true)
    (hitems : ∀ inner, loose.get "items" = some inner →
      ∃ inner', tight.get "items" = some inner' ∧
        ∀ value, inputMatches inner' value = true → inputMatches inner value = true)
    (h : inputMatches tight input = true) : inputMatches loose input = true := by
  rw [inputMatches_iff_conforms] at h ⊢
  cases h with
  | unconstrained hnone =>
      -- a schema that is not an object has no constraint, and so its loosening has none
      have htight (key : String) : tight.get key = none := by
        cases tight <;> first | rfl | cases hnone
      refine .constrained ?_ ?_ ?_ ?_ ?_
      · intro kind hkind'
        rw [hkind, Value.getStr, htight] at hkind'
        cases hkind'
      · intro fields _ key hkey
        have hmem := hrequired hkey
        rw [requiredKeys, htight] at hmem
        cases hmem
      · intro fields _ hclosed'
        have habsent := (hclosed hclosed').1
        rw [IsClosed, htight] at habsent
        cases habsent
      · intro fields _ key inner hmem
        obtain ⟨inner', hmem', -⟩ := hproperties key inner hmem
        rw [declaredProperties, htight] at hmem'
        cases hmem'
      · intro elements _ inner hinner
        obtain ⟨inner', hinner', -⟩ := hitems inner hinner
        rw [htight] at hinner'
        cases hinner'
  | constrained kind required closed properties items =>
      refine .constrained ?_ ?_ ?_ ?_ ?_
      · exact fun name hname => kind name (hkind ▸ hname)
      · exact fun fields hfields key hkey => required fields hfields key (hrequired hkey)
      · intro fields hfields hclosed' field hfield
        obtain ⟨hclosed, hdeclared⟩ := hclosed hclosed'
        exact hdeclared (closed fields hfields hclosed field hfield)
      · intro fields hfields key inner hmem value hvalue
        obtain ⟨inner', hmem', haccepts⟩ := hproperties key inner hmem
        have hconforms := properties fields hfields key inner' hmem' value hvalue
        rw [← inputMatches_iff_conforms] at hconforms ⊢
        exact haccepts value hconforms
      · intro elements helements inner hinner element helement
        obtain ⟨inner', hinner', haccepts⟩ := hitems inner hinner
        have hconforms := items elements helements inner' hinner' element helement
        rw [← inputMatches_iff_conforms] at hconforms ⊢
        exact haccepts element hconforms

/-- What a schema accepts, a looser one accepts. -/
theorem inputMatches_of_loosens {tight loose : Value} (h : Loosens tight loose) :
    ∀ input, inputMatches tight input = true → inputMatches loose input = true := by
  induction h with
  | refl schema => exact fun _ => id
  | trans _ _ ih ih' => exact fun input hinput => ih' input (ih input hinput)
  | emptied schema =>
      intro input _
      rw [inputMatches_iff_conforms]
      refine .constrained ?_ ?_ ?_ ?_ ?_ <;>
        simp [getStr, Value.get, requiredKeys, IsClosed, declaredProperties]
  | @notRequired schema required h i =>
      have hget (name : String) (hname : name ≠ "required") :
          (schema.put "required" (.array (required.eraseIdx i))).get name = schema.get name := by
        rw [get_put, if_neg hname]
      have hdeclared : declaredProperties (schema.put "required" (.array (required.eraseIdx i))) =
          declaredProperties schema := by
        rw [declaredProperties, hget _ (by decide), declaredProperties]
      refine fun input => inputMatches_of_looser ?_ ?_ ?_ ?_ ?_
      · rw [getStr, hget _ (by decide), getStr]
      · simp only [requiredKeys, get_put, if_true, h, Option.map_some]
        exact ((List.eraseIdx_sublist required i).filterMap asStr).subset
      · rw [IsClosed, hget _ (by decide), hdeclared]
        exact fun hclosed => ⟨hclosed, List.Subset.refl _⟩
      · rw [hdeclared]
        exact fun key inner hmem => ⟨inner, hmem, fun _ => id⟩
      · rw [hget _ (by decide)]
        exact fun inner hinner => ⟨inner, hinner, fun _ => id⟩
  | opened schema =>
      have hget (name : String) (hname : name ≠ "additionalProperties") :
          (schema.drop "additionalProperties").get name = schema.get name := by
        rw [get_drop, if_neg hname]
      have hdeclared : declaredProperties (schema.drop "additionalProperties") =
          declaredProperties schema := by
        rw [declaredProperties, hget _ (by decide), declaredProperties]
      refine fun input => inputMatches_of_looser ?_ ?_ ?_ ?_ ?_
      · rw [getStr, hget _ (by decide), getStr]
      · rw [requiredKeys, hget _ (by decide)]
        exact List.Subset.refl _
      · intro hclosed
        rw [IsClosed, get_drop, if_pos rfl] at hclosed
        cases hclosed
      · rw [hdeclared]
        exact fun key inner hmem => ⟨inner, hmem, fun _ => id⟩
      · rw [hget _ (by decide)]
        exact fun inner hinner => ⟨inner, hinner, fun _ => id⟩
  | @property schema tight loose properties key h hkey _ ih =>
      have hget (name : String) (hname : name ≠ "properties") :
          (schema.put "properties" (.object (putField key loose properties))).get name =
            schema.get name := by
        rw [get_put, if_neg hname]
      have hdeclared : declaredProperties schema = properties := by rw [declaredProperties, h]
      have hdeclared' : declaredProperties
          (schema.put "properties" (.object (putField key loose properties))) =
            putField key loose properties := by
        rw [declaredProperties, get_put, if_pos rfl, h]
        rfl
      refine fun input => inputMatches_of_looser ?_ ?_ ?_ ?_ ?_
      · rw [getStr, hget _ (by decide), getStr]
      · rw [requiredKeys, hget _ (by decide)]
        exact List.Subset.refl _
      · rw [IsClosed, hget _ (by decide), hdeclared, hdeclared', map_fst_putField]
        exact fun hclosed => ⟨hclosed, List.Subset.refl _⟩
      · rw [hdeclared, hdeclared']
        intro name inner hmem
        rcases mem_putField hmem with hmem | ⟨rfl, rfl⟩
        · exact ⟨inner, hmem, fun _ => id⟩
        · obtain ⟨before, after, rfl, -⟩ := List.lookup_eq_some_iff.mp hkey
          exact ⟨tight, by simp, ih⟩
      · rw [hget _ (by decide)]
        exact fun inner hinner => ⟨inner, hinner, fun _ => id⟩
  | @items schema tight loose h _ ih =>
      have hget (name : String) (hname : name ≠ "items") :
          (schema.put "items" loose).get name = schema.get name := by
        rw [get_put, if_neg hname]
      have hdeclared : declaredProperties (schema.put "items" loose) =
          declaredProperties schema := by
        rw [declaredProperties, hget _ (by decide), declaredProperties]
      refine fun input => inputMatches_of_looser ?_ ?_ ?_ ?_ ?_
      · rw [getStr, hget _ (by decide), getStr]
      · rw [requiredKeys, hget _ (by decide)]
        exact List.Subset.refl _
      · rw [IsClosed, hget _ (by decide), hdeclared]
        exact fun hclosed => ⟨hclosed, List.Subset.refl _⟩
      · rw [hdeclared]
        exact fun key inner hmem => ⟨inner, hmem, fun _ => id⟩
      · rw [get_put, if_pos rfl, h]
        rintro inner ⟨⟩
        exact ⟨tight, rfl, ih⟩

theorem inputMatches_congr {schema other : Value}
    (h : ∀ key ∈ ["type", "required", "additionalProperties", "properties", "items"],
      other.get key = schema.get key) (input : Value)
    (hinput : inputMatches schema input = true) : inputMatches other input = true := by
  have hdeclared : declaredProperties other = declaredProperties schema := by
    rw [declaredProperties, h _ (by decide), declaredProperties]
  refine inputMatches_of_looser ?_ ?_ ?_ ?_ ?_ hinput
  · rw [getStr, h _ (by decide), getStr]
  · rw [requiredKeys, h _ (by decide)]
    exact List.Subset.refl _
  · rw [IsClosed, h _ (by decide), hdeclared]
    exact fun hclosed => ⟨hclosed, List.Subset.refl _⟩
  · rw [hdeclared]
    exact fun key inner hmem => ⟨inner, hmem, fun _ => id⟩
  · rw [h _ (by decide)]
    exact fun inner hinner => ⟨inner, hinner, fun _ => id⟩

/-- The validator accepts exactly the documents that conform. It reads five keys of a schema and
ignores the others, and what it accepts it accepts under every looser schema. -/
theorem inputMatches_spec (schema : Value) :
    (∀ input, inputMatches schema input = true ↔ Conforms schema input) ∧
    (∀ other : Value, (∀ key ∈ ["type", "required", "additionalProperties", "properties", "items"],
        other.get key = schema.get key) →
      ∀ input, inputMatches other input = inputMatches schema input) ∧
    (∀ loose, Loosens schema loose →
      ∀ input, inputMatches schema input = true → inputMatches loose input = true) := by
  refine ⟨inputMatches_iff_conforms schema, fun other h input => ?_,
    fun loose => inputMatches_of_loosens⟩
  rw [Bool.eq_iff_iff]
  exact ⟨inputMatches_congr (fun key hkey => (h key hkey).symm) input,
    inputMatches_congr h input⟩

end Argus
