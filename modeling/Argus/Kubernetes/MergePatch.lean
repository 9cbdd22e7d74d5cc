import Argus.Domain.Conformance

/-!
# Merge patches

How the API server applies a patch to an object: objects are merged key by key, a key that the
patch does not have is kept, and anything else is replaced by what the patch has. So a patch
never takes a key away.

`same_mergePatch_iff` says when a document that is sent as a patch is also what comes out.
-/

namespace Argus.Value

mutual
/-- The document after the patch. -/
def mergePatch : (old patch : Value) → Value
  | object fields, object changes =>
      object (mergeFields fields changes ++ fields.filter fun field =>
        (changes.lookup field.1).isNone)
  | _, patch => patch
/-- The fields that the patch has. -/
def mergeFields (fields : List (String × Value)) : (changes : List (String × Value)) →
    List (String × Value)
  | [] => []
  | (key, patch) :: changes =>
      (key, match fields.lookup key with
        | some old => mergePatch old patch
        | none => patch) :: mergeFields fields changes
end

/-- Two documents that differ in the order of keys at most. -/
inductive Same : Value → Value → Prop
  | refl (v : Value) : Same v v
  | array {xs ys : List Value} (length : xs.length = ys.length)
      (items : ∀ (i : Nat) (x y : Value), xs[i]? = some x → ys[i]? = some y → Same x y) :
      Same (array xs) (array ys)
  | object {fields others : List (String × Value)}
      (keys : ∀ key, fields.lookup key = none ↔ others.lookup key = none)
      (values : ∀ key x y, fields.lookup key = some x → others.lookup key = some y → Same x y) :
      Same (object fields) (object others)

/-- What a path of keys leads to. -/
def follow : List String → Value → Option Value
  | [], v => some v
  | key :: path, v => (v.get key).bind (follow path)

/-- Wherever a path leads to an object in both, the old one has no key that the new one has
not. -/
def NoExtraKey (old new : Value) : Prop :=
  ∀ path fields others, follow path old = some (object fields) →
    follow path new = some (object others) →
      ∀ key, others.lookup key = none → fields.lookup key = none

variable {old new patch : Value} {fields changes others : List (String × Value)} {key : String}

/-! ### The fields of a patched object -/

theorem lookup_mergeFields : (mergeFields fields changes).lookup key =
    (changes.lookup key).map fun patch =>
      ((fields.lookup key).map fun old => mergePatch old patch).getD patch := by
  induction changes with
  | nil => simp [mergeFields]
  | cons change changes ih =>
      obtain ⟨name, patch⟩ := change
      rw [mergeFields, lookup_cons_ite, lookup_cons_ite, ih]
      by_cases hname : key = name
      · subst hname
        rw [if_pos rfl, if_pos rfl, Option.map_some]
        cases fields.lookup key <;> rfl
      · rw [if_neg hname, if_neg hname]

theorem lookup_filter_absent : (fields.filter fun field =>
    (changes.lookup field.1).isNone).lookup key =
      if changes.lookup key = none then fields.lookup key else none := by
  induction fields with
  | nil => simp
  | cons field fields ih =>
      obtain ⟨name, value⟩ := field
      rw [lookup_cons_ite]
      by_cases habsent : (changes.lookup name).isNone
      · rw [List.filter_cons_of_pos (by simpa using habsent), lookup_cons_ite, ih]
        by_cases hname : key = name
        · subst hname
          rw [if_pos rfl, if_pos rfl, if_pos (Option.isNone_iff_eq_none.mp habsent)]
        · rw [if_neg hname, if_neg hname]
      · rw [List.filter_cons_of_neg (by simpa using habsent), ih]
        by_cases hname : key = name
        · subst hname
          rw [if_neg fun hnone => habsent (Option.isNone_iff_eq_none.mpr hnone),
            if_neg fun hnone => habsent (Option.isNone_iff_eq_none.mpr hnone)]
        · rw [if_neg hname]

/-- A field of a merged object: what the patch says of it, else what was there. -/
theorem lookup_merged : (mergeFields fields changes ++ fields.filter fun field =>
    (changes.lookup field.1).isNone).lookup key =
      match changes.lookup key with
      | some patch =>
          some (((fields.lookup key).map fun old => mergePatch old patch).getD patch)
      | none => fields.lookup key := by
  rw [List.lookup_append, lookup_mergeFields, lookup_filter_absent]
  cases changes.lookup key <;> simp

theorem get_mergePatch : (mergePatch old (object changes)).get key =
    match changes.lookup key with
    | some patch => some (((old.get key).map fun old => mergePatch old patch).getD patch)
    | none => old.get key := by
  cases old with
  | object fields => exact lookup_merged
  | _ => cases hkey : changes.lookup key <;> simp [mergePatch, get, hkey]

/-! ### A document as its own patch -/

theorem same_object_iff : Same (object fields) (object others) ↔
    (∀ key, fields.lookup key = none ↔ others.lookup key = none) ∧
      ∀ key x y, fields.lookup key = some x → others.lookup key = some y → Same x y := by
  constructor
  · intro h
    cases h with
    | refl =>
        refine ⟨fun _ => Iff.rfl, fun key x y hx hy => ?_⟩
        obtain rfl := Option.some.inj (hx.symm.trans hy)
        exact .refl x
    | object keys values => exact ⟨keys, values⟩
  · rintro ⟨keys, values⟩
    exact .object keys values

/-- There is no extra key in an object if there is none at its top, and none in the fields that
both have. -/
theorem noExtraKey_object_iff : NoExtraKey (object fields) (object others) ↔
    (∀ key, others.lookup key = none → fields.lookup key = none) ∧
      ∀ key x y, fields.lookup key = some x → others.lookup key = some y → NoExtraKey x y := by
  constructor
  · intro h
    refine ⟨h [] fields others rfl rfl, fun key x y hx hy path fs os hfs hos => ?_⟩
    exact h (key :: path) fs os (by simpa [follow, get, hx] using hfs)
      (by simpa [follow, get, hy] using hos)
  · rintro ⟨htop, hfields⟩ path fs os hfs hos
    cases path with
    | nil =>
        obtain rfl : fields = fs := by simpa [follow] using hfs
        obtain rfl : others = os := by simpa [follow] using hos
        exact htop
    | cons key path =>
        obtain ⟨x, hx, hfs⟩ := Option.bind_eq_some_iff.mp hfs
        obtain ⟨y, hy, hos⟩ := Option.bind_eq_some_iff.mp hos
        exact hfields key x y hx hy path fs os hfs hos

/-- A path leads to an object only from an object. -/
theorem exists_object_of_follow {path : List String} {v : Value}
    (h : follow path v = some (object fields)) : ∃ fields, v = object fields := by
  cases path with
  | nil => exact ⟨fields, by simpa [follow] using h⟩
  | cons key path =>
      obtain ⟨x, hx, -⟩ := Option.bind_eq_some_iff.mp h
      cases v with
      | object fields => exact ⟨fields, rfl⟩
      | _ => cases hx

/-- A document sent as a patch is what comes out exactly where the old one has no extra key. -/
theorem same_mergePatch_iff (old new : Value) :
    Same (mergePatch old new) new ↔ NoExtraKey old new := by
  induction hn : sizeOf new using Nat.strongRecOn generalizing old new with
  | ind n ih =>
      by_cases hobjects : ∃ fields others, old = object fields ∧ new = object others
      · obtain ⟨fields, others, rfl, rfl⟩ := hobjects
        have hih : ∀ key x y, others.lookup key = some y →
            (Same (mergePatch x y) y ↔ NoExtraKey x y) := by
          intro key x y hy
          exact ih _ (hn ▸ sizeOf_get_lt (v := object others) hy) x y rfl
        rw [noExtraKey_object_iff, mergePatch, same_object_iff]
        simp only [lookup_merged]
        constructor
        · intro h
          obtain ⟨hkeys, hvalues⟩ := h
          refine ⟨fun key hnone => ?_, fun key x y hx hy => ?_⟩
          · simpa [hnone] using (hkeys key).mpr hnone
          · have hsame := hvalues key (mergePatch x y) y (by simp [hx, hy]) hy
            exact (hih key x y hy).mp hsame
        · intro h
          obtain ⟨htop, hfields⟩ := h
          refine ⟨fun key => ?_, fun key x y hx hy => ?_⟩
          · cases hkey : others.lookup key with
            | none => simpa using htop key hkey
            | some patch => simp
          · simp only [hy, Option.some.injEq] at hx
            cases hold : fields.lookup key with
            | none =>
                obtain rfl : y = x := by simpa [hold] using hx
                exact .refl y
            | some before =>
                obtain rfl : mergePatch before y = x := by simpa [hold] using hx
                exact (hih key before y hy).mpr (hfields key before y hold hy)
      · have hmerge : mergePatch old new = new := by
          cases old <;> cases new <;> first | rfl | simp at hobjects
        rw [hmerge]
        refine iff_of_true (.refl new) fun path fs os hfs hos => ?_
        obtain ⟨fields, rfl⟩ := exists_object_of_follow hfs
        obtain ⟨others, rfl⟩ := exists_object_of_follow hos
        exact absurd ⟨fields, others, rfl, rfl⟩ hobjects

end Argus.Value
