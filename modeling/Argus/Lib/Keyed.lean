import Mathlib.Data.List.Nodup

/-!
# Lists whose entries have a key

A list keeps at most one entry of each key, and `lookup` reads it as a partial map. The
operations are the two ways to take in an entry whose key may be there already (`insertNew`
keeps the old entry, `upsert` replaces it), and each has its equation on `lookup`.
-/

namespace Keyed

variable {α β κ : Type*} [DecidableEq κ] (key : α → κ)

/-- The entry of a key: the first one, where there are several. -/
def lookup (xs : List α) (k : κ) : Option α := xs.find? fun x => key x == k

/-- Take in an entry, unless its key is there. -/
def insertNew (xs : List α) (y : α) : List α :=
  if xs.any fun x => key x == key y then xs else xs ++ [y]

/-- Take in entries one after another, the first of each key. -/
def adopt (xs ys : List α) : List α := ys.foldl (insertNew key) xs

/-- Take in an entry in the place of the one that has its key, or at the end. -/
def upsert (y : α) : List α → List α
  | [] => [y]
  | x :: xs => if key x == key y then y :: xs else x :: upsert y xs

/-- Lay entries over others: an entry of a key that is there takes its place. -/
def overlay (xs ys : List α) : List α := ys.foldl (fun xs y => upsert key y xs) xs

variable {key} {xs ys : List α} {x y : α} {k : κ}

@[simp] theorem lookup_nil : lookup key [] k = none := rfl

theorem lookup_cons :
    lookup key (x :: xs) k = if key x = k then some x else lookup key xs k := by
  unfold lookup
  by_cases hk : key x = k <;> simp [hk]

theorem lookup_append :
    lookup key (xs ++ ys) k = (lookup key xs k).or (lookup key ys k) :=
  List.find?_append

theorem lookup_eq_none_iff : lookup key xs k = none ↔ ∀ x ∈ xs, key x ≠ k := by
  simp [lookup]

theorem mem_of_lookup (h : lookup key xs k = some x) : x ∈ xs := List.mem_of_find?_eq_some h

theorem key_of_lookup (h : lookup key xs k = some x) : key x = k := by
  simpa using List.find?_some h

theorem any_key_iff : (xs.any fun x => key x == k) = true ↔ lookup key xs k ≠ none := by
  simp [lookup_eq_none_iff]

/-- Where one part alone has a key, the whole reads what that part reads. -/
theorem lookup_flatMap {f : β → List α} {zs : List β} {z : β} (hz : z ∈ zs)
    (hother : ∀ w ∈ zs, w ≠ z → lookup key (f w) k = none) :
    lookup key (zs.flatMap f) k = lookup key (f z) k := by
  induction zs with
  | nil => cases hz
  | cons w zs ih =>
      rw [List.flatMap_cons, lookup_append]
      by_cases hw : w = z
      · subst hw
        cases hl : lookup key (f w) k with
        | some x => rfl
        | none =>
            rw [Option.none_or, lookup_eq_none_iff]
            intro x hx hkey
            obtain ⟨v, hv, hxv⟩ := List.mem_flatMap.mp hx
            by_cases hvw : v = w
            · exact lookup_eq_none_iff.mp hl x (hvw ▸ hxv) hkey
            · exact lookup_eq_none_iff.mp (hother v (List.mem_cons_of_mem _ hv) hvw) x hxv hkey
      · rw [hother w List.mem_cons_self hw, Option.none_or]
        have hz' : z ∈ zs := (List.mem_cons.mp hz).resolve_left fun h => hw h.symm
        exact ih hz' fun v hv => hother v (List.mem_cons_of_mem _ hv)

/-! ### Each key once -/

theorem lookup_of_mem (hxs : (xs.map key).Nodup) (hx : x ∈ xs) :
    lookup key xs (key x) = some x := by
  cases hl : lookup key xs (key x) with
  | none => exact absurd rfl (lookup_eq_none_iff.mp hl x hx)
  | some y =>
      rw [List.inj_on_of_nodup_map hxs (mem_of_lookup hl) hx (key_of_lookup hl)]

theorem lookup_eq_some_iff (hxs : (xs.map key).Nodup) :
    lookup key xs k = some x ↔ x ∈ xs ∧ key x = k := by
  constructor
  · exact fun h => ⟨mem_of_lookup h, key_of_lookup h⟩
  · rintro ⟨hx, rfl⟩
    exact lookup_of_mem hxs hx

/-- Lists that read as the same map have the same entries. -/
theorem perm_of_lookup (hxs : (xs.map key).Nodup) (hys : (ys.map key).Nodup)
    (h : ∀ k, lookup key xs k = lookup key ys k) : xs.Perm ys := by
  refine (List.perm_ext_iff_of_nodup hxs.of_map hys.of_map).mpr fun x => ?_
  constructor
  · exact fun hx => mem_of_lookup ((h (key x)).symm.trans (lookup_of_mem hxs hx))
  · exact fun hx => mem_of_lookup ((h (key x)).trans (lookup_of_mem hys hx))

/-- Lists with the same entries read as the same map. -/
theorem lookup_of_perm (hxs : (xs.map key).Nodup) (h : xs.Perm ys) :
    lookup key xs k = lookup key ys k := by
  have hys : (ys.map key).Nodup := (h.map key).nodup_iff.mp hxs
  refine Option.ext fun x => ?_
  rw [lookup_eq_some_iff hxs, lookup_eq_some_iff hys, h.mem_iff]

/-! ### Mapping and filtering -/

theorem lookup_map {f : α → β} {key' : β → κ} (hf : ∀ x, key' (f x) = key x) :
    lookup key' (xs.map f) k = (lookup key xs k).map f := by
  simp only [lookup, List.find?_map, Function.comp_def, hf]

section FilterMap

variable {f : α → Option β} {key' : β → κ}

omit [DecidableEq κ] in
theorem filterMap_keys_sublist (hf : ∀ x z, f x = some z → key' z = key x) :
    ((xs.filterMap f).map key').Sublist (xs.map key) := by
  induction xs with
  | nil => exact List.Sublist.slnil
  | cons x xs ih =>
      cases hx : f x with
      | none => simpa [hx] using ih.cons _
      | some z => simpa [hx, hf x z hx] using ih.cons_cons (key x)

omit [DecidableEq κ] in
theorem nodup_filterMap (hf : ∀ x z, f x = some z → key' z = key x)
    (hxs : (xs.map key).Nodup) : ((xs.filterMap f).map key').Nodup :=
  (filterMap_keys_sublist hf).nodup hxs

/-- Where the keys are kept, what a key reads after a map is the map of what it read. -/
theorem lookup_filterMap (hf : ∀ x z, f x = some z → key' z = key x)
    (hxs : (xs.map key).Nodup) (k : κ) :
    lookup key' (xs.filterMap f) k = (lookup key xs k).bind f := by
  refine Option.ext fun z => ?_
  rw [lookup_eq_some_iff (nodup_filterMap hf hxs), List.mem_filterMap, Option.bind_eq_some_iff]
  constructor
  · intro h
    obtain ⟨⟨x, hx, hz⟩, rfl⟩ := h
    exact ⟨x, (lookup_eq_some_iff hxs).mpr ⟨hx, (hf x z hz).symm⟩, hz⟩
  · intro h
    obtain ⟨x, hx, hz⟩ := h
    exact ⟨⟨x, mem_of_lookup hx, hz⟩, (hf x z hz).trans (key_of_lookup hx)⟩

end FilterMap

theorem lookup_filter {p : α → Bool} (hxs : (xs.map key).Nodup) (k : κ) :
    lookup key (xs.filter p) k = (lookup key xs k).filter p := by
  rw [← List.filterMap_eq_filter, lookup_filterMap _ hxs]
  · cases lookup key xs k <;> rfl
  · intro x z hz
    rw [Option.guard_eq_some_iff.mp hz |>.1]

/-- Dropping the keys of one kind. -/
theorem lookup_filter_not (p : κ → Bool) (k : κ) :
    lookup key (xs.filter fun x => !p (key x)) k = if p k then none else lookup key xs k := by
  induction xs with
  | nil => simp
  | cons x xs ih =>
      rw [List.filter_cons, lookup_cons]
      by_cases hk : key x = k
      · subst hk
        cases hp : p (key x) with
        | true => rw [if_neg (by simp), ih, hp, if_pos rfl, if_pos rfl]
        | false => rw [if_pos (by simp), lookup_cons, if_pos rfl, if_pos rfl, if_neg (by simp)]
      · rw [if_neg hk, ← ih]
        cases hp : p (key x) with
        | true => rw [if_neg (by simp)]
        | false => rw [if_pos (by simp), lookup_cons, if_neg hk]

/-! ### Entries that are kept -/

theorem insertNew_of_present (h : ∃ x ∈ xs, key x = key y) : insertNew key xs y = xs :=
  if_pos (by simpa using h)

theorem insertNew_of_absent (h : ∀ x ∈ xs, key x ≠ key y) : insertNew key xs y = xs ++ [y] :=
  if_neg (by simpa using h)

theorem lookup_insertNew : lookup key (insertNew key xs y) k =
    (lookup key xs k).or (if key y = k then some y else none) := by
  unfold insertNew
  by_cases hy : (xs.any fun x => key x == key y) = true
  · rw [if_pos hy]
    by_cases hk : key y = k
    · subst hk
      obtain ⟨x, hx⟩ := Option.ne_none_iff_exists'.mp (any_key_iff.mp hy)
      simp [hx]
    · simp [hk]
  · rw [if_neg hy, lookup_append, lookup_cons, lookup_nil]

theorem nodup_insertNew (hxs : (xs.map key).Nodup) : ((insertNew key xs y).map key).Nodup := by
  unfold insertNew
  split
  · exact hxs
  · rename_i hy
    have hnone : ∀ x ∈ xs, key x ≠ key y := by simpa using hy
    rw [List.map_append, List.nodup_append]
    refine ⟨hxs, List.nodup_singleton _, fun a ha b hb => ?_⟩
    obtain ⟨x, hx, rfl⟩ := List.mem_map.mp ha
    obtain rfl := List.mem_singleton.mp hb
    exact hnone x hx

@[simp] theorem adopt_nil : adopt key xs [] = xs := rfl

theorem adopt_cons : adopt key xs (y :: ys) = adopt key (insertNew key xs y) ys := rfl

/-- What was there stays, and of what is new the first of each key comes in. -/
theorem lookup_adopt :
    lookup key (adopt key xs ys) k = (lookup key xs k).or (lookup key ys k) := by
  induction ys generalizing xs with
  | nil => simp
  | cons y ys ih =>
      rw [adopt_cons, ih, lookup_insertNew, lookup_cons]
      cases lookup key xs k <;> by_cases hk : key y = k <;> simp [hk]

theorem nodup_adopt (hxs : (xs.map key).Nodup) : ((adopt key xs ys).map key).Nodup := by
  induction ys generalizing xs with
  | nil => exact hxs
  | cons y ys ih => exact ih (nodup_insertNew hxs)

/-! ### Entries that are replaced -/

theorem lookup_upsert : lookup key (upsert key y xs) k =
    if key y = k then some y else lookup key xs k := by
  induction xs with
  | nil => rw [upsert, lookup_cons, lookup_nil]
  | cons x xs ih =>
      unfold upsert
      by_cases hxy : key x = key y
      · rw [if_pos (by simpa using hxy), lookup_cons, lookup_cons, hxy]
        by_cases hk : key y = k <;> simp [hk]
      · rw [if_neg (by simpa using hxy), lookup_cons, ih, lookup_cons]
        by_cases hk : key y = k
        · have hxk : key x ≠ k := fun h => hxy (h.trans hk.symm)
          simp [hk, hxk]
        · simp [hk]

theorem key_mem_upsert : k ∈ (upsert key y xs).map key → k = key y ∨ k ∈ xs.map key := by
  induction xs with
  | nil => simp [upsert]
  | cons x xs ih =>
      unfold upsert
      split
      · simp only [List.map_cons, List.mem_cons]
        exact fun h => h.imp_right Or.inr
      · simp only [List.map_cons, List.mem_cons]
        rintro (h | h)
        · exact .inr (.inl h)
        · exact (ih h).imp_right Or.inr

theorem nodup_upsert (hxs : (xs.map key).Nodup) : ((upsert key y xs).map key).Nodup := by
  induction xs with
  | nil => simp [upsert]
  | cons x xs ih =>
      rw [List.map_cons, List.nodup_cons] at hxs
      unfold upsert
      by_cases hxy : key x = key y
      · rw [if_pos (by simpa using hxy), List.map_cons, List.nodup_cons, ← hxy]
        exact hxs
      · rw [if_neg (by simpa using hxy), List.map_cons, List.nodup_cons]
        exact ⟨fun h => (key_mem_upsert h).elim hxy hxs.1, ih hxs.2⟩

/-- What is there after an entry was replaced. -/
theorem mem_upsert (hxs : (xs.map key).Nodup) :
    x ∈ upsert key y xs ↔ x = y ∨ x ∈ xs ∧ key x ≠ key y := by
  have hlookup := @lookup_upsert _ _ _ key xs y (key x)
  have hx : lookup key (upsert key y xs) (key x) = some x ↔ x ∈ upsert key y xs :=
    (lookup_eq_some_iff (nodup_upsert hxs)).trans (and_iff_left rfl)
  rw [← hx, hlookup]
  by_cases hk : key y = key x
  · rw [if_pos hk]
    simp [hk, eq_comm]
  · rw [if_neg hk, lookup_eq_some_iff hxs]
    have hne : x ≠ y := fun h => hk (h ▸ rfl)
    simp [hne, Ne.symm hk]

/-- Of what is laid over under one key the last shows, and what was there where there is none. -/
theorem lookup_overlay_last :
    lookup key (overlay key xs ys) k = (lookup key ys.reverse k).or (lookup key xs k) := by
  induction ys generalizing xs with
  | nil => simp [overlay]
  | cons y ys ih =>
      rw [overlay, List.foldl_cons]
      refine ih.trans ?_
      rw [lookup_upsert, List.reverse_cons, lookup_append, lookup_cons, lookup_nil, Option.or_assoc]
      by_cases hk : key y = k <;> simp [hk]

/-- What is laid over comes first, and what was there shows where it leaves a key open. -/
theorem lookup_overlay (hys : (ys.map key).Nodup) :
    lookup key (overlay key xs ys) k = (lookup key ys k).or (lookup key xs k) := by
  rw [lookup_overlay_last, lookup_of_perm hys (List.reverse_perm ys).symm]

theorem nodup_overlay (hxs : (xs.map key).Nodup) : ((overlay key xs ys).map key).Nodup := by
  induction ys generalizing xs with
  | nil => exact hxs
  | cons y ys ih => exact ih (nodup_upsert hxs)

end Keyed
