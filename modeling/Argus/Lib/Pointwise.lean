import Mathlib.Data.List.Forall2

/-!
# Lists side by side

Facts about lists whose elements stand beside each other: what a `filterMap` or a `mapM` makes of
each element, and what a relation of two lists says of the elements of one.
-/

namespace Pointwise

variable {α β : Type*} {R : α → β → Prop} {xs : List α} {ys : List β}

/-- A relation between what a `filterMap` keeps and what it makes of it is one between each
element and its own image. -/
theorem forall₂_filterMap_iff {f : α → Option β} :
    List.Forall₂ R (xs.filter fun x => (f x).isSome) (xs.filterMap f) ↔
      ∀ x ∈ xs, ∀ y, f x = some y → R x y := by
  induction xs with
  | nil => simp
  | cons x xs ih =>
      rw [List.forall_mem_cons, ← ih]
      cases hx : f x with
      | none => simp [hx]
      | some y =>
          rw [List.filter_cons_of_pos (by simp [hx]), List.filterMap_cons_some hx,
            List.forall₂_cons]
          simp

theorem mapM_eq_ok_iff {α β ε : Type} {f : α → Except ε β} {xs : List α} {ys : List β} :
    xs.mapM f = .ok ys ↔ List.Forall₂ (fun x y => f x = .ok y) xs ys := by
  induction xs generalizing ys with
  | nil => cases ys <;> simp [pure, Except.pure]
  | cons x xs ih =>
      rw [List.mapM_cons]
      cases hx : f x with
      | error error => cases ys <;> simp [bind, Except.bind, hx]
      | ok y =>
          cases hxs : xs.mapM f with
          | error error => cases ys <;> simp [bind, Except.bind, ← ih, hxs, hx]
          | ok rest => cases ys <;> simp [bind, Except.bind, pure, Except.pure, ← ih, hxs, hx]

/-- What was written of every value is read of every value. -/
theorem mapM_map_eq_ok {α β ε : Type} {read : β → Except ε α} {write : α → β} {values : List α}
    (h : ∀ value ∈ values, read (write value) = .ok value) :
    (values.map write).mapM read = .ok values := by
  rw [mapM_eq_ok_iff, List.forall₂_map_left_iff, List.forall₂_same]
  exact h

theorem mapM_isSome_iff {α β : Type} {f : α → Option β} {xs : List α} :
    (xs.mapM f).isSome ↔ ∀ x ∈ xs, (f x).isSome := by
  induction xs with
  | nil => simp
  | cons x xs ih =>
      rw [List.forall_mem_cons, ← ih, List.mapM_cons]
      cases f x with
      | none => simp
      | some y => cases xs.mapM f <;> simp

theorem exists_forall₂ (h : ∀ x ∈ xs, ∃ y, R x y) : ∃ ys, List.Forall₂ R xs ys := by
  induction xs with
  | nil => exact ⟨[], .nil⟩
  | cons x xs ih =>
      obtain ⟨⟨y, hy⟩, hxs⟩ := List.forall_mem_cons.mp h
      obtain ⟨ys, hys⟩ := ih hxs
      exact ⟨y :: ys, .cons hy hys⟩

/-- What each pair says of its second element holds of every second element. -/
theorem forall_of_forall₂ {p : β → Prop} (h : List.Forall₂ R xs ys)
    (hp : ∀ x y, R x y → p y) : ∀ y ∈ ys, p y := by
  induction h with
  | nil => simp
  | cons hxy _ ih => exact List.forall_mem_cons.mpr ⟨hp _ _ hxy, ih⟩

theorem exists_mem_zip {x : α} (hx : x ∈ xs) (hlength : xs.length = ys.length) :
    ∃ y, (x, y) ∈ xs.zip ys := by
  obtain ⟨i, hi, rfl⟩ := List.mem_iff_getElem.mp hx
  exact ⟨ys[i], List.mem_iff_getElem.mpr ⟨i, by simp [← hlength, hi], by simp⟩⟩

theorem exists_mem_zip_right {y : β} (hy : y ∈ ys) (hlength : xs.length = ys.length) :
    ∃ x, (x, y) ∈ xs.zip ys := by
  obtain ⟨i, hi, rfl⟩ := List.mem_iff_getElem.mp hy
  exact ⟨xs[i], List.mem_iff_getElem.mpr ⟨i, by simp [hlength, hi], by simp⟩⟩

end Pointwise
