import Mathlib.Data.List.Sort

/-!
# Selecting from a list

`maxBy` runs through a list and keeps an element as long as it is greater than the next ones, so
that of equal elements the last is selected. The comparison need not be total: where two elements
are not comparable, the later one is kept. `Leads` says without a run which element that is.

A stable sort selects as well: its head is the first of the greatest, and what follows is the
sort of the rest.
-/

namespace Selection

variable {α : Type*} (gt : α → α → Bool)

/-- `Iterator::max_by`, where `gt` is `Ordering::Greater`. -/
def maxBy : List α → Option α
  | [] => none
  | x :: xs => some (xs.foldl (fun best y => if gt best y then best else y) x)

/-- `m` is greater than every element after it, and no element before it is greater than all
that come after that one. -/
def Leads (l : List α) (m : α) : Prop :=
  ∃ before after, l = before ++ m :: after ∧ (∀ x ∈ after, gt m x) ∧
    ∀ earlier x later, before = earlier ++ x :: later → ∃ y ∈ later ++ m :: after, gt x y = false

variable {gt} {l : List α} {m x : α}

@[simp] theorem maxBy_nil : maxBy gt [] = none := rfl

theorem maxBy_eq_none_iff : maxBy gt l = none ↔ l = [] := by
  cases l <;> simp [maxBy]

/-- A function under which the comparison is made can be applied before or after. -/
theorem maxBy_map {β : Type*} (f : β → α) (l : List β) :
    maxBy gt (l.map f) = (maxBy (fun a b => gt (f a) (f b)) l).map f := by
  cases l with
  | nil => rfl
  | cons x xs =>
      simp only [List.map_cons, maxBy, Option.map_some, Option.some.injEq]
      induction xs generalizing x with
      | nil => rfl
      | cons y ys ih =>
          simp only [List.map_cons, List.foldl_cons, ← ih]
          congr 1
          exact (apply_ite f _ _ _).symm

/-- The first element is selected where it is greater than all others, else it plays no part. -/
theorem maxBy_cons (htrans : ∀ a b c, gt a b → gt b c → gt a c) (x : α) (xs : List α) :
    maxBy gt (x :: xs) = if xs.all (gt x) then some x else maxBy gt xs := by
  induction xs generalizing x with
  | nil => rfl
  | cons y ys ih =>
      have hstep : maxBy gt (x :: y :: ys) = maxBy gt ((if gt x y then x else y) :: ys) := rfl
      rw [hstep, List.all_cons]
      by_cases hxy : gt x y = true
      · rw [if_pos hxy, hxy, Bool.true_and, ih x]
        by_cases hall : ys.all (gt x) = true
        · rw [if_pos hall, if_pos hall]
        · have hally : ¬ ys.all (gt y) = true := fun h => hall (List.all_eq_true.mpr fun z hz =>
            htrans x y z hxy (List.all_eq_true.mp h z hz))
          rw [if_neg hall, if_neg hall, ih y, if_neg hally]
      · rw [if_neg hxy, Bool.eq_false_iff.mpr hxy, Bool.false_and, if_neg Bool.false_ne_true]

theorem leads_cons {xs : List α} : Leads gt (x :: xs) m ↔
    (∀ y ∈ xs, gt x y) ∧ x = m ∨ (∃ y ∈ xs, gt x y = false) ∧ Leads gt xs m := by
  constructor
  · rintro ⟨before, after, hl, hafter, hbefore⟩
    cases before with
    | nil =>
        obtain ⟨rfl, rfl⟩ := List.cons.inj hl
        exact .inl ⟨hafter, rfl⟩
    | cons a before =>
        obtain ⟨rfl, rfl⟩ := List.cons.inj hl
        refine .inr ⟨hbefore [] x before rfl, before, after, rfl, hafter, ?_⟩
        rintro earlier y later rfl
        exact hbefore (x :: earlier) y later rfl
  · rintro (⟨hall, rfl⟩ | ⟨hsome, before, after, rfl, hafter, hbefore⟩)
    · exact ⟨[], xs, rfl, hall, by simp⟩
    · refine ⟨x :: before, after, rfl, hafter, ?_⟩
      intro earlier y later h
      cases earlier with
      | nil =>
          obtain ⟨rfl, rfl⟩ := List.cons.inj h
          exact hsome
      | cons a earlier =>
          obtain ⟨rfl, rfl⟩ := List.cons.inj h
          exact hbefore earlier y later rfl

/-- The run selects the element that leads. -/
theorem maxBy_eq_some_iff (htrans : ∀ a b c, gt a b → gt b c → gt a c) :
    maxBy gt l = some m ↔ Leads gt l m := by
  induction l with
  | nil => simp [Leads]
  | cons x xs ih =>
      rw [maxBy_cons htrans, leads_cons]
      by_cases hall : xs.all (gt x) = true
      · have hnone : ¬ ∃ y ∈ xs, gt x y = false := by
          rintro ⟨y, hy, hfalse⟩
          exact absurd (List.all_eq_true.mp hall y hy) (by simp [hfalse])
        simp only [hall, if_true, Option.some.injEq, hnone, false_and, or_false]
        exact ⟨fun h => ⟨List.all_eq_true.mp hall, h⟩, fun h => h.2⟩
      · have hsome : ∃ y ∈ xs, gt x y = false := by simpa using hall
        rw [if_neg hall, ih]
        simp only [hsome, true_and]
        refine ⟨.inr, fun h => h.resolve_left fun h' => hall (List.all_eq_true.mpr h'.1)⟩

theorem Leads.mem (h : Leads gt l m) : m ∈ l := by
  obtain ⟨before, after, rfl, -⟩ := h
  simp

/-- Where what `gt` leaves open is an order up to ties, no element is greater than the one that
leads. -/
theorem Leads.not_gt (hasymm : ∀ a b, gt a b → gt b a = false)
    (hties : ∀ a ∈ l, ∀ b ∈ l, ∀ c ∈ l, gt a c → gt a b ∨ gt b c)
    (h : Leads gt l m) (hx : x ∈ l) : gt x m = false := by
  induction l generalizing x with
  | nil => cases hx
  | cons y ys ih =>
      have hties' : ∀ a ∈ ys, ∀ b ∈ ys, ∀ c ∈ ys, gt a c → gt a b ∨ gt b c :=
        fun a ha b hb c hc => hties a (.tail _ ha) b (.tail _ hb) c (.tail _ hc)
      rcases leads_cons.mp h with ⟨hall, rfl⟩ | ⟨⟨z, hz, hyz⟩, htail⟩
      · rcases List.mem_cons.mp hx with rfl | hx
        · exact Bool.eq_false_iff.mpr fun hself => by simp [hasymm x x hself] at hself
        · exact hasymm _ _ (hall x hx)
      · rcases List.mem_cons.mp hx with rfl | hx
        · refine Bool.eq_false_iff.mpr fun hxm => ?_
          rcases hties x (.head _) z (.tail _ hz) m (.tail _ htail.mem) hxm with hxz | hzm
          · simp [hyz] at hxz
          · simp [ih hties' htail hz] at hzm
        · exact ih hties' htail hx

/-! ### From the head of a sorted list -/

/-- `m` is the first of the elements that come first by `r`, and `rest` is the list without
it. -/
def Picked (r : α → α → Prop) (l : List α) (m : α) (rest : List α) : Prop :=
  ∃ before after, l = before ++ m :: after ∧ rest = before ++ after ∧
    (∀ x ∈ before, ¬ r x m) ∧ ∀ x ∈ after, r m x

section Sorting

variable {r : α → α → Prop} {rest s : List α}

/-- An element that comes after a picked one by `r` is left out with the rest. -/
theorem Picked.cons (hx : ¬ r x m) (h : Picked r l m rest) : Picked r (x :: l) m (x :: rest) := by
  obtain ⟨before, after, rfl, rfl, hbefore, hafter⟩ := h
  exact ⟨x :: before, after, rfl, rfl, List.forall_mem_cons.mpr ⟨hx, hbefore⟩, hafter⟩

theorem Picked.perm (h : Picked r l m rest) : l.Perm (m :: rest) := by
  obtain ⟨before, after, rfl, rfl, -, -⟩ := h
  exact List.perm_middle

theorem Picked.insertionSort_eq [DecidableRel r] (h : Picked r l m rest) :
    l.insertionSort r = m :: rest.insertionSort r := by
  obtain ⟨before, after, rfl, rfl, hbefore, hafter⟩ := h
  induction before with
  | nil => exact List.insertionSort_cons_of_forall_rel r hafter
  | cons x before ih =>
      obtain ⟨hx, hbefore⟩ := List.forall_mem_cons.mp hbefore
      rw [List.cons_append, List.insertionSort_cons, ih hbefore,
        List.orderedInsert_of_not_le _ _ hx, List.cons_append, List.insertionSort_cons]

theorem Picked.rel [Std.Total r] (h : Picked r l m rest) (hx : x ∈ rest) : r m x := by
  obtain ⟨before, after, rfl, rfl, hbefore, hafter⟩ := h
  rcases List.mem_append.mp hx with hx | hx
  · exact (Std.Total.total m x).resolve_right (hbefore x hx)
  · exact hafter x hx

theorem exists_picked [IsTrans α r] [Std.Total r] (hl : l ≠ []) : ∃ m rest, Picked r l m rest := by
  induction l with
  | nil => exact absurd rfl hl
  | cons x xs ih =>
      by_cases hall : ∀ y ∈ xs, r x y
      · exact ⟨x, xs, [], xs, rfl, rfl, by simp, hall⟩
      · have hxs : xs ≠ [] := by
          rintro rfl
          exact hall (by simp)
        obtain ⟨m, rest, hpicked⟩ := ih hxs
        refine ⟨m, x :: rest, hpicked.cons fun hxm => hall fun y hy => ?_⟩
        rcases List.mem_cons.mp (hpicked.perm.mem_iff.mp hy) with rfl | hy
        · exact hxm
        · exact trans_of r hxm (hpicked.rel hy)

theorem insertionSort_eq_cons_iff [DecidableRel r] [IsTrans α r] [Std.Total r] :
    l.insertionSort r = m :: s ↔
      ∃ rest, Picked r l m rest ∧ rest.insertionSort r = s := by
  constructor
  · intro h
    have hl : l ≠ [] := by
      rintro rfl
      cases h
    obtain ⟨m', rest, hpicked⟩ := exists_picked (r := r) hl
    obtain ⟨rfl, hs⟩ := List.cons.inj (hpicked.insertionSort_eq.symm.trans h)
    exact ⟨rest, hpicked, hs⟩
  · rintro ⟨rest, hpicked, rfl⟩
    exact hpicked.insertionSort_eq

end Sorting

section Find

variable {r : α → α → Prop} [DecidableRel r] {p : α → Bool}

theorem find?_orderedInsert (hp : ∀ a b, p a → p b → r a b) (a : α) (l : List α) :
    (l.orderedInsert r a).find? p = if p a then some a else l.find? p := by
  induction l with
  | nil => cases hpa : p a <;> simp [hpa]
  | cons b l ih =>
      by_cases hab : r a b
      · rw [List.orderedInsert_cons_of_le _ _ hab, List.find?_cons]
        cases p a <;> rfl
      · rw [List.orderedInsert_of_not_le _ _ hab, List.find?_cons, ih, List.find?_cons]
        by_cases hpa : p a = true
        · have hpb : p b = false := Bool.eq_false_iff.mpr fun hpb => hab (hp a b hpa hpb)
          rw [hpb, if_pos hpa]
        · rw [if_neg hpa, if_neg hpa]

/-- A stable sort keeps the elements that tie in their order, so it finds the same one of
them. -/
theorem find?_insertionSort (hp : ∀ a b, p a → p b → r a b) (l : List α) :
    (l.insertionSort r).find? p = l.find? p := by
  induction l with
  | nil => rfl
  | cons a l ih =>
      rw [List.insertionSort_cons, find?_orderedInsert hp, ih, List.find?_cons]
      cases p a <;> rfl

end Find

end Selection
