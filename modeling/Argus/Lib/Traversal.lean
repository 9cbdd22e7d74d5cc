import Mathlib.Data.List.Basic
import Mathlib.Data.List.Count
import Mathlib.Data.List.Nodup
import Mathlib.Logic.Relation

/-!
# Walks over a list of arcs

A walk keeps a stack of nodes to visit, marks a node when it is popped, and records the far end
of each arc it sees to a node it has not visited. `walk_sound` says which nodes it visits and
`count_found` how often it records each; `walk_depthFirst` says in which order it visits them.
-/

namespace Traversal

variable {V : Type*} [DecidableEq V] (arcs : List (V × V))

/-- An arc leads from `a` to `b`. -/
def Arc (a b : V) : Prop := (a, b) ∈ arcs

/-- The far ends of the arcs that leave `v`, in the order of the list. -/
def successors (v : V) : List V := (arcs.filter fun a => a.1 = v).map Prod.snd

/-- The state of a walk: `visited` in the order of the visits, `stack` from its top. -/
structure Walk (V : Type*) where
  found : List V
  visited : List V
  stack : List V

/-- The walk before its first step. -/
def Walk.start (v : V) : Walk V := ⟨[], [], [v]⟩

/-- What is recorded of `v` once the nodes of `visited` are. -/
def fresh (visited : List V) (v : V) : List V :=
  (successors arcs v).filter fun w => w ∉ visited

/-- The node on top is taken: passed over where it was visited before, else expanded. -/
def Walk.pop (w : Walk V) (current : V) (rest : List V) : Walk V :=
  if current ∈ w.visited then { w with stack := rest }
  else
    let visited := w.visited ++ [current]
    let seen := fresh arcs visited current
    ⟨w.found ++ seen, visited, seen.reverse ++ rest⟩

/-- Pop until the stack is empty; `none` where `fuel` steps do not empty it. -/
def walk : ℕ → Walk V → Option (Walk V)
  | 0, _ => none
  | fuel + 1, w =>
      match w.stack with
      | [] => some w
      | current :: rest => walk fuel (w.pop arcs current rest)

variable {arcs} {w w' : Walk V} {v u current : V} {rest seen todo order : List V} {n m : ℕ}

@[simp] theorem mem_successors : u ∈ successors arcs v ↔ Arc arcs v u := by
  simp [successors, Arc]

@[simp] theorem mem_fresh : u ∈ fresh arcs seen v ↔ Arc arcs v u ∧ u ∉ seen := by
  simp [fresh]

theorem pop_visited (h : current ∈ w.visited) :
    w.pop arcs current rest = { w with stack := rest } := if_pos h

theorem pop_fresh (h : current ∉ w.visited) :
    w.pop arcs current rest = ⟨w.found ++ fresh arcs (w.visited ++ [current]) current,
      w.visited ++ [current],
      (fresh arcs (w.visited ++ [current]) current).reverse ++ rest⟩ := if_neg h

/-! ### Termination -/

/-- The nodes on the stack, and the arcs that are still to be scanned. -/
def Walk.potential (arcs : List (V × V)) (w : Walk V) : ℕ :=
  w.stack.length + (arcs.filter fun a => a.1 ∉ w.visited).length

/-- The arcs that leave `v` are no longer to be scanned once `v` is visited. -/
theorem length_unscanned (arcs : List (V × V)) (h : v ∉ seen) :
    (arcs.filter fun a => a.1 ∉ seen ++ [v]).length + (successors arcs v).length
      = (arcs.filter fun a => a.1 ∉ seen).length := by
  induction arcs with
  | nil => rfl
  | cons a arcs ih =>
      simp only [successors, List.length_map] at ih ⊢
      simp only [List.filter_cons, List.mem_append, List.mem_singleton, not_or,
        decide_eq_true_eq] at ih ⊢
      by_cases hv : a.1 = v
      · simp only [hv, h, not_false_eq_true, not_true_eq_false, and_false, if_true, if_false,
          List.length_cons]
        omega
      · by_cases hs : a.1 ∈ seen
        · simpa [hv, hs] using ih
        · simp only [hv, hs, not_false_eq_true, and_self, if_true, if_false, List.length_cons]
          omega

theorem pop_potential (arcs : List (V × V)) (hw : w.stack = current :: rest) :
    (w.pop arcs current rest).potential arcs < w.potential arcs := by
  by_cases h : current ∈ w.visited
  · simp [pop_visited h, Walk.potential, hw]
  · rw [pop_fresh h]
    simp only [Walk.potential, hw, List.length_append, List.length_reverse, List.length_cons]
    have hlength := length_unscanned arcs h
    have hfresh : (fresh arcs (w.visited ++ [current]) current).length
        ≤ (successors arcs current).length := List.length_filter_le _ _
    omega

/-- A walk ends, and however much more fuel there is, it ends the same. -/
theorem exists_walk (arcs : List (V × V)) (w : Walk V) :
    ∃ w', ∀ n, w.potential arcs < n → walk arcs n w = some w' := by
  induction hp : w.potential arcs using Nat.strongRecOn generalizing w with
  | ind p ih =>
      cases hw : w.stack with
      | nil =>
          refine ⟨w, fun n hn => ?_⟩
          obtain ⟨n, rfl⟩ : ∃ k, n = k + 1 := ⟨n - 1, by omega⟩
          simp [walk, hw]
      | cons current rest =>
          have hlt := pop_potential arcs hw
          obtain ⟨w', hw'⟩ := ih _ (hp ▸ hlt) (w.pop arcs current rest) rfl
          refine ⟨w', fun n hn => ?_⟩
          obtain ⟨n, rfl⟩ : ∃ k, n = k + 1 := ⟨n - 1, by omega⟩
          simpa only [walk, hw] using hw' n (by omega)

/-! ### Invariants -/

/-- What every step keeps holds where the walk ends. -/
theorem walk_invariant {I : Walk V → Prop}
    (hstep : ∀ w current rest, w.stack = current :: rest → I w → I (w.pop arcs current rest))
    (hI : I w) (h : walk arcs n w = some w') : I w' ∧ w'.stack = [] := by
  induction n generalizing w with
  | zero => cases h
  | succ n ih =>
      cases hw : w.stack with
      | nil =>
          simp only [walk, hw, Option.some.injEq] at h
          exact h ▸ ⟨hI, hw⟩
      | cons current rest =>
          simp only [walk, hw] at h
          exact ih (hstep w current rest hw hI) h

variable (arcs) in
/-- What is recorded when the nodes of a list are expanded one after the other. -/
def records : List V → List V → List V
  | _, [] => []
  | seen, v :: order => fresh arcs (seen ++ [v]) v ++ records (seen ++ [v]) order

theorem records_append (seen order : List V) (v : V) :
    records arcs seen (order ++ [v])
      = records arcs seen order ++ fresh arcs (seen ++ order ++ [v]) v := by
  induction order generalizing seen with
  | nil => simp [records]
  | cons a order ih => simp [records, ih]

/-- What holds of a walk from `s` at any time. -/
structure Walk.Sound (arcs : List (V × V)) (s : V) (w : Walk V) : Prop where
  head : (w.visited ++ w.stack).head? = some s
  nodup : w.visited.Nodup
  reached : ∀ v ∈ w.visited ++ w.stack, Relation.ReflTransGen (Arc arcs) s v
  closed : ∀ v ∈ w.visited, ∀ u, Arc arcs v u → u ∈ w.visited ++ w.stack
  noted : ∀ v ∈ w.visited ++ w.stack, v = s ∨ v ∈ w.found
  found_eq : w.found = records arcs [] w.visited

variable {s : V}

theorem Walk.Sound.start : (Walk.start s).Sound arcs s where
  head := rfl
  nodup := List.nodup_nil
  reached v hv := by
    obtain rfl : v = s := by simpa [Walk.start] using hv
    exact .refl
  closed v hv := by simp [Walk.start] at hv
  noted v hv := .inl (by simpa [Walk.start] using hv)
  found_eq := rfl

theorem Walk.Sound.skip (h : w.Sound arcs s) (hw : w.stack = current :: rest)
    (hc : current ∈ w.visited) : Walk.Sound arcs s { w with stack := rest } := by
  have hmem : ∀ v, v ∈ w.visited ++ rest ↔ v ∈ w.visited ++ w.stack := by
    intro v
    simp only [hw, List.mem_append, List.mem_cons]
    grind
  refine ⟨?_, h.nodup, fun v hv => h.reached v ((hmem v).mp hv),
    fun v hv u hu => (hmem u).mpr (h.closed v hv u hu), fun v hv => h.noted v ((hmem v).mp hv),
    h.found_eq⟩
  have hhead := h.head
  cases hv : w.visited with
  | nil => simp [hv] at hc
  | cons a visited => simpa [hv] using hhead

theorem Walk.Sound.expand (h : w.Sound arcs s) (hw : w.stack = current :: rest)
    (hc : current ∉ w.visited) : Walk.Sound arcs s ⟨w.found ++ fresh arcs (w.visited ++ [current])
      current, w.visited ++ [current],
      (fresh arcs (w.visited ++ [current]) current).reverse ++ rest⟩ := by
  have hmem : ∀ v, v ∈ w.visited ++ w.stack ↔ v ∈ w.visited ++ [current] ++ rest := by
    simp [hw]
  have hnow : current ∈ w.visited ++ w.stack := (hmem current).mpr (by simp)
  constructor
  · have hhead := h.head
    rw [hw] at hhead
    cases hv : w.visited with
    | nil => simpa [hv] using hhead
    | cons a visited => simpa [hv] using hhead
  · exact List.nodup_append.mpr ⟨h.nodup, by simp, by
      rintro a ha b hb rfl
      exact hc (List.mem_singleton.mp hb ▸ ha)⟩
  · intro v hv
    simp only [List.mem_append, List.mem_reverse, mem_fresh] at hv
    rcases hv with hv | ⟨hv, -⟩ | hv
    · exact h.reached v ((hmem v).mpr (List.mem_append_left _ (List.mem_append.mpr hv)))
    · exact (h.reached current hnow).tail hv
    · exact h.reached v ((hmem v).mpr (List.mem_append_right _ hv))
  · intro v hv u hu
    by_cases hseen : u ∈ w.visited ++ [current]
    · exact List.mem_append_left _ hseen
    rcases List.mem_append.mp hv with hv | hv
    · have hold := (hmem u).mp (h.closed v hv u hu)
      have hrest : u ∈ rest := (List.mem_append.mp hold).resolve_left hseen
      exact List.mem_append_right _ (List.mem_append_right _ hrest)
    · obtain rfl := List.mem_singleton.mp hv
      exact List.mem_append_right _ (List.mem_append_left _ (by
        simpa only [List.mem_reverse, mem_fresh] using ⟨hu, hseen⟩))
  · intro v hv
    simp only [List.mem_append, List.mem_reverse] at hv ⊢
    rcases hv with hv | hv | hv
    · have hold := h.noted v ((hmem v).mpr (List.mem_append_left _ (List.mem_append.mpr hv)))
      exact hold.imp_right .inl
    · exact .inr (.inr hv)
    · exact (h.noted v ((hmem v).mpr (List.mem_append_right _ hv))).imp_right .inl
  · simp [records_append, h.found_eq]

/-- A walk that ends has visited what the arcs reach from where it started, each node once. -/
theorem walk_sound (h : walk arcs n (Walk.start s) = some w') :
    w'.Sound arcs s ∧ w'.stack = [] := by
  refine walk_invariant (I := Walk.Sound arcs s) (fun w current rest hw hI => ?_) .start h
  by_cases hc : current ∈ w.visited
  · exact pop_visited hc ▸ hI.skip hw hc
  · exact pop_fresh hc ▸ hI.expand hw hc

theorem mem_visited (h : walk arcs n (Walk.start s) = some w') :
    v ∈ w'.visited ↔ Relation.ReflTransGen (Arc arcs) s v := by
  obtain ⟨hsound, hempty⟩ := walk_sound h
  have hreached := hsound.reached
  have hclosed := hsound.closed
  have hhead := hsound.head
  rw [hempty, List.append_nil] at hreached hclosed hhead
  refine ⟨hreached v, fun hv => ?_⟩
  induction hv with
  | refl => exact List.mem_of_mem_head? hhead
  | tail _ harc ih => exact hclosed _ ih _ harc

/-! ### How often a node is recorded -/

variable {t : V}

theorem count_records_seen (h : t ∈ seen) : (records arcs seen order).count t = 0 := by
  induction order generalizing seen with
  | nil => rfl
  | cons v order ih =>
      have hin : t ∈ seen ++ [v] := List.mem_append_left _ h
      rw [records, List.count_append, ih hin, List.count_eq_zero.mpr]
      exact fun hmem => (mem_fresh.mp hmem).2 hin

theorem count_fresh (h : t ∉ seen) :
    (fresh arcs seen v).count t = arcs.countP fun a => a.1 = v ∧ a.2 = t := by
  rw [fresh, List.count_filter (by simpa using h), successors, List.count_eq_countP,
    List.countP_map, List.countP_filter]
  refine List.countP_congr fun a _ => ?_
  simp only [Function.comp_apply, Bool.and_eq_true, beq_iff_eq, decide_eq_true_eq, and_comm]

/-- Two conditions that exclude each other are counted together. -/
theorem countP_add_countP {α : Type*} {p q r : α → Bool} {l : List α}
    (hr : ∀ a ∈ l, r a = (p a || q a)) (hpq : ∀ a ∈ l, (p a && q a) = false) :
    l.countP p + l.countP q = l.countP r := by
  induction l with
  | nil => rfl
  | cons a l ih =>
      obtain ⟨hra, hrl⟩ := List.forall_mem_cons.mp hr
      obtain ⟨hpa, hpl⟩ := List.forall_mem_cons.mp hpq
      have hl := ih hrl hpl
      simp only [List.countP_cons, hra]
      cases hp : p a <;> cases hq : q a <;> simp [hp, hq] at hpa ⊢ <;> omega

/-- A node is recorded once for each arc into it from the nodes that are expanded before it. -/
theorem count_records (hnodup : order.Nodup) (ht : t ∉ seen) :
    (records arcs seen order).count t
      = arcs.countP fun a => a.1 ∈ order.takeWhile (· ≠ t) ∧ a.2 = t := by
  induction order generalizing seen with
  | nil => simp [records]
  | cons v order ih =>
      obtain ⟨hv, horder⟩ := List.nodup_cons.mp hnodup
      rw [records, List.count_append]
      by_cases hvt : v = t
      · have hin : t ∈ seen ++ [v] := by simp [hvt]
        rw [count_records_seen hin, List.count_eq_zero.mpr fun hmem => (mem_fresh.mp hmem).2 hin]
        simp [hvt]
      · have hout : t ∉ seen ++ [v] := by simp [ht, Ne.symm hvt]
        have hlater : v ∉ order.takeWhile (· ≠ t) := fun hmem =>
          hv (List.takeWhile_subset _ hmem)
        rw [ih horder hout, count_fresh hout, List.takeWhile_cons_of_pos (by simpa using hvt)]
        refine countP_add_countP (fun a _ => ?_) fun a _ => ?_
        · simp only [List.mem_cons, ← Bool.decide_or, or_and_right]
        · rw [← Bool.decide_and, decide_eq_false_iff_not]
          intro h
          obtain ⟨⟨rfl, -⟩, hmem, -⟩ := h
          exact hlater hmem

theorem count_found (h : walk arcs n (Walk.start s) = some w') :
    w'.found.count t = arcs.countP fun a => a.1 ∈ w'.visited.takeWhile (· ≠ t) ∧ a.2 = t := by
  obtain ⟨hsound, -⟩ := walk_sound h
  rw [hsound.found_eq, count_records hsound.nodup List.not_mem_nil]

theorem head?_visited (h : walk arcs n (Walk.start s) = some w') : w'.visited.head? = some s := by
  obtain ⟨hsound, hempty⟩ := walk_sound h
  simpa [hempty] using hsound.head

/-- What is recorded are the nodes reached by an arc or more, the start apart. -/
theorem mem_found (h : walk arcs n (Walk.start s) = some w') :
    v ∈ w'.found ↔ v ≠ s ∧ Relation.TransGen (Arc arcs) s v := by
  obtain ⟨hsound, hempty⟩ := walk_sound h
  constructor
  · intro hv
    rw [← List.count_pos_iff, count_found h, List.countP_pos_iff] at hv
    obtain ⟨⟨u, t⟩, harc, hmem⟩ := hv
    obtain ⟨hu, rfl⟩ := of_decide_eq_true hmem
    have hreached := (mem_visited h).mp (List.takeWhile_subset _ hu)
    refine ⟨?_, Relation.TransGen.tail' hreached harc⟩
    rintro rfl
    obtain ⟨order, horder⟩ := List.head?_eq_some_iff.mp (head?_visited h)
    simp [horder] at hu
  · rintro ⟨hne, hv⟩
    have hmem : v ∈ w'.visited ++ w'.stack :=
      List.mem_append_left _ ((mem_visited h).mpr hv.to_reflTransGen)
    exact (hsound.noted v hmem).resolve_left hne

/-! ### The order of the visits -/

variable (arcs) in
/-- The depth-first order of what is still to be visited, after the nodes that were: a node is
followed at once by what its arcs lead to, from the last arc to the first. -/
inductive DepthFirst : List V → List V → List V → Prop
  | done {seen : List V} : DepthFirst seen [] seen
  | skip {seen todo order : List V} {v : V} :
      v ∈ seen → DepthFirst seen todo order → DepthFirst seen (v :: todo) order
  | visit {seen todo middle order : List V} {v : V} :
      v ∉ seen → DepthFirst (seen ++ [v]) (successors arcs v).reverse middle →
      DepthFirst middle todo order → DepthFirst seen (v :: todo) order

theorem DepthFirst.seen_subset (h : DepthFirst arcs seen todo order) : seen ⊆ order := by
  induction h with
  | done => exact List.Subset.refl _
  | skip _ _ ih => exact ih
  | visit _ _ _ ih ih' => exact fun v hv => ih' (ih (List.mem_append_left _ hv))

theorem DepthFirst.det {order' : List V} (h : DepthFirst arcs seen todo order)
    (h' : DepthFirst arcs seen todo order') : order = order' := by
  induction h generalizing order' with
  | done => cases h'; rfl
  | skip hv _ ih =>
      cases h' with
      | skip _ h' => exact ih h'
      | visit hv' => exact absurd hv hv'
  | visit hv _ _ ih ih' =>
      cases h' with
      | skip hv' => exact absurd hv' hv
      | visit _ hfirst hrest => exact ih' (ih hfirst ▸ hrest)

theorem DepthFirst.of_append {todo' : List V}
    (h : DepthFirst arcs seen (todo ++ todo') order) :
    ∃ middle, DepthFirst arcs seen todo middle ∧ DepthFirst arcs middle todo' order := by
  induction todo generalizing seen with
  | nil => exact ⟨seen, .done, h⟩
  | cons v todo ih =>
      cases h with
      | skip hv h =>
          obtain ⟨middle, hfirst, hrest⟩ := ih h
          exact ⟨middle, .skip hv hfirst, hrest⟩
      | visit hv hv' h =>
          obtain ⟨middle, hfirst, hrest⟩ := ih h
          exact ⟨middle, .visit hv hv' hfirst, hrest⟩

/-- It makes no difference whether nodes seen before are still to be visited. -/
theorem DepthFirst.of_filter {old : List V} (hold : old ⊆ seen)
    (h : DepthFirst arcs seen (todo.filter fun v => v ∉ old) order) :
    DepthFirst arcs seen todo order := by
  induction todo generalizing seen with
  | nil => exact h
  | cons v todo ih =>
      by_cases hv : v ∈ old
      · rw [List.filter_cons_of_neg (by simpa using hv)] at h
        exact .skip (hold hv) (ih hold h)
      · rw [List.filter_cons_of_pos (by simpa using hv)] at h
        cases h with
        | skip hseen h => exact .skip hseen (ih hold h)
        | visit hseen hfirst h =>
            have hsub : seen ⊆ _ := fun a ha => hfirst.seen_subset (List.mem_append_left _ ha)
            exact .visit hseen hfirst (ih (List.Subset.trans hold hsub) h)

/-- The walk visits what is on its stack depth first. -/
theorem walk_depthFirst (h : walk arcs n w = some w') :
    DepthFirst arcs w.visited w.stack w'.visited := by
  induction n generalizing w with
  | zero => cases h
  | succ n ih =>
      cases hw : w.stack with
      | nil =>
          simp only [walk, hw, Option.some.injEq] at h
          exact h ▸ .done
      | cons current rest =>
          simp only [walk, hw] at h
          have hnext := ih h
          by_cases hc : current ∈ w.visited
          · rw [pop_visited hc] at hnext
            exact .skip hc hnext
          · rw [pop_fresh hc] at hnext
            obtain ⟨middle, hfirst, hrest⟩ := hnext.of_append
            rw [fresh, ← List.filter_reverse] at hfirst
            exact .visit hc (.of_filter (List.Subset.refl _) hfirst) hrest

/-- What is recorded is free of repetitions exactly when, in the depth-first order, no node has
two arcs into it from the nodes before it. -/
theorem nodup_found_iff (h : walk arcs n (Walk.start s) = some w') :
    w'.found.Nodup ↔ ∃ order, DepthFirst arcs [] [s] order ∧
      ∀ t ∈ order, (arcs.countP fun a => a.1 ∈ order.takeWhile (· ≠ t) ∧ a.2 = t) ≤ 1 := by
  have hfound : ∀ t, w'.found.count t = _ := fun t => count_found h
  constructor
  · intro hnodup
    refine ⟨w'.visited, walk_depthFirst h, fun t _ => ?_⟩
    exact hfound t ▸ List.nodup_iff_count_le_one.mp hnodup t
  · rintro ⟨order, horder, hcount⟩
    obtain rfl : w'.visited = order := (walk_depthFirst h).det horder
    refine List.nodup_iff_count_le_one.mpr fun t => ?_
    by_cases ht : t ∈ w'.found
    · have hv := (mem_visited h).mpr ((mem_found h).mp ht).2.to_reflTransGen
      exact hfound t ▸ hcount t hv
    · simp [List.count_eq_zero.mpr ht]

end Traversal
