import Argus.Correlate.Graph
import Mathlib.Data.List.Perm.Basic
import Mathlib.Data.Nat.Find

/-!
# The nearest owner of a kind

The search for the nearest owner takes the frontier from its end, so it goes deep before it goes
wide, and it answers with the first owner of the kind whose edge it sees. Whether there is an
answer does not depend on that order. Which owner it is does: `nearest_iff` says of which graphs
the answer is a nearest one in whatever order their edges were added.
-/

namespace Argus.Graph

/-! ### The search -/

/-- The nodes marked, and those to expand, the last pushed first. -/
structure Search where
  visited : List ResourceId
  frontier : List ResourceId

/-- The scan of the edges for `current`, which returns at the first new owner of the kind. -/
def scan (g : Graph) (kind : NodeKind) (current : ResourceId) :
    List Edge → Search → Except ResourceId Search
  | [], s => .ok s
  | edge :: edges, s =>
      if edge.from = current ∧ edge.kind.isOwnership ∧ edge.to ∉ s.visited then
        if g.nodes edge.to = some kind then .error edge.to
        else scan g kind current edges ⟨edge.to :: s.visited, edge.to :: s.frontier⟩
      else scan g kind current edges s

/-- The loop, for at most `fuel` turns. -/
def search (g : Graph) (kind : NodeKind) : ℕ → Search → Option (Option ResourceId)
  | 0, _ => none
  | fuel + 1, s =>
      match s.frontier with
      | [] => some none
      | current :: rest =>
          match scan g kind current g.edges ⟨s.visited, rest⟩ with
          | .error owner => some (some owner)
          | .ok s => search g kind fuel s

/-- The nearest owner of `id` of the given `kind`, if any. -/
def nearestOwnerOfKind (g : Graph) (fuel : ℕ) (id : ResourceId) (kind : NodeKind) :
    Option (Option ResourceId) :=
  search g kind fuel ⟨[], [id]⟩

/-! ### What it is for -/

/-- A path of `n` steps, at least one. -/
inductive StepsTo (R : ResourceId → ResourceId → Prop) (a : ResourceId) : ℕ → ResourceId → Prop
  | one {b : ResourceId} : R a b → StepsTo R a 1 b
  | snoc {n : ℕ} {b c : ResourceId} : StepsTo R a n b → R b c → StepsTo R a (n + 1) c

/-- Of the nodes of a kind, `o` is one with a shortest path to it. -/
def IsNearest (R : ResourceId → ResourceId → Prop) (ofKind : ResourceId → Prop)
    (id o : ResourceId) : Prop :=
  ofKind o ∧ ∃ n, StepsTo R id n o ∧ ∀ o' m, ofKind o' → StepsTo R id m o' → n ≤ m

/-- However many turns the loop may take above the number of edges, it ends; with an owner exactly
when there is one of the kind, and then with a nearest one. -/
def Nearest (g : Graph) (id : ResourceId) (kind : NodeKind) : Prop :=
  ∃ answer, (∀ fuel, g.edges.length + 1 < fuel →
      g.nearestOwnerOfKind fuel id kind = some answer) ∧
    (answer.isSome ↔ ∃ o, g.nodes o = some kind ∧ Relation.TransGen g.OwnedBy id o) ∧
    ∀ o, answer = some o → IsNearest g.OwnedBy (g.nodes · = some kind) id o

/-- The nodes a search from `id` can come to in `n` steps: it goes on from a node only where that
has no owner of the kind. -/
inductive Searched (R : ResourceId → ResourceId → Prop) (ofKind : ResourceId → Prop)
    (id : ResourceId) : ℕ → ResourceId → Prop
  | start : Searched R ofKind id 0 id
  | step {n : ℕ} {a b : ResourceId} : Searched R ofKind id n a →
      (∀ o, R a o → ¬ ofKind o) → R a b → Searched R ofKind id (n + 1) b

/-- Every owner of the kind that a search can come upon is a nearest one. -/
def OnlyNearest (g : Graph) (id : ResourceId) (kind : NodeKind) : Prop :=
  ∀ n a o, Searched g.OwnedBy (g.nodes · = some kind) id n a → g.OwnedBy a o →
    g.nodes o = some kind → IsNearest g.OwnedBy (g.nodes · = some kind) id o

variable {g : Graph} {kind : NodeKind} {id current a b o : ResourceId} {s s' : Search}
  {edges edges' : List Edge} {n : ℕ}

/-! ### The scan -/

/-- The edges that a scan for `current` looks at. -/
def Leaves (current : ResourceId) (edge : Edge) : Prop :=
  edge.from = current ∧ edge.kind.isOwnership

theorem scan_append : scan g kind current (edges ++ edges') s
    = (scan g kind current edges s).bind (scan g kind current edges') := by
  induction edges generalizing s with
  | nil => rfl
  | cons edge edges ih =>
      simp only [List.cons_append, scan]
      split_ifs
      · rfl
      · exact ih
      · exact ih

theorem scan_eq_error (h : scan g kind current edges s = .error o) :
    g.nodes o = some kind ∧ ∃ edge ∈ edges, Leaves current edge ∧ edge.to = o := by
  induction edges generalizing s with
  | nil => cases h
  | cons edge edges ih =>
      have htail : ∀ {s}, scan g kind current edges s = .error o → g.nodes o = some kind ∧
          ∃ edge' ∈ edge :: edges, Leaves current edge' ∧ edge'.to = o := fun h => by
        obtain ⟨hkind, edge', hmem, hedge'⟩ := ih h
        exact ⟨hkind, edge', List.mem_cons_of_mem _ hmem, hedge'⟩
      rw [scan] at h
      split_ifs at h with hnew hkind
      · obtain rfl := Except.error.inj h
        exact ⟨hkind, edge, List.mem_cons_self, ⟨hnew.1, hnew.2.1⟩, rfl⟩
      · exact htail h
      · exact htail h

/-- A scan that does not return has marked and pushed what it saw for the first time. -/
theorem scan_eq_ok (h : scan g kind current edges s = .ok s') :
    ∃ new, s' = ⟨new ++ s.visited, new ++ s.frontier⟩ ∧
      (∀ v ∈ new, g.nodes v ≠ some kind ∧ ∃ edge ∈ edges, Leaves current edge ∧ edge.to = v) ∧
      ∀ edge ∈ edges, Leaves current edge → edge.to ∈ new ++ s.visited := by
  induction edges generalizing s with
  | nil =>
      obtain rfl := Except.ok.inj h
      exact ⟨[], rfl, by simp, by simp⟩
  | cons edge edges ih =>
      rw [scan] at h
      split_ifs at h with hnew hkind
      · obtain ⟨new, rfl, hold, hall⟩ := ih h
        refine ⟨new ++ [edge.to], by simp, ?_, ?_⟩
        · intro v hv
          rcases List.mem_append.mp hv with hv | hv
          · obtain ⟨hkind', edge', hmem, hedge'⟩ := hold v hv
            exact ⟨hkind', edge', List.mem_cons_of_mem _ hmem, hedge'⟩
          · obtain rfl := List.mem_singleton.mp hv
            exact ⟨hkind, edge, List.mem_cons_self, ⟨hnew.1, hnew.2.1⟩, rfl⟩
        · intro edge' hmem hleaves
          rcases List.mem_cons.mp hmem with rfl | hmem
          · simp
          · simpa using hall edge' hmem hleaves
      · obtain ⟨new, rfl, hold, hall⟩ := ih h
        refine ⟨new, rfl, fun v hv => ?_, fun edge' hmem hleaves => ?_⟩
        · obtain ⟨hkind', edge', hmem, hedge'⟩ := hold v hv
          exact ⟨hkind', edge', List.mem_cons_of_mem _ hmem, hedge'⟩
        · rcases List.mem_cons.mp hmem with rfl | hmem
          · have hin : edge'.to ∈ s.visited := by
              by_contra hout
              exact hnew ⟨hleaves.1, hleaves.2, hout⟩
            exact List.mem_append_right _ hin
          · exact hall edge' hmem hleaves

/-! ### Termination -/

/-- The nodes on the frontier, and the edges whose far end is not marked. -/
def Search.potential (g : Graph) (s : Search) : ℕ :=
  s.frontier.length + g.edges.countP fun edge => edge.to ∉ s.visited

theorem mark_potential {edge : Edge} (hmem : edge ∈ g.edges) (hnew : edge.to ∉ s.visited) :
    Search.potential g ⟨edge.to :: s.visited, edge.to :: s.frontier⟩ ≤ s.potential g := by
  have hsplit := Traversal.countP_add_countP (l := g.edges)
    (p := fun e => e.to ∉ edge.to :: s.visited) (q := fun e => e.to = edge.to)
    (r := fun e => e.to ∉ s.visited) (fun e _ => by
      rw [← Bool.decide_or, decide_eq_decide, List.mem_cons]
      grind) (fun e _ => by simp +contextual)
  have hpos : 0 < g.edges.countP fun e => e.to = edge.to :=
    List.countP_pos_iff.mpr ⟨edge, hmem, by simp⟩
  simp only [Search.potential, List.length_cons]
  omega

theorem scan_potential (hsub : edges ⊆ g.edges) (h : scan g kind current edges s = .ok s') :
    s'.potential g ≤ s.potential g := by
  induction edges generalizing s with
  | nil => exact (Except.ok.inj h) ▸ le_rfl
  | cons edge edges ih =>
      obtain ⟨hedge, hedges⟩ := List.cons_subset.mp hsub
      rw [scan] at h
      split_ifs at h with hnew
      · exact (ih hedges h).trans (mark_potential hedge hnew.2.2)
      · exact ih hedges h

theorem search_nil (h : s.frontier = []) : search g kind (n + 1) s = some none := by
  simp [search, h]

theorem search_error {rest : List ResourceId} (h : s.frontier = current :: rest)
    (hscan : scan g kind current g.edges ⟨s.visited, rest⟩ = .error o) :
    search g kind (n + 1) s = some (some o) := by
  simp [search, h, hscan]

theorem search_ok {rest : List ResourceId} (h : s.frontier = current :: rest)
    (hscan : scan g kind current g.edges ⟨s.visited, rest⟩ = .ok s') :
    search g kind (n + 1) s = search g kind n s' := by
  simp [search, h, hscan]

/-! ### What the search has explored -/

/-- What holds when the nodes of `expanded` have been, and nothing was returned. -/
structure Explored (g : Graph) (kind : NodeKind) (id : ResourceId) (expanded : List ResourceId)
    (s : Search) : Prop where
  start : id ∈ expanded ++ s.frontier
  marked : ∀ v ∈ s.visited, v ∈ expanded ++ s.frontier
  closed : ∀ a ∈ expanded, ∀ b, g.OwnedBy a b → b ∈ s.visited
  plain : ∀ v ∈ s.visited, g.nodes v ≠ some kind
  searched : ∀ v ∈ s.frontier, ∃ n, Searched g.OwnedBy (g.nodes · = some kind) id n v

variable {expanded rest : List ResourceId}

theorem Explored.step (h : Explored g kind id expanded s) (hs : s.frontier = current :: rest)
    (hscan : scan g kind current g.edges ⟨s.visited, rest⟩ = .ok s') :
    Explored g kind id (current :: expanded) s' := by
  obtain ⟨new, rfl, hnew, hall⟩ := scan_eq_ok hscan
  have hplain : ∀ v ∈ new ++ s.visited, g.nodes v ≠ some kind := by
    intro v hv
    rcases List.mem_append.mp hv with hv | hv
    · exact (hnew v hv).1
    · exact h.plain v hv
  have hclosed : ∀ b, g.OwnedBy current b → b ∈ new ++ s.visited := by
    rintro b ⟨edge, hedge, hnear, rfl, hown⟩
    exact hall edge hedge ⟨hnear, hown⟩
  have hmove : ∀ v, v ∈ expanded ++ s.frontier → v ∈ current :: expanded ++ (new ++ rest) := by
    intro v hv
    simp only [hs, List.mem_append, List.mem_cons] at hv ⊢
    grind
  refine ⟨hmove id h.start, ?_, ?_, hplain, ?_⟩
  · intro v hv
    rcases List.mem_append.mp hv with hv | hv
    · exact List.mem_append_right _ (List.mem_append_left _ hv)
    · exact hmove v (h.marked v hv)
  · intro a ha b hab
    rcases List.mem_cons.mp ha with rfl | ha
    · exact hclosed b hab
    · exact List.mem_append_right _ (h.closed a ha b hab)
  · intro v hv
    rcases List.mem_append.mp hv with hv | hv
    · obtain ⟨n, hn⟩ := h.searched current (by simp [hs])
      obtain ⟨-, edge, hedge, hleaves, rfl⟩ := hnew v hv
      exact ⟨n + 1, hn.step (fun o ho => hplain o (hclosed o ho))
        ⟨edge, hedge, hleaves.1, rfl, hleaves.2⟩⟩
    · exact h.searched v (by simp [hs, hv])

/-- Where nothing is left to expand, no owner is of the kind. -/
theorem Explored.not_ofKind (h : Explored g kind id expanded s) (hs : s.frontier = [])
    (ho : Relation.TransGen g.OwnedBy id o) : g.nodes o ≠ some kind := by
  have hstart := h.start
  have hmarked := h.marked
  rw [hs, List.append_nil] at hstart hmarked
  refine h.plain o ?_
  induction ho with
  | single hab => exact h.closed id hstart _ hab
  | tail _ hbc ih => exact h.closed _ (hmarked _ ih) _ hbc

/-- The search ends, with an owner of the kind that it can come upon, or because there is none. -/
theorem Explored.answer (h : Explored g kind id expanded s) :
    ∃ answer, (∀ fuel, s.potential g < fuel → search g kind fuel s = some answer) ∧
      (answer = none → ∀ o, Relation.TransGen g.OwnedBy id o → g.nodes o ≠ some kind) ∧
      ∀ o, answer = some o → g.nodes o = some kind ∧
        ∃ n a, Searched g.OwnedBy (g.nodes · = some kind) id n a ∧ g.OwnedBy a o := by
  induction hp : s.potential g using Nat.strongRecOn generalizing s expanded with
  | ind p ih =>
      cases hs : s.frontier with
      | nil =>
          refine ⟨none, fun fuel hfuel => ?_, fun _ o ho => h.not_ofKind hs ho, by simp⟩
          obtain ⟨fuel, rfl⟩ : ∃ k, fuel = k + 1 := ⟨fuel - 1, by omega⟩
          exact search_nil hs
      | cons current rest =>
          cases hscan : scan g kind current g.edges ⟨s.visited, rest⟩ with
          | error o =>
              obtain ⟨hkind, edge, hedge, hleaves, rfl⟩ := scan_eq_error hscan
              obtain ⟨n, hn⟩ := h.searched current (by simp [hs])
              refine ⟨some edge.to, fun fuel hfuel => ?_, by simp, ?_⟩
              · obtain ⟨fuel, rfl⟩ : ∃ k, fuel = k + 1 := ⟨fuel - 1, by omega⟩
                exact search_error hs hscan
              · rintro o ho
                obtain rfl := Option.some.inj ho
                exact ⟨hkind, n, current, hn, edge, hedge, hleaves.1, rfl, hleaves.2⟩
          | ok s' =>
              have hle := scan_potential (List.Subset.refl _) hscan
              have hlt : s'.potential g < p := by
                simp only [Search.potential, hs, List.length_cons] at hp hle ⊢
                omega
              obtain ⟨answer, hrun, hnone, hsome⟩ := ih _ hlt (h.step hs hscan) rfl
              refine ⟨answer, fun fuel hfuel => ?_, hnone, hsome⟩
              obtain ⟨fuel, rfl⟩ : ∃ k, fuel = k + 1 := ⟨fuel - 1, by omega⟩
              rw [search_ok hs hscan]
              exact hrun fuel (by omega)

theorem Searched.reflTransGen {R : ResourceId → ResourceId → Prop} {ofKind : ResourceId → Prop}
    (h : Searched R ofKind id n a) : Relation.ReflTransGen R id a := by
  induction h with
  | start => exact .refl
  | step _ _ hab ih => exact ih.tail hab

/-- The search ends whichever way the edges are listed, with an owner of the kind that it can come
upon exactly when there is one. -/
theorem nearestOwnerOfKind_answer (g : Graph) (id : ResourceId) (kind : NodeKind) :
    ∃ answer, (∀ fuel, g.edges.length + 1 < fuel →
        g.nearestOwnerOfKind fuel id kind = some answer) ∧
      (answer.isSome ↔ ∃ o, g.nodes o = some kind ∧ Relation.TransGen g.OwnedBy id o) ∧
      ∀ o, answer = some o → g.nodes o = some kind ∧
        ∃ n a, Searched g.OwnedBy (g.nodes · = some kind) id n a ∧ g.OwnedBy a o := by
  have hstart : Explored g kind id [] ⟨[], [id]⟩ :=
    ⟨by simp, by simp, by simp, by simp, fun v hv => ⟨0, by
      obtain rfl := List.mem_singleton.mp hv
      exact .start⟩⟩
  obtain ⟨answer, hrun, hnone, hsome⟩ := hstart.answer
  refine ⟨answer, fun fuel hfuel => hrun fuel (lt_of_le_of_lt ?_ hfuel), ⟨fun h => ?_, ?_⟩, hsome⟩
  · have hlength : (g.edges.countP fun edge => edge.to ∉ ([] : List ResourceId))
        ≤ g.edges.length := List.countP_le_length
    simp only [Search.potential, List.length_singleton]
    omega
  · obtain ⟨o, rfl⟩ := Option.isSome_iff_exists.mp h
    obtain ⟨hkind, n, a, hn, hao⟩ := hsome o rfl
    exact ⟨o, hkind, Relation.TransGen.tail' hn.reflTransGen hao⟩
  · rintro ⟨o, hkind, ho⟩
    by_contra h
    exact hnone (by simpa using h) o ho hkind

/-! ### The order that leads to a given owner -/

/-- A shortest way to a node that can be searched: each of its nodes is no nearer. -/
theorem Searched.shortest {R : ResourceId → ResourceId → Prop} {ofKind : ResourceId → Prop}
    (h : Searched R ofKind id n a) (hmin : ∀ k, Searched R ofKind id k a → n ≤ k) :
    ∃ way : ℕ → ResourceId, way 0 = id ∧ way n = a ∧
      (∀ i < n, R (way i) (way (i + 1)) ∧ ∀ o, R (way i) o → ¬ ofKind o) ∧
      ∀ i ≤ n, ∀ k, Searched R ofKind id k (way i) → i ≤ k := by
  induction h with
  | start => exact ⟨fun _ => id, rfl, rfl, by simp, by simp⟩
  | @step n b a hb hnone hba ih =>
      obtain ⟨way, hzero, hend, hsteps, hnear⟩ := ih fun k hk =>
        Nat.le_of_succ_le_succ (hmin (k + 1) (hk.step hnone hba))
      refine ⟨fun i => if i ≤ n then way i else a, by simpa using hzero, by simp, ?_, ?_⟩
      · intro i hi
        rcases Nat.lt_succ_iff_lt_or_eq.mp hi with hlt | rfl
        · simpa [hlt.le, Nat.succ_le_of_lt hlt] using hsteps i hlt
        · simpa [hend] using ⟨hba, hnone⟩
      · intro i hi k hk
        rcases Nat.le_succ_iff.mp hi with hle | rfl
        · simp only [hle, if_true] at hk
          exact hnear i hle k hk
        · simp only [Nat.not_succ_le_self, if_false] at hk
          exact hmin k hk

/-- The edges to `o` first, those along the way last. -/
def led (first last : Edge → Prop) [DecidablePred first] [DecidablePred last]
    (edges : List Edge) : List Edge :=
  edges.filter first ++ ((edges.filter fun e => ¬ first e).filter (fun e => ¬ last e)
    ++ (edges.filter fun e => ¬ first e).filter last)

theorem led_perm {first last : Edge → Prop} [DecidablePred first] [DecidablePred last] :
    (led first last edges).Perm edges := by
  have hsplit : ∀ (p : Edge → Prop) [DecidablePred p] (l : List Edge),
      (l.filter (fun e => p e) ++ l.filter fun e => ¬ p e).Perm l := fun p _ l => by
    simpa using List.filter_append_perm (fun e => decide (p e)) l
  refine ((List.perm_append_comm.trans (hsplit last _)).append_left _).trans (hsplit first edges)

theorem scan_idle (h : ∀ edge ∈ edges, Leaves current edge → edge.to ∈ s.visited) :
    scan g kind current edges s = .ok s := by
  induction edges with
  | nil => rfl
  | cons edge edges ih =>
      obtain ⟨hedge, hedges⟩ := List.forall_mem_cons.mp h
      rw [scan, if_neg, ih hedges]
      exact fun hnew => hnew.2.2 (hedge ⟨hnew.1, hnew.2.1⟩)

/-- A scan that sees one new node, not of the kind, marks and pushes it. -/
theorem scan_single (hsome : ∃ edge ∈ edges, Leaves current edge)
    (hall : ∀ edge ∈ edges, Leaves current edge → edge.to = b) (hnew : b ∉ s.visited)
    (hkind : g.nodes b ≠ some kind) :
    scan g kind current edges s = .ok ⟨b :: s.visited, b :: s.frontier⟩ := by
  induction edges with
  | nil => simp at hsome
  | cons edge edges ih =>
      obtain ⟨hedge, hedges⟩ := List.forall_mem_cons.mp hall
      by_cases hleaves : Leaves current edge
      · obtain rfl := hedge hleaves
        rw [scan, if_pos ⟨hleaves.1, hleaves.2, hnew⟩, if_neg hkind]
        exact scan_idle fun edge' hmem hleaves' => by simp [hedges edge' hmem hleaves']
      · have hrest : ∃ edge ∈ edges, Leaves current edge := by
          simpa [hleaves] using hsome
        rw [scan, if_neg fun h => hleaves ⟨h.1, h.2.1⟩]
        exact ih hrest hedges

/-- A scan whose first edge is one to an owner of the kind returns it. -/
theorem scan_first {edge : Edge} (hleaves : Leaves current edge) (hnew : edge.to ∉ s.visited)
    (hkind : g.nodes edge.to = some kind) :
    scan g kind current (edge :: edges) s = .error edge.to := by
  rw [scan, if_pos ⟨hleaves.1, hleaves.2, hnew⟩, if_pos hkind]

/-- Where the far ends are not of the kind, a scan does not return. -/
theorem scan_ok_of_plain
    (h : ∀ edge ∈ edges, Leaves current edge → g.nodes edge.to ≠ some kind) :
    ∃ s', scan g kind current edges s = .ok s' := by
  cases hscan : scan g kind current edges s with
  | error o =>
      obtain ⟨hkind, edge, hedge, hleaves, rfl⟩ := scan_eq_error hscan
      exact absurd hkind (h edge hedge hleaves)
  | ok s' => exact ⟨s', rfl⟩

section Led

variable {way : ℕ → ResourceId} {first last : Edge → Prop} [DecidablePred first]
  [DecidablePred last]

/-- At the end of the way the edges to `o` are scanned first. -/
theorem scan_led_end (hfirst : ∀ e, first e ↔ Leaves current e ∧ e.to = o)
    (hedge : ∃ e ∈ edges, first e) (hnew : o ∉ s.visited) (ho : g.nodes o = some kind) :
    scan g kind current (led first last edges) s = .error o := by
  obtain ⟨e, he, hefirst⟩ := hedge
  have hmem : e ∈ edges.filter first := List.mem_filter.mpr ⟨he, decide_eq_true hefirst⟩
  cases hfilter : edges.filter first with
  | nil => simp [hfilter] at hmem
  | cons e' tail =>
      have he' : e' ∈ edges.filter first := hfilter ▸ List.mem_cons_self
      obtain ⟨hleaves, rfl⟩ := (hfirst e').mp (of_decide_eq_true (List.mem_filter.mp he').2)
      rw [led, hfilter, List.cons_append]
      exact scan_first hleaves hnew ho

/-- On the way the last node pushed is the next one. -/
theorem scan_led_on (hfirst : ∀ e ∈ edges, first e → ¬ Leaves current e)
    (hlast : ∀ e ∈ edges, Leaves current e → (last e ↔ e.to = b))
    (hedge : ∃ e ∈ edges, Leaves current e ∧ e.to = b) (hnew : b ∉ s.visited)
    (hplain : ∀ e ∈ edges, Leaves current e → g.nodes e.to ≠ some kind) :
    ∃ new, scan g kind current (led first last edges) s
        = .ok ⟨b :: (new ++ s.visited), b :: (new ++ s.frontier)⟩ ∧
      ∀ v ∈ new, ∃ e ∈ edges, Leaves current e ∧ e.to = v := by
  have hidle : scan g kind current (edges.filter first) s = .ok s := by
    refine scan_idle fun e he hleaves => absurd hleaves ?_
    obtain ⟨he, hefirst⟩ := List.mem_filter.mp he
    exact hfirst e he (of_decide_eq_true hefirst)
  have hof : ∀ {p : Edge → Bool}, ∀ e ∈ (edges.filter fun e => ¬ first e).filter p, e ∈ edges :=
    fun e he => (List.mem_filter.mp (List.mem_filter.mp he).1).1
  obtain ⟨s', hmiddle⟩ : ∃ s', scan g kind current
      ((edges.filter fun e => ¬ first e).filter fun e => ¬ last e) s = .ok s' :=
    scan_ok_of_plain fun e he => hplain e (hof e he)
  obtain ⟨new, rfl, hseen, -⟩ := scan_eq_ok hmiddle
  have hstill : b ∉ new ++ s.visited := by
    refine List.not_mem_append (fun hmem => ?_) hnew
    obtain ⟨-, e, he, hleaves, rfl⟩ := hseen b hmem
    have hnot := of_decide_eq_true (List.mem_filter.mp he).2
    exact hnot ((hlast e (hof e he) hleaves).mpr rfl)
  obtain ⟨e, he, hleaves, rfl⟩ := hedge
  have hsingle : scan g kind current ((edges.filter fun e => ¬ first e).filter last)
      ⟨new ++ s.visited, new ++ s.frontier⟩
        = .ok ⟨e.to :: (new ++ s.visited), e.to :: (new ++ s.frontier)⟩ := by
    refine scan_single ⟨e, ?_, hleaves⟩ (fun e' he' hleaves' => ?_) hstill (hplain e he hleaves)
    · simpa [he, (hlast e he hleaves).mpr rfl] using fun h => hfirst e he h hleaves
    · exact (hlast e' (hof e' he') hleaves').mp (of_decide_eq_true (List.mem_filter.mp he').2)
  refine ⟨new, ?_, fun v hv => ?_⟩
  · rw [led, scan_append, hidle, Except.bind, scan_append, hmiddle]
    exact hsingle
  · obtain ⟨-, e', he', hleaves', rfl⟩ := hseen v hv
    exact ⟨e', hof e' he', hleaves', rfl⟩

/-- With the edges along a shortest way scanned last, the search follows it, and returns the owner
whose edge is scanned first at its end. -/
theorem search_led (hedges : g.edges = led first last edges)
    (hfirst : ∀ e, first e ↔ Leaves (way n) e ∧ e.to = o)
    (hlast : ∀ e, last e ↔ ∃ i < n, Leaves (way i) e ∧ e.to = way (i + 1))
    (howned : g.OwnedBy (way n) o) (ho : g.nodes o = some kind)
    (hsteps : ∀ i < n, g.OwnedBy (way i) (way (i + 1)) ∧
      ∀ o, g.OwnedBy (way i) o → g.nodes o ≠ some kind)
    (hway : ∀ i ≤ n, Searched g.OwnedBy (g.nodes · = some kind) id i (way i))
    (hnear : ∀ i ≤ n, ∀ k, Searched g.OwnedBy (g.nodes · = some kind) id k (way i) → i ≤ k)
    {i : ℕ} (hi : i ≤ n) (hs : s.frontier = way i :: rest)
    (hvisited : ∀ v ∈ s.visited, g.nodes v ≠ some kind ∧
      ∃ k ≤ i, Searched g.OwnedBy (g.nodes · = some kind) id k v)
    {fuel : ℕ} (hfuel : n - i < fuel) : search g kind fuel s = some (some o) := by
  have hmem : ∀ e, e ∈ edges ↔ e ∈ g.edges := fun e => hedges ▸ led_perm.mem_iff.symm
  have hinj : ∀ i ≤ n, ∀ j ≤ n, way j = way i → j = i := fun i hi j hj h =>
    le_antisymm (hnear j hj i (h ▸ hway i hi)) (hnear i hi j (h ▸ hway j hj))
  induction hd : n - i generalizing i s rest fuel with
  | zero =>
      obtain rfl : i = n := by omega
      obtain ⟨fuel, rfl⟩ : ∃ k, fuel = k + 1 := ⟨fuel - 1, by omega⟩
      obtain ⟨edge, hedge, hfrom, hto, hown⟩ := howned
      refine search_error hs (hedges ▸ scan_led_end hfirst ?_ ?_ ho)
      · exact ⟨edge, (hmem edge).mpr hedge, (hfirst edge).mpr ⟨⟨hfrom, hown⟩, hto⟩⟩
      · exact fun hmem => (hvisited o hmem).1 ho
  | succ d ih =>
      have hlt : i < n := by omega
      obtain ⟨fuel, rfl⟩ : ∃ k, fuel = k + 1 := ⟨fuel - 1, by omega⟩
      obtain ⟨⟨edge, hedge, hfrom, hto, hown⟩, hnone⟩ := hsteps i hlt
      have hplain : ∀ e ∈ edges, Leaves (way i) e → g.nodes e.to ≠ some kind := fun e he hleaves =>
        hnone e.to ⟨e, (hmem e).mp he, hleaves.1, rfl, hleaves.2⟩
      have hnotyet : way (i + 1) ∉ s.visited := fun hmem => by
        obtain ⟨-, k, hk, hk'⟩ := hvisited _ hmem
        exact absurd (hnear (i + 1) hlt k hk') (by omega)
      have hnotend : ∀ e ∈ edges, first e → ¬ Leaves (way i) e := fun e _ he hleaves =>
        hlt.ne (hinj n le_rfl i hi (hleaves.1.symm.trans ((hfirst e).mp he).1.1))
      have honly : ∀ e ∈ edges, Leaves (way i) e → (last e ↔ e.to = way (i + 1)) := by
        intro e _ hleaves
        refine (hlast e).trans ⟨?_, fun hto => ⟨i, hlt, hleaves, hto⟩⟩
        rintro ⟨j, hj, hj', hto⟩
        exact hinj i hi j hj.le (hj'.1.symm.trans hleaves.1) ▸ hto
      obtain ⟨new, hscan, hseen⟩ : ∃ new, scan g kind (way i) (led first last edges)
            ⟨s.visited, rest⟩
          = .ok ⟨way (i + 1) :: (new ++ s.visited), way (i + 1) :: (new ++ rest)⟩ ∧
          ∀ v ∈ new, ∃ e ∈ edges, Leaves (way i) e ∧ e.to = v :=
        scan_led_on hnotend honly ⟨edge, (hmem edge).mpr hedge, ⟨hfrom, hown⟩, hto⟩ hnotyet hplain
      rw [search_ok hs (hedges ▸ hscan)]
      refine ih hlt rfl ?_ (by omega) (by omega)
      intro v hv
      have hnext : ∀ v, g.OwnedBy (way i) v → g.nodes v ≠ some kind ∧
          ∃ k ≤ i + 1, Searched g.OwnedBy (g.nodes · = some kind) id k v := fun v hv =>
        ⟨hnone v hv, i + 1, le_rfl, (hway i hi).step hnone hv⟩
      rcases List.mem_cons.mp hv with rfl | hv
      · exact hnext _ ⟨edge, hedge, hfrom, hto, hown⟩
      rcases List.mem_append.mp hv with hv | hv
      · obtain ⟨e, he, hleaves, rfl⟩ := hseen v hv
        exact hnext _ ⟨e, (hmem e).mp he, hleaves.1, rfl, hleaves.2⟩
      · obtain ⟨hkind, k, hk, hk'⟩ := hvisited v hv
        exact ⟨hkind, k, by omega, hk'⟩

end Led

/-! ### When the answer is a nearest owner -/

theorem ownedBy_perm (h : edges.Perm g.edges) :
    OwnedBy { g with edges := edges } = g.OwnedBy := by
  funext a b
  exact propext (exists_congr fun edge => and_congr_left' h.mem_iff)

theorem Nearest.of_onlyNearest (h : g.OnlyNearest id kind) : g.Nearest id kind := by
  obtain ⟨answer, hrun, hsome, hfound⟩ := nearestOwnerOfKind_answer g id kind
  refine ⟨answer, hrun, hsome, fun o ho => ?_⟩
  obtain ⟨hkind, n, a, hn, hao⟩ := hfound o ho
  exact h n a o hn hao hkind

/-- The answer is a nearest owner, in whatever order the edges were added, exactly when every owner
of the kind that a search can come upon is a nearest one. -/
theorem nearest_iff (g : Graph) (id : ResourceId) (kind : NodeKind) :
    (∀ edges : List Edge, edges.Perm g.edges → Nearest { g with edges := edges } id kind) ↔
      g.OnlyNearest id kind := by
  constructor
  · intro hall n a o hn hao ho
    classical
    have hexists : ∃ n, Searched g.OwnedBy (g.nodes · = some kind) id n a := ⟨n, hn⟩
    obtain ⟨n, hn, hmin⟩ : ∃ n, Searched g.OwnedBy (g.nodes · = some kind) id n a ∧
        ∀ k, Searched g.OwnedBy (g.nodes · = some kind) id k a → n ≤ k :=
      ⟨Nat.find hexists, Nat.find_spec hexists, fun k hk => Nat.find_min' _ hk⟩
    obtain ⟨way, hzero, rfl, hsteps, hnear⟩ := hn.shortest hmin
    have hway : ∀ i ≤ n, Searched g.OwnedBy (g.nodes · = some kind) id i (way i) := by
      intro i
      induction i with
      | zero => exact fun _ => hzero ▸ .start
      | succ i ih => exact fun hi => (ih (by omega)).step (hsteps i hi).2 (hsteps i hi).1
    -- the edges along the way last, those to `o` first
    let edges := led (fun e => Leaves (way n) e ∧ e.to = o)
      (fun e => ∃ i < n, Leaves (way i) e ∧ e.to = way (i + 1)) g.edges
    have hperm : edges.Perm g.edges := led_perm
    have howned := ownedBy_perm hperm
    obtain ⟨answer, hrun, -, hnearest⟩ := hall edges hperm
    have hanswer : nearestOwnerOfKind { g with edges := edges } (edges.length + 2 + n) id kind
        = some (some o) := by
      rw [nearestOwnerOfKind]
      exact search_led (g := { g with edges := edges }) rfl (fun _ => Iff.rfl) (fun _ => Iff.rfl)
        (howned ▸ hao) ho (howned ▸ hsteps) (howned ▸ hway) (howned ▸ hnear) (Nat.zero_le n)
        (by rw [hzero]) (by simp) (by omega)
    have hfuel := hrun (edges.length + 2 + n)
      (show edges.length + 1 < edges.length + 2 + n by omega)
    obtain rfl : answer = some o := Option.some.inj (hfuel.symm.trans hanswer)
    exact howned ▸ hnearest o rfl
  · intro h edges hperm
    refine Nearest.of_onlyNearest ?_
    simpa only [OnlyNearest, ownedBy_perm hperm] using h

/-- An application two steps up from a process, and one three steps up on a branch that is added
later. -/
def twoApplications : Graph :=
  let process : ResourceId := ⟨"process:1"⟩
  let container : ResourceId := ⟨"container:c"⟩
  let pod : ResourceId := ⟨"pod:p"⟩
  let deployment : ResourceId := ⟨"deployment:d"⟩
  let near : ResourceId := ⟨"application:near"⟩
  let far : ResourceId := ⟨"application:far"⟩
  { nodes := ((empty.addNode near .application).addNode far .application).nodes
    edges := [⟨process, container, .belongsTo⟩, ⟨process, pod, .belongsTo⟩,
      ⟨container, near, .belongsTo⟩, ⟨pod, deployment, .managedBy⟩,
      ⟨deployment, far, .deployedBy⟩] }

/-- The branch pushed last is searched to its end before the other one. -/
theorem twoApplications_far : ¬ twoApplications.Nearest ⟨"process:1"⟩ .application := by
  rintro ⟨answer, hrun, -, hnearest⟩
  have hanswer : twoApplications.nearestOwnerOfKind 7 ⟨"process:1"⟩ .application
      = some (some ⟨"application:far"⟩) := by decide
  obtain rfl := Option.some.inj ((hrun 7 (by decide)).symm.trans hanswer)
  obtain ⟨-, n, hn, hmin⟩ := hnearest _ rfl
  have hone : StepsTo twoApplications.OwnedBy ⟨"process:1"⟩ 1 ⟨"container:c"⟩ :=
    .one ⟨_, List.mem_cons_self, rfl, rfl, rfl⟩
  have htwo := hmin ⟨"application:near"⟩ 2 rfl
    (hone.snoc ⟨⟨_, _, .belongsTo⟩, by decide, rfl, rfl, rfl⟩)
  have hlast : ∀ b, twoApplications.OwnedBy b ⟨"application:far"⟩ → b = ⟨"deployment:d"⟩ := by
    rintro b ⟨edge, hedge, rfl, hfar, -⟩
    exact (by decide : ∀ edge ∈ twoApplications.edges, edge.to = ⟨"application:far"⟩ →
      edge.from = ⟨"deployment:d"⟩) edge hedge hfar
  have hfirst : ¬ twoApplications.OwnedBy ⟨"process:1"⟩ ⟨"deployment:d"⟩ := by
    rintro ⟨edge, hedge, hnear, hfar, -⟩
    exact (by decide : ∀ edge ∈ twoApplications.edges, edge.from = ⟨"process:1"⟩ →
      edge.to ≠ ⟨"deployment:d"⟩) edge hedge hnear hfar
  cases hn with
  | one h => exact absurd (hlast _ h) (by decide)
  | snoc hb h =>
      obtain rfl := hlast _ h
      cases hb with
      | one h => exact hfirst h
      | snoc hb _ =>
          have hpos : ∀ {m c}, StepsTo twoApplications.OwnedBy ⟨"process:1"⟩ m c → 0 < m := by
            intro m c hc
            cases hc <;> omega
          have := hpos hb
          omega

end Argus.Graph
