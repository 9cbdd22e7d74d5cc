import Argus.Lib.Traversal
import Argus.Domain.Authorization

/-!
# The environment graph and its closures

`owners`, `dependents` and `dependencies` are one traversal: it records the far end of an edge
when it sees the edge, and marks a node only when it takes it from the stack. The nodes it
returns are right on every graph, but one that is seen again while it waits on the stack is
returned again. When that happens depends on the order of the edges.
-/

namespace Argus

open Traversal

inductive NodeKind
  | environment | host | kernel | process | cgroup | namespace_ | device | filesystem | network
  | service | container | workload | endpoint | dependency | application | k8sCluster | k8sNode
  | k8sNamespace | k8sDeployment | k8sReplicaSet | k8sPod | cloudResource | observation
  | situation | incident | evidence | plan | action | execution | agent | plugin
  deriving DecidableEq

inductive RelationshipKind
  | belongsTo | runsOn | dependsOn | provides | calls | contains | owns | managedBy | exposes
  | connectedTo | causedBy | affectedBy | deployedBy | derivedFrom
  deriving DecidableEq

/-- True for edges that point from a resource up to its owner. -/
def RelationshipKind.isOwnership : RelationshipKind → Bool
  | .runsOn | .belongsTo | .managedBy | .deployedBy => true
  | _ => false

/-- A directed edge: `from` is related to `to` via `kind`. -/
structure Edge where
  «from» : ResourceId
  «to» : ResourceId
  kind : RelationshipKind
  deriving DecidableEq

/-- An in-memory typed graph; `nodes` is a map, `edges` a list in the order of their adding. -/
structure Graph where
  nodes : ResourceId → Option NodeKind
  edges : List Edge

namespace Graph

def empty : Graph := ⟨fun _ => none, []⟩

def addNode (g : Graph) (id : ResourceId) (kind : NodeKind) : Graph :=
  { g with nodes := fun id' => if id' = id then some kind else g.nodes id' }

def addEdge (g : Graph) (edge : Edge) : Graph := { g with edges := g.edges ++ [edge] }

/-- The edges a traversal follows, each from its near end to its far end. -/
def arcs (g : Graph) (near far : Edge → ResourceId) (follows : RelationshipKind → Bool) :
    List (ResourceId × ResourceId) :=
  (g.edges.filter fun edge => follows edge.kind).map fun edge => (near edge, far edge)

/-- `result.sort_by(|a, b| a.as_str().cmp(b.as_str()))`. -/
def sortByStr (ids : List ResourceId) : List ResourceId :=
  ids.mergeSort fun a b => decide (a.asStr ≤ b.asStr)

/-- The loop the three closures share, for at most `fuel` turns. -/
def traverse (arcs : List (ResourceId × ResourceId)) (fuel : ℕ) (id : ResourceId) :
    Option (List ResourceId) :=
  (walk arcs fuel (Walk.start id)).map fun w => sortByStr w.found

def ownershipArcs (g : Graph) : List (ResourceId × ResourceId) :=
  g.arcs Edge.from Edge.to RelationshipKind.isOwnership

def dependentArcs (g : Graph) : List (ResourceId × ResourceId) :=
  g.arcs Edge.to Edge.from fun kind => kind = .dependsOn

def dependencyArcs (g : Graph) : List (ResourceId × ResourceId) :=
  g.arcs Edge.from Edge.to fun kind => kind = .dependsOn

/-- Transitive ancestors via ownership edges. -/
def owners (g : Graph) (fuel : ℕ) (id : ResourceId) : Option (List ResourceId) :=
  traverse g.ownershipArcs fuel id

/-- Every node that (transitively) depends on `id`. -/
def dependents (g : Graph) (fuel : ℕ) (id : ResourceId) : Option (List ResourceId) :=
  traverse g.dependentArcs fuel id

/-- Every node that `id` (transitively) depends on. -/
def dependencies (g : Graph) (fuel : ℕ) (id : ResourceId) : Option (List ResourceId) :=
  traverse g.dependencyArcs fuel id

/-! ### What the closures are for -/

/-- An ownership edge leads from `a` to its owner `b`. -/
def OwnedBy (g : Graph) (a b : ResourceId) : Prop :=
  ∃ edge ∈ g.edges, edge.from = a ∧ edge.to = b ∧ edge.kind.isOwnership

/-- A dependency edge leads from `a` to `b`. -/
def DependsOn (g : Graph) (a b : ResourceId) : Prop :=
  ∃ edge ∈ g.edges, edge.from = a ∧ edge.to = b ∧ edge.kind = .dependsOn

/-- However many turns the loop may take above the number of edges, it ends with the nodes other
than `id` that `R` reaches from it, sorted and each once. -/
def Exact (g : Graph) (R : ResourceId → ResourceId → Prop)
    (closure : ℕ → ResourceId → Option (List ResourceId)) (id : ResourceId) : Prop :=
  ∃ out, (∀ fuel, g.edges.length + 1 < fuel → closure fuel id = some out) ∧
    out.Pairwise (fun a b => a.asStr ≤ b.asStr) ∧ out.Nodup ∧
    ∀ v, v ∈ out ↔ v ≠ id ∧ Relation.TransGen R id v

/-- In the depth-first order from `id`, at most one arc leads into each node from the nodes
before it. -/
def MetOnce (arcs : List (ResourceId × ResourceId)) (id : ResourceId) : Prop :=
  ∃ order, DepthFirst arcs [] [id] order ∧
    ∀ t ∈ order, (arcs.countP fun a => a.1 ∈ order.takeWhile (· ≠ t) ∧ a.2 = t) ≤ 1

variable {g : Graph} {near far : Edge → ResourceId} {follows : RelationshipKind → Bool}
  {R : ResourceId → ResourceId → Prop} {ids : List ResourceId} {id : ResourceId}

theorem sortByStr_perm : (sortByStr ids).Perm ids := List.mergeSort_perm _ _

theorem sortByStr_pairwise : (sortByStr ids).Pairwise fun a b => a.asStr ≤ b.asStr := by
  refine (List.pairwise_mergeSort ?_ ?_ _).imp of_decide_eq_true
  · intro a b c hab hbc
    exact decide_eq_true (String.le_trans (of_decide_eq_true hab) (of_decide_eq_true hbc))
  · intro a b
    simpa only [Bool.or_eq_true, decide_eq_true_eq] using String.le_total a.asStr b.asStr

theorem arc_arcs {a b : ResourceId} : Arc (g.arcs near far follows) a b ↔
    ∃ edge ∈ g.edges, near edge = a ∧ far edge = b ∧ follows edge.kind := by
  simp only [Arc, arcs, List.mem_map, List.mem_filter, Prod.mk.injEq]
  constructor
  · intro h
    obtain ⟨edge, ⟨hedge, hfollows⟩, hnear, hfar⟩ := h
    exact ⟨edge, hedge, hnear, hfar, hfollows⟩
  · intro h
    obtain ⟨edge, hedge, hnear, hfar, hfollows⟩ := h
    exact ⟨edge, ⟨hedge, hfollows⟩, hnear, hfar⟩

theorem arc_ownershipArcs : Arc g.ownershipArcs = g.OwnedBy := by
  funext a b
  exact propext arc_arcs

theorem arc_dependencyArcs : Arc g.dependencyArcs = g.DependsOn := by
  funext a b
  simp only [dependencyArcs, eq_iff_iff, arc_arcs, decide_eq_true_eq]
  rfl

theorem arc_dependentArcs : Arc g.dependentArcs = fun a b => g.DependsOn b a := by
  funext a b
  simp only [dependentArcs, eq_iff_iff, arc_arcs, decide_eq_true_eq, DependsOn]
  grind

theorem potential_start_le : (Walk.start id).potential (g.arcs near far follows)
    ≤ g.edges.length + 1 := by
  have harcs : (g.arcs near far follows).length ≤ g.edges.length := by
    simpa [arcs] using List.length_filter_le _ _
  have hscan := List.length_filter_le (fun a : ResourceId × ResourceId =>
    a.1 ∉ (Walk.start id).visited) (g.arcs near far follows)
  simp only [Walk.potential, Walk.start, List.length_singleton] at hscan ⊢
  omega

/-- One traversal is exact exactly when it meets no node again that waits on its stack. -/
theorem exact_traverse_iff (hR : Arc (g.arcs near far follows) = R) :
    g.Exact R (traverse (g.arcs near far follows)) id ↔ MetOnce (g.arcs near far follows) id := by
  obtain ⟨w, hw⟩ := exists_walk (g.arcs near far follows) (Walk.start id)
  have hwalk : ∀ fuel, g.edges.length + 1 < fuel →
      walk (g.arcs near far follows) fuel (Walk.start id) = some w := fun fuel hfuel =>
    hw fuel (lt_of_le_of_lt potential_start_le hfuel)
  have hends := hwalk (g.edges.length + 2) (Nat.lt_succ_self _)
  have hout : ∀ fuel, g.edges.length + 1 < fuel →
      traverse (g.arcs near far follows) fuel id = some (sortByStr w.found) := fun fuel hfuel => by
    rw [traverse, hwalk fuel hfuel, Option.map_some]
  rw [MetOnce, ← nodup_found_iff hends, ← sortByStr_perm.nodup_iff]
  constructor
  · intro h
    obtain ⟨out, hrun, -, hnodup, -⟩ := h
    obtain rfl : sortByStr w.found = out :=
      Option.some.inj ((hout _ (Nat.lt_succ_self _)).symm.trans (hrun _ (Nat.lt_succ_self _)))
    exact hnodup
  · intro hnodup
    refine ⟨_, hout, sortByStr_pairwise, hnodup, fun v => ?_⟩
    rw [sortByStr_perm.mem_iff, mem_found hends, hR]

/-- The three closures: each is exact, from a start, exactly when its depth-first order from
there has no node with two edges of its kind into it from the nodes before. -/
theorem closures_exact_iff (g : Graph) (id : ResourceId) :
    (g.Exact g.OwnedBy g.owners id ↔ MetOnce g.ownershipArcs id) ∧
      (g.Exact (fun a b => g.DependsOn b a) g.dependents id ↔ MetOnce g.dependentArcs id) ∧
      (g.Exact g.DependsOn g.dependencies id ↔ MetOnce g.dependencyArcs id) :=
  ⟨exact_traverse_iff arc_ownershipArcs, exact_traverse_iff arc_dependentArcs,
    exact_traverse_iff arc_dependencyArcs⟩

/-- A pod that names its deployment and its replica set, which names the deployment too. -/
def podGraph : Graph :=
  ((empty.addEdge ⟨⟨"pod:p"⟩, ⟨"deployment:d"⟩, .belongsTo⟩).addEdge
    ⟨⟨"pod:p"⟩, ⟨"replicaset:r"⟩, .managedBy⟩).addEdge
      ⟨⟨"replicaset:r"⟩, ⟨"deployment:d"⟩, .managedBy⟩

/-- The deployment waits on the stack when the replica set's edge to it is seen. -/
theorem podGraph_owner_twice : ¬ podGraph.Exact podGraph.OwnedBy podGraph.owners ⟨"pod:p"⟩ := by
  intro h
  obtain ⟨out, hrun, -, hnodup, -⟩ := h
  have hwalk : walk podGraph.ownershipArcs 5 (Walk.start ⟨"pod:p"⟩) = some
      ⟨[⟨"deployment:d"⟩, ⟨"replicaset:r"⟩, ⟨"deployment:d"⟩],
        [⟨"pod:p"⟩, ⟨"replicaset:r"⟩, ⟨"deployment:d"⟩], []⟩ := by rfl
  have hout := hrun 5 (by decide)
  rw [owners, traverse, hwalk, Option.map_some, Option.some.injEq] at hout
  rw [← hout, sortByStr_perm.nodup_iff] at hnodup
  exact absurd hnodup (by decide)

end Graph

end Argus
