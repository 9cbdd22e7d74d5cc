import Argus.Lib.Pointwise
import Argus.Lib.Selection

/-!
# Troubleshooting bundles

For each troubled pod the provider collects the pod's own fields, the events that involve it, and
the rollout state of the deployment that owns it. Events are matched by namespace, name and kind.
The deployment is found from the name of the pod's ReplicaSet alone: it is the one with the
longest name that the ReplicaSet's name starts with, in whichever namespace it is.
-/

namespace Argus.Kubernetes

open Selection (maxBy Leads)

/-- The fields of a container's status that a bundle cites. -/
structure ContainerStatus where
  name : String
  restartCount : Nat
  ready : Bool
  waitingReason : Option String
  lastTermination : Option (String × Int)

structure Pod where
  nameSpace : String
  name : String
  phase : String
  ownerKind : Option String
  ownerName : Option String
  containers : List ContainerStatus

structure KubeEvent where
  nameSpace : String
  involvedObject : String
  reason : String
  message : String
  count : Int
  kind : String

structure Deployment where
  nameSpace : String
  name : String
  replicas : Int
  readyReplicas : Int
  availableReplicas : Int

/-- The failure signature a bundle recognizes. -/
inductive Signature
  | crashLoopBackOff
  | oomKilled
  | imagePullBackOff
  | pending
  deriving DecidableEq

structure ContainerEvidence where
  name : String
  ready : Bool
  restartCount : Nat
  waitingReason : Option String
  lastTermination : Option (String × Int)

structure DeploymentSummary where
  name : String
  replicas : Int
  readyReplicas : Int
  availableReplicas : Int
  deriving DecidableEq

structure EvidenceBundle where
  pod : String
  nameSpace : String
  signature : Signature
  owner : Option (String × String)
  restartCount : Nat
  containers : List ContainerEvidence
  events : List String
  deployment : Option DeploymentSummary

namespace Pod

def waitingIn (pod : Pod) (reason : String) : Bool :=
  pod.containers.any fun c => c.waitingReason == some reason

def lastTerminatedAs (pod : Pod) (reason : String) : Bool :=
  pod.containers.any fun c => c.lastTermination.any fun last => last.1 == reason

/-- The highest restart count across containers. -/
def restarts (pod : Pod) : Nat := (pod.containers.map ContainerStatus.restartCount).max?.getD 0

end Pod

/-- The pod's primary failure signature, by the precedence of the source. -/
def detectSignature (pod : Pod) : Option Signature :=
  if pod.waitingIn "CrashLoopBackOff" then some .crashLoopBackOff
  else if pod.lastTerminatedAs "OOMKilled" then some .oomKilled
  else if pod.waitingIn "ImagePullBackOff" || pod.waitingIn "ErrImagePull" then
    some .imagePullBackOff
  else if pod.phase == "Pending" then some .pending
  else none

def KubeEvent.render (event : KubeEvent) : String :=
  s!"{event.reason} x{event.count}: {event.message}"

def Deployment.summary (d : Deployment) : DeploymentSummary where
  name := d.name
  replicas := d.replicas
  readyReplicas := d.readyReplicas
  availableReplicas := d.availableReplicas

/-- The bundle for a pod, or `none` when the pod shows no recognized signature. -/
def gatherEvidence (pod : Pod) (events : List KubeEvent) (deployment : Option Deployment) :
    Option EvidenceBundle :=
  (detectSignature pod).map fun signature =>
    { pod := pod.name
      nameSpace := pod.nameSpace
      signature
      owner := pod.ownerKind.bind fun kind => pod.ownerName.map fun name => (kind, name)
      restartCount := pod.restarts
      containers := pod.containers.map fun c =>
        { name := c.name, ready := c.ready, restartCount := c.restartCount
          waitingReason := c.waitingReason, lastTermination := c.lastTermination }
      events := (events.filter fun event =>
        event.nameSpace == pod.nameSpace && event.involvedObject == pod.name &&
          event.kind == "Pod").map KubeEvent.render
      deployment := deployment.map Deployment.summary }

/-- The ReplicaSet's name is the deployment's, or starts with it and a dash. -/
def Deployment.namesReplicaSet (d : Deployment) (rs : String) : Bool :=
  rs == d.name || (d.name ++ "-").toList.isPrefixOf rs.toList

/-- `Ordering::Greater` of the lengths in bytes. -/
def longer (a b : Deployment) : Bool := decide (b.name.utf8ByteSize < a.name.utf8ByteSize)

/-- Maps a ReplicaSet-owned pod to its deployment. -/
def deploymentFor (pod : Pod) (deployments : List Deployment) : Option Deployment :=
  if pod.ownerKind ≠ some "ReplicaSet" then none
  else
    pod.ownerName.bind fun rs => maxBy longer (deployments.filter fun d => d.namesReplicaSet rs)

/-- Every recognized bundle in a pod list, in list order. -/
def gatherAll (pods : List Pod) (events : List KubeEvent) (deployments : List Deployment) :
    List EvidenceBundle :=
  pods.filterMap fun pod => gatherEvidence pod events (deploymentFor pod deployments)

/-! ### What a bundle should carry -/

/-- The pod's ReplicaSet is one of the deployment, by its name. -/
def Owns (d : Deployment) (pod : Pod) : Prop :=
  pod.ownerKind = some "ReplicaSet" ∧ ∃ rs, pod.ownerName = some rs ∧ d.namesReplicaSet rs

/-- Of the deployments in `among`, `d` has the longest name that fits the pod's ReplicaSet. -/
structure Longest (among : List Deployment) (pod : Pod) (d : Deployment) : Prop where
  mem : d ∈ among
  owns : Owns d pod
  longest : ∀ d' ∈ among, Owns d' pod → d'.name.utf8ByteSize ≤ d.name.utf8ByteSize

/-- The deployments of the pod's namespace. -/
def inNamespace (pod : Pod) (deployments : List Deployment) : List Deployment :=
  deployments.filter fun d => d.nameSpace == pod.nameSpace

/-- The bundle is about this pod, and all that it carries is from the pod's namespace. -/
structure OfNamespace (events : List KubeEvent) (deployments : List Deployment) (pod : Pod)
    (bundle : EvidenceBundle) : Prop where
  pod_eq : bundle.pod = pod.name
  nameSpace_eq : bundle.nameSpace = pod.nameSpace
  events : ∀ text ∈ bundle.events, ∃ event ∈ events,
    event.nameSpace = pod.nameSpace ∧ text = event.render
  summary : ∀ s, bundle.deployment = some s →
    ∃ d, Longest (inNamespace pod deployments) pod d ∧ d.summary = s
  absent : bundle.deployment = none → ∀ d ∈ inNamespace pod deployments, ¬ Owns d pod

def troubled (pods : List Pod) : List Pod := pods.filter fun pod => (detectSignature pod).isSome

/-- Every bundle stays in the namespace of its pod, and the order of the deployments does not
matter. -/
structure StaysInNamespace (pods : List Pod) (events : List KubeEvent)
    (deployments : List Deployment) : Prop where
  bundles : List.Forall₂ (OfNamespace events deployments) (troubled pods)
    (gatherAll pods events deployments)
  order : ∀ deployments', deployments'.Perm deployments →
    gatherAll pods events deployments' = gatherAll pods events deployments

/-- Of the deployments in all namespaces with the longest name that fits, one is in the pod's
namespace, and all have the same counts. -/
def NoLongerElsewhere (deployments : List Deployment) (pod : Pod) : Prop :=
  ∀ d, Longest deployments pod d →
    (∃ own, Longest deployments pod own ∧ own.nameSpace = pod.nameSpace) ∧
      ∀ d', Longest deployments pod d' → d'.summary = d.summary

variable {pod : Pod} {pods : List Pod} {events : List KubeEvent}
  {deployments deployments' : List Deployment} {d : Deployment}

/-! ### The deployment that is found -/

theorem longer_trans (a b c : Deployment) (hab : longer a b) (hbc : longer b c) : longer a c := by
  simp only [longer, decide_eq_true_eq] at hab hbc ⊢
  omega

theorem longer_asymm (a b : Deployment) (hab : longer a b) : longer b a = false := by
  simp only [longer, decide_eq_true_eq, decide_eq_false_iff_not] at hab ⊢
  omega

theorem longer_ties (a b c : Deployment) (hac : longer a c) : longer a b ∨ longer b c := by
  simp only [longer, decide_eq_true_eq] at hac ⊢
  omega

/-- The search runs over the deployments that own the pod by its ReplicaSet's name. -/
theorem deploymentFor_eq_some_iff : deploymentFor pod deployments = some d ↔
    ∃ rs, pod.ownerKind = some "ReplicaSet" ∧ pod.ownerName = some rs ∧
      Leads longer (deployments.filter fun d => d.namesReplicaSet rs) d := by
  unfold deploymentFor
  by_cases hkind : pod.ownerKind = some "ReplicaSet"
  · simp [hkind, Option.bind_eq_some_iff, Selection.maxBy_eq_some_iff longer_trans]
  · simp [hkind]

theorem deploymentFor_eq_none_iff : deploymentFor pod deployments = none ↔
    ∀ d ∈ deployments, ¬ Owns d pod := by
  unfold deploymentFor Owns
  by_cases hkind : pod.ownerKind = some "ReplicaSet"
  · cases hname : pod.ownerName <;>
      simp [hkind, Selection.maxBy_eq_none_iff, List.filter_eq_nil_iff]
  · simp [hkind]

/-- A deployment that is found is a longest one. -/
theorem longest_of_deploymentFor (h : deploymentFor pod deployments = some d) :
    Longest deployments pod d := by
  obtain ⟨rs, hkind, hname, hleads⟩ := deploymentFor_eq_some_iff.mp h
  have hmem := List.mem_filter.mp hleads.mem
  refine ⟨hmem.1, ⟨hkind, rs, hname, hmem.2⟩, fun d' hd' ⟨_, rs', hname', hfits⟩ => ?_⟩
  obtain rfl : rs = rs' := Option.some.inj (hname.symm.trans hname')
  have hnot := hleads.not_gt longer_asymm (fun a _ b _ c _ => longer_ties a b c)
    (List.mem_filter.mpr ⟨hd', hfits⟩)
  simpa [longer] using hnot

/-- Of several longest ones the last in the list is found, so each of them is for some order. -/
theorem exists_perm_deploymentFor (h : Longest deployments pod d) :
    ∃ deployments', deployments'.Perm deployments ∧ deploymentFor pod deployments' = some d := by
  obtain ⟨hkind, rs, hname, hfits⟩ := h.owns
  obtain ⟨before, after, rfl⟩ := List.append_of_mem h.mem
  refine ⟨before ++ after ++ [d], ?_, deploymentFor_eq_some_iff.mpr ⟨rs, hkind, hname, ?_⟩⟩
  · have hlast : (after ++ [d]).Perm (d :: after) := List.perm_append_singleton d after
    simpa [List.append_assoc] using hlast.append_left before
  · refine ⟨(before ++ after).filter fun d => d.namesReplicaSet rs, [], ?_, by simp, ?_⟩
    · simp [hfits]
    intro earlier x later hsplit
    have hx : x ∈ (before ++ after).filter fun d => d.namesReplicaSet rs := by
      rw [hsplit]
      simp
    rw [List.mem_filter, List.mem_append] at hx
    have hlength := h.longest x (by simp; tauto) ⟨hkind, rs, hname, hx.2⟩
    exact ⟨d, by simp, by simpa [longer] using hlength⟩

theorem Longest.perm (hperm : deployments'.Perm deployments) (h : Longest deployments' pod d) :
    Longest deployments pod d :=
  ⟨hperm.mem_iff.mp h.mem, h.owns, fun d' hd' => h.longest d' (hperm.mem_iff.mpr hd')⟩

theorem mem_inNamespace :
    d ∈ inNamespace pod deployments ↔ d ∈ deployments ∧ d.nameSpace = pod.nameSpace := by
  simp [inNamespace]

/-! ### The bundles -/

/-- Which pods get a bundle depends on their signature alone. -/
theorem gatherAll_eq_filterMap : gatherAll pods events deployments =
    (troubled pods).filterMap fun pod =>
      gatherEvidence pod events (deploymentFor pod deployments) := by
  rw [troubled, List.filterMap_filter]
  refine List.filterMap_congr fun pod _ => ?_
  cases hsignature : detectSignature pod <;> simp [gatherEvidence, hsignature]

theorem gatherEvidence_isSome (hpod : pod ∈ troubled pods) (events : List KubeEvent)
    (deployment : Option Deployment) : (gatherEvidence pod events deployment).isSome := by
  simpa [gatherEvidence] using (List.mem_filter.mp hpod).2

theorem forall₂_gatherAll_iff {R : Pod → EvidenceBundle → Prop} :
    List.Forall₂ R (troubled pods) (gatherAll pods events deployments) ↔
      ∀ pod ∈ troubled pods, ∀ bundle,
        gatherEvidence pod events (deploymentFor pod deployments) = some bundle →
          R pod bundle := by
  have hkeep : (troubled pods).filter (fun pod =>
      (gatherEvidence pod events (deploymentFor pod deployments)).isSome) = troubled pods :=
    List.filter_eq_self.mpr fun pod hpod => gatherEvidence_isSome hpod events _
  rw [gatherAll_eq_filterMap, ← Pointwise.forall₂_filterMap_iff, hkeep]

/-- A bundle shows no more of the deployment than its summary. -/
theorem gatherEvidence_eq_iff (hpod : pod ∈ troubled pods) {found found' : Option Deployment} :
    gatherEvidence pod events found = gatherEvidence pod events found' ↔
      found.map Deployment.summary = found'.map Deployment.summary := by
  obtain ⟨signature, hsignature⟩ := Option.isSome_iff_exists.mp (List.mem_filter.mp hpod).2
  simp [gatherEvidence, hsignature]

theorem gatherAll_eq_iff :
    gatherAll pods events deployments' = gatherAll pods events deployments ↔
      ∀ pod ∈ troubled pods, (deploymentFor pod deployments').map Deployment.summary =
        (deploymentFor pod deployments).map Deployment.summary := by
  constructor
  · intro heq pod hpod
    have hall : List.Forall₂ (fun pod bundle => gatherEvidence pod events
        (deploymentFor pod deployments) = some bundle) (troubled pods)
          (gatherAll pods events deployments) :=
      forall₂_gatherAll_iff.mpr fun _ _ _ h => h
    rw [← heq, forall₂_gatherAll_iff] at hall
    obtain ⟨bundle, hbundle⟩ := Option.isSome_iff_exists.mp
      (gatherEvidence_isSome hpod events (deploymentFor pod deployments'))
    exact (gatherEvidence_eq_iff hpod).mp (hbundle.trans (hall pod hpod bundle hbundle).symm)
  · intro hall
    rw [gatherAll_eq_filterMap, gatherAll_eq_filterMap]
    exact List.filterMap_congr fun pod hpod => (gatherEvidence_eq_iff hpod).mpr (hall pod hpod)

/-- What a bundle carries besides the summary is the pod's own. -/
theorem ofNamespace_iff {bundle : EvidenceBundle} {found : Option Deployment}
    (h : gatherEvidence pod events found = some bundle) :
    OfNamespace events deployments pod bundle ↔
      (∀ d, found = some d →
        ∃ own, Longest (inNamespace pod deployments) pod own ∧ own.summary = d.summary) ∧
      (found = none → ∀ d ∈ inNamespace pod deployments, ¬ Owns d pod) := by
  obtain ⟨signature, -, rfl⟩ := Option.map_eq_some_iff.mp h
  constructor
  · intro hof
    refine ⟨fun d hd => hof.summary d.summary ?_, fun hnone => hof.absent ?_⟩
    · rw [hd, Option.map_some]
    · rw [hnone, Option.map_none]
  · rintro ⟨hsome, hnone⟩
    refine ⟨rfl, rfl, fun text htext => ?_, fun s hs => ?_, fun habsent => ?_⟩
    · obtain ⟨event, hevent, rfl⟩ := List.mem_map.mp htext
      rw [List.mem_filter, Bool.and_eq_true, Bool.and_eq_true, beq_iff_eq] at hevent
      exact ⟨event, hevent.1, hevent.2.1.1, rfl⟩
    · obtain ⟨d, hd, rfl⟩ := Option.map_eq_some_iff.mp hs
      exact hsome d hd
    · exact hnone (Option.map_eq_none_iff.mp habsent)

/-- Where no other order shows another bundle, all of the longest have the same summary. -/
theorem summary_of_order (hpod : pod ∈ troubled pods)
    (horder : ∀ deployments', deployments'.Perm deployments →
      gatherAll pods events deployments' = gatherAll pods events deployments)
    (hd : Longest deployments pod d) :
    (deploymentFor pod deployments).map Deployment.summary = some d.summary := by
  obtain ⟨deployments', hperm, hfound⟩ := exists_perm_deploymentFor hd
  have heq := gatherAll_eq_iff.mp (horder deployments' hperm) pod hpod
  rw [← heq, hfound, Option.map_some]

/-- Where all of the longest have the same summary, the order does not matter. -/
theorem summary_of_noLonger (hpod : NoLongerElsewhere deployments pod)
    (hperm : deployments'.Perm deployments) :
    (deploymentFor pod deployments').map Deployment.summary =
      (deploymentFor pod deployments).map Deployment.summary := by
  cases hfound : deploymentFor pod deployments with
  | none =>
      have hnone : deploymentFor pod deployments' = none := deploymentFor_eq_none_iff.mpr
        fun d hd => deploymentFor_eq_none_iff.mp hfound d (hperm.mem_iff.mp hd)
      rw [hnone]
  | some d =>
      have hd := longest_of_deploymentFor hfound
      cases hfound' : deploymentFor pod deployments' with
      | none =>
          exact absurd hd.owns
            (deploymentFor_eq_none_iff.mp hfound' d (hperm.mem_iff.mpr hd.mem))
      | some d' =>
          have hd' := (longest_of_deploymentFor hfound').perm hperm
          rw [Option.map_some, Option.map_some, (hpod d hd).2 d' hd']

/-- Gathering stays in the pods' namespaces, whatever the order of the deployments, exactly
where no deployment of another namespace fits better, or as well with other counts. -/
theorem gatherAll_stays_iff (pods : List Pod) (events : List KubeEvent)
    (deployments : List Deployment) :
    StaysInNamespace pods events deployments ↔
      ∀ pod ∈ troubled pods, NoLongerElsewhere deployments pod := by
  constructor
  · intro hstays pod hpod d hd
    obtain ⟨found, hfound, hsummary⟩ :=
      Option.map_eq_some_iff.mp (summary_of_order hpod hstays.order hd)
    obtain ⟨bundle, hbundle⟩ := Option.isSome_iff_exists.mp
      (gatherEvidence_isSome hpod events (deploymentFor pod deployments))
    have hof := forall₂_gatherAll_iff.mp hstays.bundles pod hpod bundle hbundle
    obtain ⟨own, hown, heq⟩ := ((ofNamespace_iff hbundle).mp hof).1 found hfound
    have hmem := mem_inNamespace.mp hown.mem
    have hname : own.name = d.name := congrArg DeploymentSummary.name (heq.trans hsummary)
    refine ⟨⟨own, ⟨hmem.1, hown.owns, fun d' hd' howns => ?_⟩, hmem.2⟩, fun d' hd' => ?_⟩
    · rw [hname]
      exact hd.longest d' hd' howns
    · have hsame := summary_of_order hpod hstays.order hd'
      rw [hfound, Option.map_some, hsummary] at hsame
      exact (Option.some.inj hsame).symm
  · intro hall
    refine ⟨forall₂_gatherAll_iff.mpr fun pod hpod bundle hbundle => ?_,
      fun _ hperm => gatherAll_eq_iff.mpr fun pod hpod =>
        summary_of_noLonger (hall pod hpod) hperm⟩
    refine (ofNamespace_iff hbundle).mpr ⟨fun d hd => ?_, fun hnone d hd => ?_⟩
    · obtain ⟨⟨own, hown, hns⟩, hsame⟩ := hall pod hpod d (longest_of_deploymentFor hd)
      refine ⟨own, ⟨mem_inNamespace.mpr ⟨hown.mem, hns⟩, hown.owns, fun d' hd' => ?_⟩,
        hsame own hown⟩
      exact hown.longest d' (mem_inNamespace.mp hd').1
    · exact deploymentFor_eq_none_iff.mp hnone d (mem_inNamespace.mp hd).1

/-- A crash-looping pod in prod, of the ReplicaSet `api-7d9f`. -/
def crashing : Pod where
  nameSpace := "prod"
  name := "api-7d9f-x2x"
  phase := "Running"
  ownerKind := some "ReplicaSet"
  ownerName := some "api-7d9f"
  containers := [⟨"api", 7, false, some "CrashLoopBackOff", none⟩]

/-- The same workload in two namespaces. -/
def apiTwice : List Deployment := [⟨"prod", "api", 3, 2, 2⟩, ⟨"staging", "api", 1, 1, 1⟩]

/-- The bundle of the pod in prod carries the counts of staging. -/
theorem crashing_staging : (gatherAll [crashing] [] apiTwice).map EvidenceBundle.deployment =
      [some ⟨"api", 1, 1, 1⟩] ∧ ¬ StaysInNamespace [crashing] [] apiTwice := by
  have hcounts : (gatherAll [crashing] [] apiTwice).map EvidenceBundle.deployment =
      [some ⟨"api", 1, 1, 1⟩] := by rfl
  refine ⟨hcounts, fun hstays => ?_⟩
  have hbundle : gatherEvidence crashing [] (deploymentFor crashing apiTwice) =
      gatherEvidence crashing [] (some ⟨"staging", "api", 1, 1, 1⟩) := by rfl
  have hcrashing : crashing ∈ troubled [crashing] := List.mem_filter.mpr ⟨.head _, rfl⟩
  have hof := forall₂_gatherAll_iff.mp hstays.bundles crashing hcrashing _ hbundle
  obtain ⟨own, hown, hsummary⟩ := ((ofNamespace_iff hbundle).mp hof).1 _ rfl
  have hmem : own ∈ [(⟨"prod", "api", 3, 2, 2⟩ : Deployment)] := hown.mem
  obtain rfl := List.mem_singleton.mp hmem
  exact absurd hsummary (by decide)

end Argus.Kubernetes
