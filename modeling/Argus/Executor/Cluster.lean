import Argus.Executor.Privileged

/-!
# The Kubernetes executor

Every cluster effect is one call of the controller, with the namespace and the name that the
arguments name. The guardrails see the two joined by a slash, and take the text apart again at
every slash; an effect on a node is checked against the guardrails of its capability, of which
there are none.

`valid_iff_plainTarget` says for which arguments each component that reaches the controller is a
name on its own.
-/

namespace Argus

open Interaction Prog

/-! ### The controller -/

/-- One call of the cluster controller. -/
inductive ClusterCall
  | restartPod (nameSpace name : String)
  | deletePod (nameSpace name : String)
  | restartDeployment (nameSpace name : String)
  | rollbackDeployment (nameSpace name : String) (revision : Option Int)
  | scaleWorkload (nameSpace name : String) (replicas : Int)
  | setNodeSchedulable (name : String) (schedulable : Bool)
  | cleanupJob (nameSpace name : String)
  | read (resource : String) (nameSpace name : Option String)
  deriving DecidableEq

/-- What the controller answers. The value of an effect is `null`. -/
@[reducible] def ClusterReply (_ : ClusterCall) : Type := Except RemediationError Value

/-- A program over the cluster controller. -/
abbrev ClusterM := Prog ClusterReply

/-! ### The guardrails -/

/-- Refuses a `namespace/name` target whose namespace is on the protected list. -/
def protectedNamespaces (protectedList : List String) : Guardrail := fun target =>
  let nameSpace := String.ofList ((target.toList.splitOn '/').headD [])
  if protectedList.contains nameSpace then
    .error ("namespace '" ++ nameSpace ++ "' is protected from kubernetes remediation")
  else .ok ()

def maxK8sNameLen : Nat := 253

def isK8sNameChar (c : Char) : Bool := c.isLower || c.isDigit || c == '-' || c == '.'

/-- The first or the last character is a separator. -/
def hasEdgeSeparator (part : List Char) : Bool :=
  part.head? == some '-' || part.getLast? == some '-' || part.head? == some '.' ||
    part.getLast? == some '.'

/-- One component of a target, checked. -/
def checkK8sName (part : List Char) : Except String Unit :=
  let text := String.ofList part
  if text.isEmpty || maxK8sNameLen < text.utf8ByteSize then
    .error ("'" ++ text ++ "' is not a valid kubernetes name")
  else if !part.all isK8sNameChar then
    .error ("'" ++ text ++ "' contains characters outside [a-z0-9.-]")
  else if hasEdgeSeparator part then
    .error ("'" ++ text ++ "' has a leading or trailing separator")
  else .ok ()

/-- Validates the components of a target, up to the first that is not valid. -/
def checkK8sNames : List (List Char) → Except String Unit
  | [] => .ok ()
  | part :: parts =>
      match checkK8sName part with
      | .ok () => checkK8sNames parts
      | .error reason => .error reason

def validK8sName : Guardrail := fun target => checkK8sNames (target.toList.splitOn '/')

namespace CapabilityId

theorem k8sPodRestart_valid : isDottedPath k8sPodRestart = true := by decide

theorem k8sPodDelete_valid : isDottedPath k8sPodDelete = true := by decide

theorem k8sDeploymentRestart_valid : isDottedPath k8sDeploymentRestart = true := by decide

theorem k8sDeploymentRollback_valid : isDottedPath k8sDeploymentRollback = true := by decide

theorem k8sWorkloadScale_valid : isDottedPath k8sWorkloadScale = true := by decide

theorem k8sJobCleanup_valid : isDottedPath k8sJobCleanup = true := by decide

theorem k8sNodeCordon_valid : isDottedPath k8sNodeCordon = true := by decide

/-- The pod effects, which the list of protected namespaces is registered for. -/
def podEffects : List CapabilityId :=
  [⟨k8sPodRestart, k8sPodRestart_valid⟩, ⟨k8sPodDelete, k8sPodDelete_valid⟩]

/-- The effects on objects of a namespace, which the check of names is registered for. -/
def namespacedEffects : List CapabilityId :=
  [⟨k8sPodRestart, k8sPodRestart_valid⟩, ⟨k8sPodDelete, k8sPodDelete_valid⟩,
    ⟨k8sDeploymentRestart, k8sDeploymentRestart_valid⟩,
    ⟨k8sDeploymentRollback, k8sDeploymentRollback_valid⟩,
    ⟨k8sWorkloadScale, k8sWorkloadScale_valid⟩, ⟨k8sJobCleanup, k8sJobCleanup_valid⟩]

end CapabilityId

/-- The guardrails wired for the Kubernetes capabilities. -/
def kubernetesGuardrails (protectedList : List String) : GuardrailRegistry :=
  let registry := CapabilityId.podEffects.foldl
    (fun registry id => registry.register id (protectedNamespaces protectedList)) ⟨[]⟩
  CapabilityId.namespacedEffects.foldl
    (fun registry id => registry.register id validK8sName) registry

/-! ### The executor -/

/-- What a capability has the executor do. -/
inductive KubernetesOp
  | podRestart
  | podDelete
  | deploymentRestart
  | deploymentRollback
  | workloadScale
  | nodeCordon
  | nodeUncordon
  | jobCleanup
  | clusterRead
  | nodeRead
  | podRead
  | deploymentRead
  deriving DecidableEq

namespace KubernetesOp

/-- The identifier of the capability. -/
def path : KubernetesOp → String
  | podRestart => CapabilityId.k8sPodRestart
  | podDelete => CapabilityId.k8sPodDelete
  | deploymentRestart => CapabilityId.k8sDeploymentRestart
  | deploymentRollback => CapabilityId.k8sDeploymentRollback
  | workloadScale => CapabilityId.k8sWorkloadScale
  | nodeCordon => CapabilityId.k8sNodeCordon
  | nodeUncordon => CapabilityId.k8sNodeUncordon
  | jobCleanup => CapabilityId.k8sJobCleanup
  | clusterRead => CapabilityId.k8sClusterRead
  | nodeRead => CapabilityId.k8sNodeRead
  | podRead => CapabilityId.k8sPodRead
  | deploymentRead => CapabilityId.k8sDeploymentRead

def all : List KubernetesOp :=
  [podRestart, podDelete, deploymentRestart, deploymentRollback, workloadScale, nodeCordon,
    nodeUncordon, jobCleanup, clusterRead, nodeRead, podRead, deploymentRead]

/-- The operation a capability names, if it names one. -/
def of (capability : CapabilityId) : Option KubernetesOp :=
  all.find? fun op => op.path == capability.asStr

/-- `read_resource`. -/
def resource : KubernetesOp → String
  | clusterRead => "cluster"
  | nodeRead => "nodes"
  | podRead => "pods"
  | deploymentRead => "deployments"
  | _ => "unknown"

/-- An effect, and no read. -/
def isEffect : KubernetesOp → Bool
  | clusterRead | nodeRead | podRead | deploymentRead => false
  | _ => true

/-- An effect on a pod. -/
def onPod : KubernetesOp → Bool
  | podRestart | podDelete => true
  | _ => false

/-- An effect on a node. -/
def onNode : KubernetesOp → Bool
  | nodeCordon | nodeUncordon => true
  | _ => false

end KubernetesOp

/-- `Value::as_i64`. -/
def Value.asI64 : Value → Option Int
  | .number (.posInt n) => if n < 2 ^ 63 then some n else none
  | .number (.negInt n) => some n
  | _ => none

/-- An integer as a JSON number. -/
def Value.ofI64 (n : Int) : Value := .number (if 0 ≤ n then .posInt n.toNat else .negInt n)

/-- The namespace, which is `default` unless the arguments name one, and the name. -/
def namespaceName (arguments : Value) : Except ExecutionError (String × String) :=
  match arguments.getStr "name" with
  | some name => .ok ((arguments.getStr "namespace").getD "default", name)
  | none => .error (.failed "the request does not name a 'name'")

def replicasOf (arguments : Value) : Except ExecutionError Int :=
  match (arguments.get "replicas").bind Value.asI64 with
  | some replicas => .ok replicas
  | none => .error (.failed "the request does not name numeric 'replicas'")

/-- `MaxReplicas::check_replicas`. -/
def checkReplicas (maxReplicas replicas : Int) : Except ExecutionError Unit :=
  if 0 ≤ replicas ∧ replicas ≤ maxReplicas then .ok ()
  else .error (.failed ("replicas " ++ toString replicas ++ " is outside the quota bound 0..=" ++
    toString maxReplicas))

/-- The evidence of an effect on an object of a namespace. -/
def objectEvidence (nameSpace name operation : String) : Value :=
  .object [("name", .string name), ("namespace", .string nameSpace),
    ("operation", .string operation)]

variable (guardrails : GuardrailRegistry) (maxReplicas : Int)

/-- The call an execution comes to, and the evidence of its answer: what is checked first is the
target, and then the other arguments. -/
def prepareCall (op : KubernetesOp) (capability : CapabilityId) (arguments : Value)
    (nameSpace name : String) : Except ExecutionError (ClusterCall × (Value → Value)) := do
  let joined := nameSpace ++ "/" ++ name
  match op with
  | .podRestart =>
      guardrails.check capability joined
      return (.restartPod nameSpace name, fun _ => objectEvidence nameSpace name "restart")
  | .podDelete =>
      guardrails.check capability joined
      return (.deletePod nameSpace name, fun _ => objectEvidence nameSpace name "delete")
  | .deploymentRestart =>
      guardrails.check capability joined
      return (.restartDeployment nameSpace name,
        fun _ => objectEvidence nameSpace name "rollout-restart")
  | .deploymentRollback =>
      guardrails.check capability joined
      let revision := (arguments.get "revision").bind Value.asI64
      return (.rollbackDeployment nameSpace name revision, fun _ =>
        .object [("name", .string name), ("namespace", .string nameSpace),
          ("operation", .string "rollback"),
          ("revision", (revision.map Value.ofI64).getD .null)])
  | .workloadScale =>
      guardrails.check capability joined
      let replicas ← replicasOf arguments
      checkReplicas maxReplicas replicas
      return (.scaleWorkload nameSpace name replicas, fun _ =>
        .object [("name", .string name), ("namespace", .string nameSpace),
          ("replicas", .ofI64 replicas)])
  | .nodeCordon | .nodeUncordon =>
      guardrails.check capability name
      let schedulable := decide (op = .nodeUncordon)
      return (.setNodeSchedulable name schedulable, fun _ =>
        .object [("name", .string name), ("schedulable", .bool schedulable)])
  | .jobCleanup =>
      guardrails.check capability joined
      return (.cleanupJob nameSpace name, fun _ => objectEvidence nameSpace name "cleanup")
  | .clusterRead | .nodeRead | .podRead | .deploymentRead =>
      guardrails.check capability joined
      return (.read op.resource (some nameSpace) (arguments.getStr "name"), fun payload =>
        .object [("resource", .string op.resource), ("result", payload)])

/-- The call of an action. -/
def prepareAction (action : AuthorizedAction) :
    Except ExecutionError (ClusterCall × (Value → Value)) := do
  let (nameSpace, name) ← namespaceName action.request.arguments
  match KubernetesOp.of action.capability with
  | some op =>
      prepareCall guardrails maxReplicas op action.capability action.request.arguments nameSpace
        name
  | none => throw (.unsupported action.capability)

/-- Executes an action through the cluster controller. -/
def kubernetesExecute (action : AuthorizedAction) : ClusterM (Except ExecutionError Value) :=
  match prepareAction guardrails maxReplicas action with
  | .error error => pure (.error error)
  | .ok (call, evidence) => do
      match ← Prog.call call with
      | .ok answer => pure (.ok (evidence answer))
      | .error error => pure (.error (.failed error.display))

/-! ### What reaches the controller -/

namespace ClusterCall

/-- The namespace and the name of a call, as far as it has them. -/
def components : ClusterCall → List String
  | restartPod nameSpace name | deletePod nameSpace name | restartDeployment nameSpace name
  | rollbackDeployment nameSpace name _ | scaleWorkload nameSpace name _
  | cleanupJob nameSpace name => [nameSpace, name]
  | setNodeSchedulable name _ => [name]
  | read _ nameSpace name => nameSpace.toList ++ name.toList

def nameSpace? : ClusterCall → Option String
  | restartPod nameSpace _ | deletePod nameSpace _ | restartDeployment nameSpace _
  | rollbackDeployment nameSpace _ _ | scaleWorkload nameSpace _ _
  | cleanupJob nameSpace _ => some nameSpace
  | setNodeSchedulable _ _ => none
  | read _ nameSpace _ => nameSpace

end ClusterCall

/-- A name that is valid on its own. -/
structure K8sName (name : String) : Prop where
  nonempty : name ≠ ""
  length : name.utf8ByteSize ≤ maxK8sNameLen
  chars : ∀ c ∈ name.toList, isK8sNameChar c = true
  edges : hasEdgeSeparator name.toList = false

/-- Every component of the call is a name, and the namespace of a pod is not protected. -/
structure ValidTarget (protectedList : List String) (op : KubernetesOp) (call : ClusterCall) :
    Prop where
  names : ∀ component ∈ call.components, K8sName component
  unprotected : op.onPod = true → ∀ nameSpace ∈ call.nameSpace?, nameSpace ∉ protectedList

/-- The number of replicas is given and within the quota, where it is asked for. -/
def ReplicasPass (maxReplicas : Int) (op : KubernetesOp) (arguments : Value) : Prop :=
  op = .workloadScale → ∃ replicas, replicasOf arguments = .ok replicas ∧
    checkReplicas maxReplicas replicas = .ok ()

/-- The name of a node is a name. On any other object, a target and a number of replicas that pass
are of a namespace and a name without a slash. -/
def PlainTarget (protectedList : List String) (maxReplicas : Int) (op : KubernetesOp)
    (action : AuthorizedAction) : Prop :=
  ∀ nameSpace name, namespaceName action.request.arguments = .ok (nameSpace, name) →
    if op.onNode then K8sName name
    else
      (kubernetesGuardrails protectedList).check action.capability (nameSpace ++ "/" ++ name) =
          .ok () →
        ReplicasPass maxReplicas op action.request.arguments →
          '/' ∉ nameSpace.toList ∧ '/' ∉ name.toList

variable {guardrails : GuardrailRegistry} {maxReplicas : Int} {protectedList : List String}
  {op : KubernetesOp} {capability : CapabilityId} {arguments : Value} {nameSpace name : String}
  {action : AuthorizedAction}

/-! #### Names -/

theorem checkK8sName_eq_ok : checkK8sName name.toList = .ok () ↔ K8sName name := by
  unfold checkK8sName
  rw [String.ofList_toList]
  simp only
  split_ifs with hlength hchars hedges
  · refine iff_of_false (by simp) fun h => ?_
    have hempty : name.isEmpty = false := by simpa using h.nonempty
    simp [hempty, Nat.not_lt.mpr h.length] at hlength
  · refine iff_of_false (by simp) fun h => ?_
    rw [Bool.not_eq_true', List.all_eq_false] at hchars
    obtain ⟨c, hc, hbad⟩ := hchars
    exact hbad (h.chars c hc)
  · exact iff_of_false (by simp) fun h => by simp [h.edges] at hedges
  · refine iff_of_true rfl ⟨?_, ?_, ?_, by simpa using hedges⟩
    · rintro rfl
      exact hlength rfl
    · by_contra hlong
      exact hlength (by simp [Nat.not_le.mp hlong])
    · simpa using hchars

theorem K8sName.no_slash (h : K8sName name) : '/' ∉ name.toList := fun hmem =>
  absurd (h.chars _ hmem) (by decide)

theorem checkK8sNames_eq_ok {parts : List (List Char)} :
    checkK8sNames parts = .ok () ↔ ∀ part ∈ parts, checkK8sName part = .ok () := by
  induction parts with
  | nil => simp [checkK8sNames]
  | cons part parts ih =>
      rw [checkK8sNames, List.forall_mem_cons, ← ih]
      cases checkK8sName part with
      | ok _ => simp
      | error reason => simp

/-! #### The joined target -/

theorem checkEach_eq_ok_iff {target : String} {predicates : List Guardrail} :
    GuardrailRegistry.checkEach capability target predicates = .ok () ↔
      ∀ predicate ∈ predicates, predicate target = .ok () := by
  refine ⟨GuardrailRegistry.checkEach_eq_ok, fun h => ?_⟩
  induction predicates with
  | nil => rfl
  | cons predicate rest ih =>
      rw [List.forall_mem_cons] at h
      rw [GuardrailRegistry.checkEach, h.1]
      exact ih h.2

theorem asStr_of_op (hop : KubernetesOp.of capability = some op) : capability.asStr = op.path := by
  have hpath := List.find?_some hop
  exact (eq_of_beq hpath).symm

theorem mem_iff_asStr {ids : List CapabilityId} :
    capability ∈ ids ↔ capability.asStr ∈ ids.map CapabilityId.asStr := by
  refine ⟨List.mem_map_of_mem, fun h => ?_⟩
  obtain ⟨⟨path, valid⟩, hmem, hpath⟩ := List.mem_map.mp h
  obtain ⟨path', valid'⟩ := capability
  obtain rfl : path = path' := hpath
  exact hmem

/-- One predicate, registered for some capabilities. -/
theorem predicates_map {ids : List CapabilityId} (hids : ids.Nodup) (guardrail : Guardrail) :
    ((ids.map fun id => (id, guardrail)).filter fun entry => entry.1 = capability).map Prod.snd =
      if capability ∈ ids then [guardrail] else [] := by
  induction ids with
  | nil => rfl
  | cons id ids ih =>
      obtain ⟨hid, hids⟩ := List.nodup_cons.mp hids
      by_cases heq : id = capability
      · subst heq
        rw [if_neg hid] at ih
        simp [ih hids]
      · have hne : capability ≠ id := fun h => heq h.symm
        simpa [heq, hne] using ih hids

/-- What is registered for an effect. -/
theorem predicates_kubernetesGuardrails (hop : KubernetesOp.of capability = some op)
    (heffect : op.isEffect = true) (protectedList : List String) :
    (kubernetesGuardrails protectedList).predicates capability =
      (if op.onPod then [protectedNamespaces protectedList] else []) ++
        if op.onNode then [] else [validK8sName] := by
  have hregistered : (kubernetesGuardrails protectedList).registered =
      (CapabilityId.podEffects.map fun id => (id, protectedNamespaces protectedList)) ++
        CapabilityId.namespacedEffects.map fun id => (id, validK8sName) := rfl
  have hpod : ∀ op : KubernetesOp, op.isEffect = true →
      (op.path ∈ CapabilityId.podEffects.map CapabilityId.asStr ↔ op.onPod = true) := by
    rintro (_ | _ | _ | _ | _ | _ | _ | _ | _ | _ | _ | _) <;> decide
  have hnode : ∀ op : KubernetesOp, op.isEffect = true →
      (op.path ∈ CapabilityId.namespacedEffects.map CapabilityId.asStr ↔ ¬ op.onNode = true) := by
    rintro (_ | _ | _ | _ | _ | _ | _ | _ | _ | _ | _ | _) <;> decide
  rw [GuardrailRegistry.predicates, hregistered, List.filter_append, List.map_append,
    predicates_map (by decide), predicates_map (by decide)]
  simp only [mem_iff_asStr, asStr_of_op hop, hpod op heffect, hnode op heffect, ite_not]

theorem check_kubernetesGuardrails (hop : KubernetesOp.of capability = some op)
    (heffect : op.isEffect = true) {protectedList : List String} {target : String} :
    (kubernetesGuardrails protectedList).check capability target = .ok () ↔
      (op.onPod = true → protectedNamespaces protectedList target = .ok ()) ∧
        (op.onNode = false → validK8sName target = .ok ()) := by
  rw [GuardrailRegistry.check, checkEach_eq_ok_iff,
    predicates_kubernetesGuardrails hop heffect protectedList, List.forall_mem_append]
  refine and_congr ?_ ?_
  · cases op.onPod <;> simp
  · cases op.onNode <;> simp

theorem toList_joined : (nameSpace ++ "/" ++ name).toList =
    nameSpace.toList ++ '/' :: name.toList := by
  simp [String.toList_append]

/-- Without a slash in them, the components of a joined target are the two it was joined from. -/
theorem splitOn_joined (hspace : '/' ∉ nameSpace.toList) (hname : '/' ∉ name.toList) :
    (nameSpace ++ "/" ++ name).toList.splitOn '/' = [nameSpace.toList, name.toList] := by
  rw [toList_joined, List.splitOn_append_cons_self, List.splitOn_eq_singleton hspace,
    List.splitOn_eq_singleton hname]
  rfl

/-- Where a joined target passes, its components are names on their own, and the namespace is not
protected, exactly if there is no slash in them. -/
theorem plain_joined (hop : KubernetesOp.of capability = some op) (heffect : op.isEffect = true)
    (hnode : op.onNode = false) {protectedList : List String}
    (hcheck : (kubernetesGuardrails protectedList).check capability (nameSpace ++ "/" ++ name) =
      .ok ()) :
    ((∀ component ∈ [nameSpace, name], K8sName component) ∧
      (op.onPod = true → nameSpace ∉ protectedList)) ↔
        '/' ∉ nameSpace.toList ∧ '/' ∉ name.toList := by
  obtain ⟨hprotected, hnames⟩ := (check_kubernetesGuardrails hop heffect).mp hcheck
  constructor
  · intro h
    obtain ⟨hvalid, -⟩ := h
    exact ⟨(hvalid nameSpace (by simp)).no_slash, (hvalid name (by simp)).no_slash⟩
  · intro h
    obtain ⟨hspace, hname⟩ := h
    have hsplit := splitOn_joined hspace hname
    refine ⟨fun component hcomponent => ?_, fun hpod => ?_⟩
    · have hparts := hnames hnode
      rw [validK8sName, hsplit, checkK8sNames_eq_ok] at hparts
      refine checkK8sName_eq_ok.mp (hparts component.toList ?_)
      rcases List.mem_pair.mp hcomponent with rfl | rfl <;> simp
    · have hfirst := hprotected hpod
      rw [protectedNamespaces, hsplit] at hfirst
      simp only [List.headD_cons, String.ofList_toList] at hfirst
      split_ifs at hfirst with hlisted
      simpa using hlisted

/-! #### The call -/

/-- The call of an effect on an object of a namespace. -/
theorem prepareCall_joined {call : ClusterCall} {evidence : Value → Value}
    (heffect : op.isEffect = true) (hnode : op.onNode = false)
    (h : prepareCall guardrails maxReplicas op capability arguments nameSpace name =
      .ok (call, evidence)) :
    guardrails.check capability (nameSpace ++ "/" ++ name) = .ok () ∧
      ReplicasPass maxReplicas op arguments ∧ call.components = [nameSpace, name] ∧
        call.nameSpace? = some nameSpace := by
  unfold prepareCall at h
  cases op with
  | workloadScale =>
      dsimp only at h
      cases hcheck : guardrails.check capability (nameSpace ++ "/" ++ name) with
      | error error =>
          rw [hcheck] at h
          cases h
      | ok _ =>
          rw [hcheck] at h
          cases hreplicas : replicasOf arguments with
          | error error =>
              rw [hreplicas] at h
              cases h
          | ok replicas =>
              rw [hreplicas] at h
              change (_ <$> checkReplicas maxReplicas replicas) = _ at h
              cases hquota : checkReplicas maxReplicas replicas with
              | error error =>
                  rw [hquota] at h
                  cases h
              | ok _ =>
                  rw [hquota] at h
                  cases h
                  exact ⟨rfl, fun _ => ⟨replicas, hreplicas, hquota⟩, rfl, rfl⟩
  | nodeCordon | nodeUncordon => cases hnode
  | clusterRead | nodeRead | podRead | deploymentRead => cases heffect
  | _ =>
      dsimp only at h
      cases hcheck : guardrails.check capability (nameSpace ++ "/" ++ name) with
      | error error =>
          rw [hcheck] at h
          cases h
      | ok _ =>
          rw [hcheck] at h
          cases h
          exact ⟨rfl, nofun, rfl, rfl⟩

/-- A target and a number of replicas that pass come to a call. -/
theorem exists_prepareCall (heffect : op.isEffect = true) (hnode : op.onNode = false)
    (hcheck : guardrails.check capability (nameSpace ++ "/" ++ name) = .ok ())
    (hreplicas : ReplicasPass maxReplicas op arguments) :
    ∃ call evidence, prepareCall guardrails maxReplicas op capability arguments nameSpace name =
      .ok (call, evidence) := by
  unfold prepareCall
  cases op with
  | workloadScale =>
      obtain ⟨replicas, hgiven, hquota⟩ := hreplicas rfl
      dsimp only
      rw [hcheck, hgiven]
      show ∃ call evidence, (checkReplicas maxReplicas replicas >>= fun _ => .ok _) =
        .ok (call, evidence)
      rw [hquota]
      exact ⟨_, _, rfl⟩
  | nodeCordon | nodeUncordon => cases hnode
  | clusterRead | nodeRead | podRead | deploymentRead => cases heffect
  | _ =>
      dsimp only
      rw [hcheck]
      exact ⟨_, _, rfl⟩

/-- The call of an effect on a node: nothing is checked. -/
theorem prepareCall_node (hop : KubernetesOp.of capability = some op) (hnode : op.onNode = true)
    (protectedList : List String) :
    ∃ schedulable evidence,
      prepareCall (kubernetesGuardrails protectedList) maxReplicas op capability arguments
        nameSpace name = .ok (.setNodeSchedulable name schedulable, evidence) := by
  have heffect : op.isEffect = true := by
    cases op <;> first | rfl | cases hnode
  have hcheck : (kubernetesGuardrails protectedList).check capability name = .ok () := by
    refine (check_kubernetesGuardrails hop heffect).mpr ⟨fun hpod => ?_, fun hnot => ?_⟩
    · cases op <;> first | cases hnode; done | cases hpod
    · rw [hnode] at hnot
      cases hnot
  unfold prepareCall
  cases op with
  | nodeCordon | nodeUncordon =>
      dsimp only
      rw [hcheck]
      exact ⟨_, _, rfl⟩
  | _ => cases hnode

/-! #### Runs -/

/-- What every run calls the controller with is what was prepared. -/
theorem forall_runs_iff {P : ClusterCall → Prop} :
    (∀ t r, Runs (kubernetesExecute guardrails maxReplicas action) t r → ∀ e ∈ t, P e.op) ↔
      ∀ call evidence, prepareAction guardrails maxReplicas action = .ok (call, evidence) →
        P call := by
  unfold kubernetesExecute
  constructor
  · intro h call evidence hprepare
    rw [hprepare] at h
    exact h [⟨call, .error (.failed "")⟩] _
      (runs_call_bind.mpr ⟨.error (.failed ""), [], ⟨rfl, rfl⟩, rfl⟩) _ (List.mem_singleton_self _)
  · intro h t r hrun
    cases hprepare : prepareAction guardrails maxReplicas action with
    | error error =>
        rw [hprepare] at hrun
        obtain ⟨rfl, -⟩ := hrun
        simp
    | ok prepared =>
        obtain ⟨call, evidence⟩ := prepared
        rw [hprepare] at hrun
        obtain ⟨reply, t', hend, rfl⟩ := runs_call_bind.mp hrun
        have hcall := h call evidence hprepare
        cases reply with
        | ok answer =>
            obtain ⟨rfl, -⟩ := hend
            simpa using hcall
        | error error =>
            obtain ⟨rfl, -⟩ := hend
            simpa using hcall

/-- In every run the controller is called with names that are valid on their own, and with no pod of
a protected namespace, exactly if the arguments are plain. -/
theorem valid_iff_plainTarget (protectedList : List String) (maxReplicas : Int)
    (action : AuthorizedAction) (op : KubernetesOp)
    (hop : KubernetesOp.of action.capability = some op) (heffect : op.isEffect = true) :
    (∀ t r, Runs (kubernetesExecute (kubernetesGuardrails protectedList) maxReplicas action) t r →
      ∀ e ∈ t, ValidTarget protectedList op e.op) ↔
        PlainTarget protectedList maxReplicas op action := by
  rw [forall_runs_iff (P := ValidTarget protectedList op)]
  unfold PlainTarget prepareAction
  rw [hop]
  cases hnamed : namespaceName action.request.arguments with
  | error error => exact iff_of_true (fun call evidence h => by cases h) (fun _ _ h => by cases h)
  | ok named =>
      obtain ⟨nameSpace, name⟩ := named
      simp only [Except.ok.injEq, Prod.mk.injEq, and_imp, forall_eq', forall_apply_eq_imp_iff]
      show (∀ call evidence, prepareCall _ _ op action.capability _ nameSpace name =
        .ok (call, evidence) → _) ↔ _
      cases hnode : op.onNode with
      | true =>
          obtain ⟨schedulable, evidence, hcall⟩ : ∃ schedulable evidence,
              prepareCall (kubernetesGuardrails protectedList) maxReplicas op action.capability
                action.request.arguments nameSpace name =
                  .ok (.setNodeSchedulable name schedulable, evidence) :=
            prepareCall_node hop hnode protectedList
          rw [hcall]
          constructor
          · intro h
            exact (h _ _ rfl).names name (by simp [ClusterCall.components])
          · rintro hname call _ hsame
            obtain ⟨rfl, -⟩ := Prod.mk.inj (Except.ok.inj hsame)
            refine ⟨by simpa [ClusterCall.components] using hname, fun _ nameSpace h => by cases h⟩
      | false =>
          constructor
          · intro h hcheck hreplicas
            obtain ⟨call, evidence, hcall⟩ := exists_prepareCall heffect hnode hcheck hreplicas
            obtain ⟨-, -, hcomponents, hspace⟩ := prepareCall_joined heffect hnode hcall
            have hvalidated := h call evidence hcall
            refine (plain_joined hop heffect hnode hcheck).mp ⟨?_, fun hpod => ?_⟩
            · rw [← hcomponents]
              exact hvalidated.names
            · exact hvalidated.unprotected hpod nameSpace hspace
          · intro hplain call evidence hcall
            obtain ⟨hcheck, hreplicas, hcomponents, hspace⟩ :=
              prepareCall_joined heffect hnode hcall
            obtain ⟨hnames, hunprotected⟩ :=
              (plain_joined hop heffect hnode hcheck).mpr (hplain hcheck hreplicas)
            refine ⟨by rwa [hcomponents], fun hpod other hother => ?_⟩
            obtain rfl : nameSpace = other := Option.some.inj (hspace.symm.trans hother)
            exact hunprotected hpod

/-! #### A name, a path and a joined namespace -/

/-- An action of the installation, allowed. -/
def clusterAction (capability : CapabilityId) (arguments : Value) : AuthorizedAction :=
  ⟨⟨capability, .cloud, none, arguments, ⟨0, .cloud⟩⟩, .allow "test" "ok", rfl⟩

/-- The restart of a pod of `prod`. -/
def podOfProd : AuthorizedAction :=
  clusterAction ⟨CapabilityId.k8sPodRestart, CapabilityId.k8sPodRestart_valid⟩
    (.object [("name", .string "api-7d9f"), ("namespace", .string "prod")])

theorem valid_podOfProd :
    PlainTarget ["kube-system"] 10 .podRestart podOfProd ∧
      ∀ t r, Runs (kubernetesExecute (kubernetesGuardrails ["kube-system"]) 10 podOfProd) t r →
        ∀ e ∈ t, ValidTarget ["kube-system"] .podRestart e.op := by
  have hplain : PlainTarget ["kube-system"] 10 .podRestart podOfProd := by
    intro nameSpace name hnamed
    obtain ⟨rfl, rfl⟩ : "prod" = nameSpace ∧ "api-7d9f" = name :=
      Prod.mk.inj (Except.ok.inj hnamed)
    exact fun _ _ => by decide
  exact ⟨hplain,
    (valid_iff_plainTarget ["kube-system"] 10 podOfProd .podRestart rfl rfl).mpr hplain⟩

/-- The cordon of a node whose name is a path. -/
def cordonPath : AuthorizedAction :=
  clusterAction ⟨CapabilityId.k8sNodeCordon, CapabilityId.k8sNodeCordon_valid⟩
    (.object [("name", .string "../pods/api")])

/-- The deletion of a pod, whose namespace is two. -/
def podOfTwo : AuthorizedAction :=
  clusterAction ⟨CapabilityId.k8sPodDelete, CapabilityId.k8sPodDelete_valid⟩
    (.object [("name", .string "coredns"), ("namespace", .string "prod/kube-system")])

/-- **Neither is refused.** -/
theorem reach_unvalidated :
    (¬ ∀ t r, Runs (kubernetesExecute (kubernetesGuardrails ["kube-system"]) 10 cordonPath) t r →
      ∀ e ∈ t, ValidTarget ["kube-system"] .nodeCordon e.op) ∧
    ¬ ∀ t r, Runs (kubernetesExecute (kubernetesGuardrails ["kube-system"]) 10 podOfTwo) t r →
      ∀ e ∈ t, ValidTarget ["kube-system"] .podDelete e.op := by
  rw [forall_runs_iff (P := ValidTarget ["kube-system"] .nodeCordon),
    forall_runs_iff (P := ValidTarget ["kube-system"] .podDelete)]
  constructor
  · intro h
    have hname := (h (.setNodeSchedulable "../pods/api" false) _ rfl).names "../pods/api"
      List.mem_cons_self
    exact hname.no_slash (by decide)
  · intro h
    have hname := (h (.deletePod "prod/kube-system" "coredns") _ rfl).names "prod/kube-system"
      List.mem_cons_self
    exact hname.no_slash (by decide)

end Argus
