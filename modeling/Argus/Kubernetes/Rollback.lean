import Argus.Domain.Authorization
import Argus.Kubernetes.MergePatch
import Argus.Lib.Interaction
import Argus.Lib.Selection

/-!
# Rolling a deployment back

The rollback reads the deployment and the ReplicaSets of its namespace, takes the ReplicaSet of
the requested revision (or the previous one) among those that the deployment owns, and sends its
pod template as a strategic merge patch. A merge keeps what the patch does not have, so a field
that the bad revision added stays.

The API server is a store of documents by path. It may refuse any request.
-/

namespace Argus.Kubernetes

open Interaction Prog
open Selection (Picked)
open Value (Same NoExtraKey mergePatch)

/-! ### The bridge -/

/-- One request to the API server. -/
inductive ApiRequest
  | get (path : String)
  | patch (path contentType : String) (body : Value)

/-- A document, or the text of the client's error. -/
@[reducible] def ApiReply (_ : ApiRequest) : Type := Except String Value

abbrev ApiM := Prog ApiReply

def deploymentPath (nameSpace name : String) : String :=
  s!"/apis/apps/v1/namespaces/{nameSpace}/deployments/{name}"

def replicaSetsPath (nameSpace : String) : String :=
  s!"/apis/apps/v1/namespaces/{nameSpace}/replicasets"

def strategicMerge : String := "application/strategic-merge-patch+json"

/-- `run`: the client's error becomes the controller's. -/
def run (what : String) (reply : Except String Value) : Except RemediationError Value :=
  reply.mapError fun e => .failed s!"{what} failed: {e}"

/-- `Value::as_array`. -/
def asArray : Value → Option (List Value)
  | .array items => some items
  | _ => none

/-- The digits of a number, of which there must be one at least. -/
def readDigits : List Char → Option Nat
  | [] => none
  | digits =>
      digits.foldlM (fun n c => if c.isDigit then some (n * 10 + (c.toNat - 48)) else none) 0

/-- `str::parse::<i64>`. -/
def parseI64 (text : String) : Option Int :=
  let number : Option Int :=
    match text.toList with
    | '-' :: digits => (readDigits digits).map fun n => -(n : Int)
    | '+' :: digits => (readDigits digits).map fun n => (n : Int)
    | digits => (readDigits digits).map fun n => (n : Int)
  number.filter fun n => decide (-2 ^ 63 ≤ n ∧ n < 2 ^ 63)

def ownerUid (deployment : Value) : Except RemediationError String :=
  match ((deployment.get "metadata").bind (Value.get "uid")).bind Value.asStr with
  | some uid => .ok uid
  | none => .error (.failed "deployment has no uid to correlate revisions")

/-- One of the ReplicaSet's owner references has the uid. -/
def isOwned (uid : String) (rs : Value) : Bool :=
  (((rs.get "metadata").bind (Value.get "ownerReferences")).bind asArray).any fun refs =>
    refs.any fun r => (r.get "uid").bind Value.asStr == some uid

/-- The revision in the ReplicaSet's annotation, if it is a number. -/
def revisionOf (rs : Value) : Option Int :=
  ((((rs.get "metadata").bind (Value.get "annotations")).bind
    (Value.get "deployment.kubernetes.io/revision")).bind Value.asStr).bind parseI64

/-- The loop over the listed ReplicaSets. -/
def revisionsOf (uid : String) (list : Value) : List (Int × Value) :=
  (((list.get "items").bind asArray).getD []).filterMap fun rs =>
    if isOwned uid rs then (revisionOf rs).map fun revision => (revision, rs) else none

/-- The order of `Reverse(revision)`. -/
def newer (a b : Int × Value) : Prop := b.1 ≤ a.1

instance : DecidableRel newer := fun a b => inferInstanceAs (Decidable (b.1 ≤ a.1))

instance : IsTrans (Int × Value) newer := ⟨fun _ _ _ hab hbc => le_trans hbc hab⟩

instance : Std.Total newer := ⟨fun a b => le_total b.1 a.1⟩

/-- The ReplicaSet to roll back to, from the revisions sorted by a stable sort. -/
def target (revision : Option Int) (revisions : List (Int × Value)) : Option Value :=
  let sorted := revisions.insertionSort newer
  match revision with
  | some wanted => (sorted.find? fun e => e.1 == wanted).map Prod.snd
  | none => sorted[1]?.map Prod.snd

def templateOf (v : Value) : Option Value := (v.get "spec").bind (Value.get "template")

def rollbackTemplate (nameSpace name : String) (revision : Option Int)
    (revisions : List (Int × Value)) : Except RemediationError Value :=
  match target revision revisions with
  | none =>
      .error (.unavailable s!"no revision to roll back to for deployment {nameSpace}/{name}")
  | some rs =>
      match templateOf rs with
      | none => .error (.failed "revision's ReplicaSet carries no pod template")
      | some template => .ok template

def rollbackBody (template : Value) : Value :=
  .object [("spec", .object [("template", template)])]

/-- The `?` operator. -/
def attempt {α β : Type} (result : Except RemediationError α)
    (next : α → ApiM (Except RemediationError β)) : ApiM (Except RemediationError β) :=
  match result with
  | .error e => pure (.error e)
  | .ok a => next a

def rollbackDeployment (nameSpace name : String) (revision : Option Int) :
    ApiM (Except RemediationError Unit) := do
  let reply ← call (.get (deploymentPath nameSpace name))
  attempt (run "deployment get" reply) fun deployment =>
    attempt (ownerUid deployment) fun uid => do
      let reply ← call (.get (replicaSetsPath nameSpace))
      attempt (run "replicaset list" reply) fun list =>
        attempt (rollbackTemplate nameSpace name revision (revisionsOf uid list))
          fun template => do
            let reply ← call (.patch (deploymentPath nameSpace name) strategicMerge
              (rollbackBody template))
            attempt (run "deployment rollback" reply) fun _ => pure (.ok ())

/-! ### The API server -/

/-- The documents by path. -/
abbrev ApiServer := String → Value

/-- The server answers as asked, or with the error it refuses the request with. -/
def answer (refusal : ApiRequest → Option String) (request : ApiRequest) (server : ApiServer) :
    ApiReply request × ApiServer :=
  match refusal request with
  | some e => (.error e, server)
  | none =>
      match request with
      | .get path => (.ok (server path), server)
      | .patch path contentType body =>
          if contentType = strategicMerge then
            let patched := mergePatch (server path) body
            (.ok patched, Function.update server path patched)
          else (.error "unsupported media type", server)

/-- The server refuses none of the three requests. -/
structure Accepts (refusal : ApiRequest → Option String) (nameSpace name : String)
    (template : Value) : Prop where
  deployment : refusal (.get (deploymentPath nameSpace name)) = none
  replicaSets : refusal (.get (replicaSetsPath nameSpace)) = none
  rollback : refusal (.patch (deploymentPath nameSpace name) strategicMerge
    (rollbackBody template)) = none

/-! ### What a rollback should do -/

/-- `r` is the highest revision but one. -/
def SecondHighest (revisions : List (Int × Value)) (r : Int) : Prop :=
  ∃ top ∈ revisions, r < top.1 ∧ ∀ e ∈ revisions, e.1 = top.1 ∨ e.1 ≤ r

/-- The ReplicaSet that was used is the deployment's, has the right revision, and its pod
template is the deployment's now. -/
structure Restored (revision : Option Int) (before list after : Value) (uid : String)
    (used : Value) : Prop where
  uid_eq : ownerUid before = .ok uid
  used_eq : target revision (revisionsOf uid list) = some used
  owned : isOwned uid used
  revision_eq : ∃ r, revisionOf used = some r ∧ (∀ wanted, revision = some wanted → r = wanted) ∧
    (revision = none → SecondHighest (revisionsOf uid list) r)
  template_eq : ∃ template restored, templateOf used = some template ∧
    templateOf after = some restored ∧ Same restored template

/-- A rollback that succeeds restores the revision. -/
def RollbackRestores (refusal : ApiRequest → Option String) (server : ApiServer)
    (nameSpace name : String) (revision : Option Int) : Prop :=
  ∀ after, exec (answer refusal) (rollbackDeployment nameSpace name revision) server =
    (.ok (), after) →
      ∃ uid used, Restored revision (server (deploymentPath nameSpace name))
        (server (replicaSetsPath nameSpace)) (after (deploymentPath nameSpace name)) uid used

/-- The first listed with the requested revision; without a request, the second by revision,
where of equal ones the first listed comes first. -/
def Taken (revisions : List (Int × Value)) : Option Int → Int × Value → Prop
  | some wanted, e => revisions.find? (fun x => x.1 == wanted) = some e
  | none, e => ∃ top rest rest', Picked newer revisions top rest ∧ Picked newer rest e rest'

/-- Where a rollback goes through: without a request, what it takes is below the highest
revision, and the deployment's template has no key that the template it takes has not. -/
def Restorable (refusal : ApiRequest → Option String) (server : ApiServer)
    (nameSpace name : String) (revision : Option Int) : Prop :=
  ∀ uid e template, ownerUid (server (deploymentPath nameSpace name)) = .ok uid →
    Taken (revisionsOf uid (server (replicaSetsPath nameSpace))) revision e →
      templateOf e.2 = some template → Accepts refusal nameSpace name template →
        (revision = none →
          ∃ top ∈ revisionsOf uid (server (replicaSetsPath nameSpace)), e.1 < top.1) ∧
        ∀ old, templateOf (server (deploymentPath nameSpace name)) = some old →
          NoExtraKey old template

variable {refusal : ApiRequest → Option String} {server after : ApiServer}
  {nameSpace name uid : String} {revision : Option Int} {revisions : List (Int × Value)}
  {rs list old template : Value} {e : Int × Value} {r : Int}

/-! ### The ReplicaSet that is taken -/

theorem mem_revisionsOf : e ∈ revisionsOf uid list ↔
    e.2 ∈ ((list.get "items").bind asArray).getD [] ∧ isOwned uid e.2 ∧
      revisionOf e.2 = some e.1 := by
  obtain ⟨r, rs⟩ := e
  simp only [revisionsOf, List.mem_filterMap, Option.ite_none_right_eq_some, Option.map_eq_some_iff,
    Prod.mk.injEq]
  constructor
  · intro h
    obtain ⟨rs, hrs, howned, r, hr, rfl, rfl⟩ := h
    exact ⟨hrs, howned, hr⟩
  · intro h
    obtain ⟨hrs, howned, hr⟩ := h
    exact ⟨rs, hrs, howned, r, hr, rfl, rfl⟩

theorem target_eq_some_iff : target revision revisions = some rs ↔
    ∃ e, Taken revisions revision e ∧ e.2 = rs := by
  cases revision with
  | some wanted =>
      have hfind : (revisions.insertionSort newer).find? (fun e => e.1 == wanted) =
          revisions.find? fun e => e.1 == wanted := by
        refine Selection.find?_insertionSort (fun a b ha hb => ?_) revisions
        show b.1 ≤ a.1
        rw [beq_iff_eq.mp ha, beq_iff_eq.mp hb]
      simp only [target, hfind, Option.map_eq_some_iff, Taken]
  | none =>
      have hsecond : ∀ e, (revisions.insertionSort newer)[1]? = some e ↔
          Taken revisions none e := by
        intro e
        constructor
        · intro h
          obtain ⟨top, second, s, hsorted⟩ : ∃ top second s,
              revisions.insertionSort newer = top :: second :: s := by
            rcases hs : revisions.insertionSort newer with - | ⟨top, - | ⟨second, s⟩⟩ <;>
              simp_all
          obtain rfl : second = e := by simpa [hsorted] using h
          obtain ⟨rest, hpicked, hrest⟩ := Selection.insertionSort_eq_cons_iff.mp hsorted
          obtain ⟨rest', hpicked', -⟩ := Selection.insertionSort_eq_cons_iff.mp hrest
          exact ⟨top, rest, rest', hpicked, hpicked'⟩
        · rintro ⟨top, rest, rest', hpicked, hpicked'⟩
          rw [hpicked.insertionSort_eq, hpicked'.insertionSort_eq]
          rfl
      simp only [target, Option.map_eq_some_iff, hsecond]

theorem Taken.mem (h : Taken revisions revision e) : e ∈ revisions := by
  cases revision with
  | some wanted => exact List.mem_of_find?_eq_some h
  | none =>
      obtain ⟨top, rest, rest', hpicked, hpicked'⟩ := h
      have he : e ∈ rest := hpicked'.perm.mem_iff.mpr (.head _)
      exact hpicked.perm.mem_iff.mpr (.tail _ he)

theorem Taken.requested {wanted : Int} (h : Taken revisions (some wanted) e) : e.1 = wanted :=
  beq_iff_eq.mp (List.find?_some (p := fun x : Int × Value => x.1 == wanted) h)

/-- What is taken has the second highest revision as soon as some revision is above it. -/
theorem Taken.secondHighest (h : Taken revisions none e) (habove : ∃ top ∈ revisions, e.1 < top.1) :
    SecondHighest revisions e.1 := by
  obtain ⟨top, rest, rest', hpicked, hpicked'⟩ := h
  have hrest : ∀ x ∈ rest, x.1 ≤ e.1 := by
    intro x hx
    rcases List.mem_cons.mp (hpicked'.perm.mem_iff.mp hx) with rfl | hx
    · exact le_rfl
    · exact hpicked'.rel hx
  obtain ⟨above, hmem, hlt⟩ := habove
  rcases List.mem_cons.mp (hpicked.perm.mem_iff.mp hmem) with rfl | hmem'
  · refine ⟨above, hmem, hlt, fun x hx => ?_⟩
    rcases List.mem_cons.mp (hpicked.perm.mem_iff.mp hx) with rfl | hx
    · exact .inl rfl
    · exact .inr (hrest x hx)
  · exact absurd hlt (not_lt.mpr (hrest above hmem'))

/-! ### The patch -/

/-- The template after the patch is the old one with the new one merged into it. -/
theorem templateOf_mergePatch : templateOf (mergePatch old (rollbackBody template)) =
    some (((templateOf old).map fun before => mergePatch before template).getD template) := by
  simp only [templateOf, rollbackBody, Value.get_mergePatch, lookup_cons_ite, if_true,
    Option.bind_some]
  cases hspec : old.get "spec" with
  | none => rfl
  | some spec =>
      simp only [Option.map_some, Option.getD_some, Option.bind_some, Value.get_mergePatch,
        lookup_cons_ite, if_true]

theorem templateOf_rolledBack {path : String} :
    templateOf (Function.update server path
      (mergePatch (server path) (rollbackBody template)) path) =
        some (((templateOf (server path)).map fun before =>
          mergePatch before template).getD template) := by
  rw [Function.update_self, templateOf_mergePatch]

theorem rollbackTemplate_eq_ok_iff :
    rollbackTemplate nameSpace name revision revisions = .ok template ↔
      ∃ rs, target revision revisions = some rs ∧ templateOf rs = some template := by
  unfold rollbackTemplate
  cases htarget : target revision revisions with
  | none => simp
  | some rs => cases htemplate : templateOf rs <;> simp [htemplate]

/-! ### A run against the server -/

section Exec

variable {α β : Type} {next : α → ApiM (Except RemediationError β)}
  {afterRead : Value → ApiM (Except RemediationError β)} {b : β} {what path : String}

theorem exec_attempt_ok_iff {result : Except RemediationError α} :
    exec (answer refusal) (attempt result next) server = (.ok b, after) ↔
      ∃ a, result = .ok a ∧ exec (answer refusal) (next a) server = (.ok b, after) := by
  cases result with
  | error e =>
      refine iff_of_false (fun h => ?_) (by simp)
      cases h
  | ok a => simp [attempt]

theorem exec_get_ok_iff :
    exec (answer refusal)
        (call (.get path) >>= fun reply => attempt (run what reply) afterRead) server =
          (.ok b, after) ↔
      refusal (.get path) = none ∧
        exec (answer refusal) (afterRead (server path)) server = (.ok b, after) := by
  rw [exec_call_bind, exec_attempt_ok_iff]
  cases hrefusal : refusal (.get path) <;> simp [answer, hrefusal, run, Except.mapError]

theorem exec_patch_ok_iff {body : Value} :
    exec (answer refusal) (call (.patch path strategicMerge body) >>= fun reply =>
        attempt (run what reply) afterRead) server = (.ok b, after) ↔
      refusal (.patch path strategicMerge body) = none ∧
        exec (answer refusal) (afterRead (mergePatch (server path) body))
          (Function.update server path (mergePatch (server path) body)) = (.ok b, after) := by
  rw [exec_call_bind]
  cases hrefusal : refusal (.patch path strategicMerge body) with
  | none => simp [answer, hrefusal, run, Except.mapError, attempt]
  | some text =>
      refine iff_of_false (fun h => ?_) (by simp)
      simp only [answer, hrefusal] at h
      cases h

end Exec

/-- A rollback succeeds where nothing is refused and there is a template to roll back to, and
changes the deployment alone. -/
theorem exec_rollbackDeployment_ok_iff :
    exec (answer refusal) (rollbackDeployment nameSpace name revision) server =
        (.ok (), after) ↔
      ∃ uid rs template, ownerUid (server (deploymentPath nameSpace name)) = .ok uid ∧
        target revision (revisionsOf uid (server (replicaSetsPath nameSpace))) = some rs ∧
        templateOf rs = some template ∧ Accepts refusal nameSpace name template ∧
        after = Function.update server (deploymentPath nameSpace name)
          (mergePatch (server (deploymentPath nameSpace name)) (rollbackBody template)) := by
  simp only [rollbackDeployment, exec_get_ok_iff, exec_attempt_ok_iff, exec_patch_ok_iff,
    rollbackTemplate_eq_ok_iff]
  constructor
  · intro h
    obtain ⟨hget, uid, huid, hlist, template, ⟨rs, htarget, htemplate⟩, hpatch, hafter⟩ := h
    obtain ⟨-, rfl⟩ := Prod.mk.inj hafter
    exact ⟨uid, rs, template, huid, htarget, htemplate, ⟨hget, hlist, hpatch⟩, rfl⟩
  · intro h
    obtain ⟨uid, rs, template, huid, htarget, htemplate, haccepts, rfl⟩ := h
    exact ⟨haccepts.deployment, uid, huid, haccepts.replicaSets, template,
      ⟨rs, htarget, htemplate⟩, haccepts.rollback, rfl⟩

/-- A rollback that succeeds restores the revision exactly where the old template has no key that
the new one lacks and, without a request, the highest revision is not that of two
ReplicaSets. -/
theorem rollbackRestores_iff (refusal : ApiRequest → Option String) (server : ApiServer)
    (nameSpace name : String) (revision : Option Int) :
    RollbackRestores refusal server nameSpace name revision ↔
      Restorable refusal server nameSpace name revision := by
  constructor
  · intro hrestores uid e template huid htaken htemplate haccepts
    have htarget := target_eq_some_iff.mpr ⟨e, htaken, rfl⟩
    obtain ⟨uid', used, hrestored⟩ := hrestores _ (exec_rollbackDeployment_ok_iff.mpr
      ⟨uid, e.2, template, huid, htarget, htemplate, haccepts, rfl⟩)
    obtain rfl : uid = uid' := Except.ok.inj (huid.symm.trans hrestored.uid_eq)
    obtain rfl : e.2 = used := Option.some.inj (htarget.symm.trans hrestored.used_eq)
    refine ⟨fun hnone => ?_, fun old hold => ?_⟩
    · obtain ⟨r, hr, -, hsecond⟩ := hrestored.revision_eq
      obtain rfl : e.1 = r :=
        Option.some.inj ((mem_revisionsOf.mp htaken.mem).2.2.symm.trans hr)
      obtain ⟨top, htop, hlt, -⟩ := hsecond hnone
      exact ⟨top, htop, hlt⟩
    · obtain ⟨template', restored, htemplate', hafter, hsame⟩ := hrestored.template_eq
      obtain rfl : template = template' := Option.some.inj (htemplate.symm.trans htemplate')
      rw [templateOf_rolledBack, hold, Option.map_some, Option.getD_some] at hafter
      obtain rfl := Option.some.inj hafter
      exact (Value.same_mergePatch_iff old template).mp hsame
  · intro hrestorable after hexec
    obtain ⟨uid, used, template, huid, htarget, htemplate, haccepts, rfl⟩ :=
      exec_rollbackDeployment_ok_iff.mp hexec
    obtain ⟨e, htaken, rfl⟩ := target_eq_some_iff.mp htarget
    obtain ⟨habove, hnoextra⟩ := hrestorable uid e template huid htaken htemplate haccepts
    obtain ⟨-, howned, hr⟩ := mem_revisionsOf.mp htaken.mem
    refine ⟨uid, e.2, huid, htarget, howned, ⟨e.1, hr, ?_, ?_⟩,
      template, _, htemplate, templateOf_rolledBack, ?_⟩
    · rintro wanted rfl
      exact htaken.requested
    · rintro rfl
      exact htaken.secondHighest (habove rfl)
    · cases hold : templateOf (server (deploymentPath nameSpace name)) with
      | none => exact .refl template
      | some old => exact (Value.same_mergePatch_iff old template).mpr (hnoextra old hold)

/-! ### A field that stays -/

/-- A ReplicaSet of the deployment with uid `u`. -/
def replicaSet (revision : String) (template : Value) : Value :=
  .object
    [("metadata", .object
      [("ownerReferences", .array [.object [("uid", .string "u")]]),
        ("annotations", .object [("deployment.kubernetes.io/revision", .string revision)])]),
      ("spec", .object [("template", template)])]

/-- The template before the bad revision. -/
def goodTemplate : Value := .object [("image", .string "api:1")]

/-- The bad revision is on another image, and on the host's network. -/
def badTemplate : Value := .object [("image", .string "api:2"), ("hostNetwork", .bool true)]

/-- The deployment at the bad revision, and its two ReplicaSets. -/
def badRollout : ApiServer := fun path =>
  if path = deploymentPath "prod" "api" then
    .object [("metadata", .object [("uid", .string "u")]),
      ("spec", .object [("template", badTemplate)])]
  else .object [("items", .array [replicaSet "1" goodTemplate, replicaSet "2" badTemplate])]

theorem ownerUid_badRollout : ownerUid (badRollout (deploymentPath "prod" "api")) = .ok "u" := by
  rw [badRollout, if_pos rfl]
  rfl

theorem templateOf_badRollout :
    templateOf (badRollout (deploymentPath "prod" "api")) = some badTemplate := by
  rw [badRollout, if_pos rfl]
  rfl

theorem target_badRollout : target none (revisionsOf "u" (badRollout (replicaSetsPath "prod"))) =
    some (replicaSet "1" goodTemplate) := by
  rw [badRollout, if_neg (by decide)]
  rfl

/-- The rollback succeeds, and the deployment stays on the host's network. -/
theorem badRollout_keepsHostNetwork :
    ∃ after, exec (answer fun _ => none) (rollbackDeployment "prod" "api" none) badRollout =
        (.ok (), after) ∧
      templateOf (after (deploymentPath "prod" "api")) =
        some (.object [("image", .string "api:1"), ("hostNetwork", .bool true)]) ∧
      ¬ RollbackRestores (fun _ => none) badRollout "prod" "api" none := by
  have hexec := exec_rollbackDeployment_ok_iff.mpr ⟨"u", replicaSet "1" goodTemplate, goodTemplate,
    ownerUid_badRollout, target_badRollout, rfl,
    (⟨rfl, rfl, rfl⟩ : Accepts (fun _ => none) "prod" "api" goodTemplate), rfl⟩
  have hmerged : templateOf (Function.update badRollout (deploymentPath "prod" "api")
      (mergePatch (badRollout (deploymentPath "prod" "api")) (rollbackBody goodTemplate))
        (deploymentPath "prod" "api")) = some (mergePatch badTemplate goodTemplate) := by
    rw [templateOf_rolledBack, templateOf_badRollout, Option.map_some, Option.getD_some]
  refine ⟨_, hexec, hmerged, fun hrestores => ?_⟩
  obtain ⟨uid, used, hrestored⟩ := hrestores _ hexec
  obtain rfl : "u" = uid := Except.ok.inj (ownerUid_badRollout.symm.trans hrestored.uid_eq)
  obtain rfl := Option.some.inj (target_badRollout.symm.trans hrestored.used_eq)
  obtain ⟨template, restored, htemplate, hafter, hsame⟩ := hrestored.template_eq
  obtain rfl : goodTemplate = template := Option.some.inj htemplate
  obtain rfl := Option.some.inj (hmerged.symm.trans hafter)
  have hkeys := ((Value.same_mergePatch_iff badTemplate goodTemplate).mp hsame) [] _ _ rfl rfl
  exact absurd (hkeys "hostNetwork" rfl) (by decide)

end Argus.Kubernetes
