import Argus.Executor.Privileged
import Argus.Lib.Paths
import Mathlib.Data.List.DropRight

/-!
# The freeze files of cgroups

A cgroup is named by its path below the mount root. The guardrails refuse a path that is empty,
absolute, or has an empty or a `..` component, and one that is a protected path, character by
character. The controller joins the path to the root, and the file system goes where the components
lead; and there `.` stays in the directory.

`guards_iff` says when an accepted path is one of a cgroup below the root that is not protected.
-/

namespace Argus

open Paths (Directory components resolve walk spell IsName)

/-! ### The controller -/

/-- A cgroup path is relative to the mount root, not empty, and free of traversal. -/
def validateCgroupPath (path : String) : Except RemediationError Unit :=
  if path.toList = [] then .error (.failed "cgroup path is empty")
  else if path.toList.head? = some '/' then
    .error (.failed "cgroup path must be relative to the mount root")
  else if (components path.toList).any fun component =>
      component = [] || component = ['.', '.'] then
    .error (.failed ("cgroup path '" ++ path ++ "' contains an empty or '..' component"))
  else .ok ()

structure CgroupV2Controller where
  root : String

namespace CgroupV2Controller

/-- The root without its final slashes. -/
def trimmedRoot (controller : CgroupV2Controller) : List Char :=
  controller.root.toList.rdropWhile (· = '/')

def trimRoot (controller : CgroupV2Controller) (path : String) : String :=
  let root := controller.trimmedRoot
  let path := path.toList.dropWhile (· = '/')
  if path = [] then .ofList root else .ofList (root ++ '/' :: path)

/-- The freeze file of a cgroup. -/
def freezeFile (controller : CgroupV2Controller) (path : String) :
    Except RemediationError String := do
  validateCgroupPath path
  pure (controller.trimRoot path ++ "/cgroup.freeze")

end CgroupV2Controller

/-! ### The guardrails -/

/-- Refuses any target on a denylist. -/
def neverTarget (denied : List String) : Guardrail := fun target =>
  if target ∈ denied then .error ("'" ++ target ++ "' is a protected remediation target")
  else .ok ()

/-- Refuses cgroup paths that are not safe relative subtrees. -/
def validCgroupPath : Guardrail := fun target =>
  match validateCgroupPath target with
  | .ok () => .ok ()
  | .error error => .error error.display

theorem CapabilityId.hostCgroupThaw_valid : isDottedPath CapabilityId.hostCgroupThaw = true := by
  decide

def cgroupCapabilities : List CapabilityId :=
  [⟨CapabilityId.hostCgroupFreeze, CapabilityId.hostCgroupFreeze_valid⟩,
    ⟨CapabilityId.hostCgroupThaw, CapabilityId.hostCgroupThaw_valid⟩]

/-- The guardrails wired for freezing and thawing. -/
def cgroupGuardrails (protectedCgroups : List String) : GuardrailRegistry :=
  cgroupCapabilities.foldl
    (fun registry id =>
      (registry.register id validCgroupPath).register id (neverTarget protectedCgroups))
    ⟨[]⟩

variable {capability : CapabilityId} {protectedCgroups : List String} {path : String}

theorem predicates_cgroupGuardrails (h : capability ∈ cgroupCapabilities) :
    (cgroupGuardrails protectedCgroups).predicates capability =
      [validCgroupPath, neverTarget protectedCgroups] := by
  have hregistered : (cgroupGuardrails protectedCgroups).registered =
      cgroupCapabilities.flatMap fun id =>
        [(id, validCgroupPath), (id, neverTarget protectedCgroups)] := rfl
  simp only [GuardrailRegistry.predicates, hregistered]
  simp only [cgroupCapabilities, List.mem_cons, List.not_mem_nil, or_false] at h
  rcases h with rfl | rfl <;>
    simp [cgroupCapabilities, CapabilityId.hostCgroupFreeze, CapabilityId.hostCgroupThaw]

/-- The path passes the guardrails. -/
theorem check_cgroupGuardrails_iff (h : capability ∈ cgroupCapabilities) :
    (cgroupGuardrails protectedCgroups).check capability path = .ok () ↔
      validateCgroupPath path = .ok () ∧ path ∉ protectedCgroups := by
  simp only [GuardrailRegistry.check, predicates_cgroupGuardrails h, GuardrailRegistry.checkEach,
    validCgroupPath, neverTarget]
  cases validateCgroupPath path with
  | error error => simp
  | ok =>
      by_cases hdenied : path ∈ protectedCgroups <;> simp [hdenied]

/-! ### Where the freeze files are -/

namespace CgroupV2Controller

variable {controller : CgroupV2Controller} {cwd : Directory}

/-- The directory of the mount root. -/
def mountRoot (cwd : Directory) (controller : CgroupV2Controller) : List (List Char) :=
  resolve cwd (controller.trimmedRoot ++ ['/'])

/-- The name of a freeze file. -/
def freezeName : List Char := "cgroup.freeze".toList

theorem components_freezeName : components freezeName = [freezeName] :=
  List.splitOn_eq_singleton (by decide)

theorem isName_freezeName : IsName freezeName := by
  constructor <;> decide

/-- Slashes in front lead nowhere. -/
theorem walk_dropWhile {dir : List (List Char)} (path : List Char) :
    walk dir (components (path.dropWhile (· = '/'))) = walk dir (components path) := by
  induction path with
  | nil => rfl
  | cons c path ih =>
      by_cases hslash : c = '/'
      · subst hslash
        have hcomponents : components ('/' :: path) = [] :: components path :=
          @Paths.components_append_slash [] path
        rw [List.dropWhile_cons_of_pos (by simp), ih, hcomponents, Paths.walk_cons,
          Paths.enter_nil]
      · rw [List.dropWhile_cons_of_neg (by simpa using hslash)]

/-- A path that is joined to the root, and the freeze file there. -/
theorem resolve_trimRoot : resolve cwd (controller.trimRoot path ++ "/cgroup.freeze").toList =
    walk (mountRoot cwd controller) (components path.toList) ++ [freezeName] := by
  have hfile : (controller.trimRoot path ++ "/cgroup.freeze").toList =
      (controller.trimRoot path).toList ++ '/' :: freezeName := String.toList_append
  have hdir : resolve cwd ((controller.trimRoot path).toList ++ ['/']) =
      walk (mountRoot cwd controller) (components path.toList) := by
    rw [← walk_dropWhile, trimRoot]
    -- a path of slashes only is not joined, and names the root
    split_ifs with hempty
    · rw [String.toList_ofList, hempty]
      rfl
    · rw [String.toList_ofList, List.append_assoc, List.cons_append, Paths.resolve_append_slash,
        Paths.components_append_slash, Paths.walk_append]
      rfl
  rw [hfile, Paths.resolve_append_slash, hdir, components_freezeName, Paths.walk_cons,
    Paths.enter_isName isName_freezeName, Paths.walk_nil]

end CgroupV2Controller

/-! ### Spellings -/

/-- What a path names, without the components that stay. -/
def namesOf (path : String) : List (List Char) := (components path.toList).filter (· ≠ ['.'])

/-- The cgroup path, spelled without the components that stay. -/
def canonical (path : String) : String := .ofList (spell (namesOf path))

/-- The canonical spelling of the cgroup that a path names, if it is one below the root. -/
def spelledFrom (root : List (List Char)) (path : String) : Option String :=
  let dir := walk root (components path.toList)
  if root <+: dir then some (.ofList (spell (dir.drop root.length))) else none

theorem validateCgroupPath_iff : validateCgroupPath path = .ok () ↔
    path.toList ≠ [] ∧ path.toList.head? ≠ some '/' ∧
      ∀ name ∈ components path.toList, name ≠ [] ∧ name ≠ ['.', '.'] := by
  unfold validateCgroupPath
  split_ifs with hempty hslash hany
  · simp [hempty]
  · simp [hslash]
  · rw [false_iff]
    intro h
    obtain ⟨-, -, hall⟩ := h
    obtain ⟨name, hname, hbad⟩ := List.any_eq_true.mp hany
    have hgood := hall name hname
    simp_all
  · simp only [true_iff]
    refine ⟨hempty, hslash, fun name hname => ?_⟩
    by_contra hbad
    refine hany (List.any_eq_true.mpr ⟨name, hname, ?_⟩)
    simpa [or_iff_not_imp_left] using hbad

theorem isName_namesOf (h : validateCgroupPath path = .ok ()) :
    ∀ name ∈ namesOf path, IsName name := by
  intro name hname
  obtain ⟨hmem, hdot⟩ := List.mem_filter.mp hname
  obtain ⟨hne, hdots⟩ := (validateCgroupPath_iff.mp h).2.2 name hmem
  exact ⟨hne, by simpa using hdot, hdots, Paths.slash_not_mem hmem⟩

/-- The canonical spelling is a cgroup path, unless the path names the root. -/
theorem validateCgroupPath_canonical (h : validateCgroupPath path = .ok ()) :
    validateCgroupPath (canonical path) = .ok () ↔ namesOf path ≠ [] := by
  have hnames := isName_namesOf h
  rw [validateCgroupPath_iff, canonical, String.toList_ofList, Ne,
    Paths.spell_eq_nil_iff hnames]
  refine ⟨And.left, fun hne => ?_⟩
  have hcomponents := Paths.components_spell (fun name hname => (hnames name hname).no_slash) hne
  have hall : ∀ name ∈ components (spell (namesOf path)), name ≠ [] ∧ name ≠ ['.', '.'] := by
    rw [hcomponents]
    exact fun name hname => ⟨(hnames name hname).nonempty, (hnames name hname).ne_dots⟩
  refine ⟨hne, fun hslash => ?_, hall⟩
  -- a slash in front would make the first component empty
  obtain ⟨rest, hrest⟩ := List.head?_eq_some_iff.mp hslash
  rw [hrest, show '/' :: rest = [] ++ '/' :: rest from rfl, Paths.components_append_slash] at hall
  exact (hall [] (List.mem_append_left _ (List.mem_singleton_self []))).1 rfl

/-! ### What the guardrails keep -/

open CgroupV2Controller (mountRoot freezeName)

/-- The freeze file is that of a cgroup below the root, and of none that is protected. -/
structure Contained (cwd : Directory) (controller : CgroupV2Controller)
    (protectedCgroups : List String) (file : String) : Prop where
  below : ∃ names, names ≠ [] ∧
    resolve cwd file.toList = mountRoot cwd controller ++ names ++ [freezeName]
  unprotected : ∀ other ∈ protectedCgroups, resolve cwd file.toList ≠
    resolve cwd (controller.trimRoot other ++ "/cgroup.freeze").toList

/-- Every path that passes the guardrails has such a freeze file. -/
def Guards (cwd : Directory) (controller : CgroupV2Controller) (protectedCgroups : List String)
    (path : String) : Prop :=
  ∀ capability ∈ cgroupCapabilities,
    (cgroupGuardrails protectedCgroups).check capability path = .ok () →
      ∃ file, controller.freezeFile path = .ok file ∧
        Contained cwd controller protectedCgroups file

variable {cwd : Directory} {controller : CgroupV2Controller}

/-- The freeze file of a path that passes. -/
theorem freezeFile_eq (h : validateCgroupPath path = .ok ()) :
    controller.freezeFile path = .ok (controller.trimRoot path ++ "/cgroup.freeze") := by
  rw [CgroupV2Controller.freezeFile, h]
  rfl

theorem resolve_freezeFile (h : validateCgroupPath path = .ok ()) :
    resolve cwd (controller.trimRoot path ++ "/cgroup.freeze").toList =
      mountRoot cwd controller ++ namesOf path ++ [freezeName] := by
  rw [CgroupV2Controller.resolve_trimRoot,
    Paths.walk_down (validateCgroupPath_iff.mp h).2.2]
  rfl

/-- A protected path has the same freeze file, if it is the canonical spelling that is the same. -/
theorem resolve_eq_iff (h : validateCgroupPath path = .ok ()) (other : String) :
    resolve cwd (controller.trimRoot path ++ "/cgroup.freeze").toList =
        resolve cwd (controller.trimRoot other ++ "/cgroup.freeze").toList ↔
      spelledFrom (mountRoot cwd controller) other = some (canonical path) := by
  rw [resolve_freezeFile h, CgroupV2Controller.resolve_trimRoot, List.append_cancel_right_eq]
  have hdir : ∀ name ∈ walk (mountRoot cwd controller) (components other.toList), IsName name :=
    Paths.isName_walk (fun _ => Paths.slash_not_mem) Paths.isName_resolve
  unfold spelledFrom
  constructor
  · intro heq
    rw [← heq, if_pos (List.prefix_append _ _), List.drop_left, canonical]
  · intro heq
    dsimp only at heq
    split_ifs at heq with hbelow
    obtain ⟨names, hnames⟩ := hbelow
    rw [← hnames, List.drop_left, Option.some.injEq, canonical, String.ofList_inj] at heq
    rw [← hnames] at hdir ⊢
    rw [Paths.spell_injective (fun name hname => hdir name (List.mem_append_right _ hname))
      (isName_namesOf h) heq]

/-- What passes the guardrails is contained, exactly if its canonical spelling passes too, with the
protected paths in theirs. -/
theorem guards_iff (cwd : Directory) (controller : CgroupV2Controller)
    (protectedCgroups : List String) (path : String) :
    Guards cwd controller protectedCgroups path ↔
      ∀ capability ∈ cgroupCapabilities,
        (cgroupGuardrails protectedCgroups).check capability path = .ok () →
        (cgroupGuardrails (protectedCgroups.filterMap
            (spelledFrom (mountRoot cwd controller)))).check capability (canonical path) =
          .ok () := by
  refine forall₃_congr fun capability hcapability hcheck => ?_
  -- the two parts of containment are the two guardrails of the canonical spelling
  have hvalid := ((check_cgroupGuardrails_iff hcapability).mp hcheck).1
  rw [check_cgroupGuardrails_iff hcapability, validateCgroupPath_canonical hvalid]
  constructor
  · intro h
    obtain ⟨file, hfile, hbelow, hunprotected⟩ := h
    rw [freezeFile_eq hvalid, Except.ok.injEq] at hfile
    subst hfile
    refine ⟨?_, fun hmem => ?_⟩
    · obtain ⟨names, hne, hnames⟩ := hbelow
      rw [resolve_freezeFile hvalid, List.append_cancel_right_eq,
        List.append_cancel_left_eq] at hnames
      rwa [hnames]
    · obtain ⟨other, hother, hspelled⟩ := List.mem_filterMap.mp hmem
      exact hunprotected other hother ((resolve_eq_iff hvalid other).mpr hspelled)
  · intro h
    obtain ⟨hne, hunprotected⟩ := h
    refine ⟨_, freezeFile_eq hvalid, ⟨namesOf path, hne, resolve_freezeFile hvalid⟩, ?_⟩
    intro other hother heq
    exact hunprotected
      (List.mem_filterMap.mpr ⟨other, hother, (resolve_eq_iff hvalid other).mp heq⟩)

/-- The root of the file system. -/
def fileRoot : Directory := ⟨[], fun _ hname => absurd hname List.not_mem_nil⟩

/-- The controller as the daemon has it. -/
def unifiedHierarchy : CgroupV2Controller := ⟨"/sys/fs/cgroup"⟩

/-- A dot in front makes a protected cgroup another text, and a dot alone names the root. -/
theorem not_guards :
    ¬ Guards fileRoot unifiedHierarchy ["system.slice"] "./system.slice" ∧
      ¬ Guards fileRoot unifiedHierarchy ["system.slice"] "." := by
  constructor
  · intro h
    obtain ⟨file, hfile, hcontained⟩ := h _ List.mem_cons_self (by decide)
    cases hfile
    exact hcontained.unprotected "system.slice" List.mem_cons_self (by decide)
  · intro h
    obtain ⟨file, hfile, ⟨names, hne, hnames⟩, -⟩ := h _ List.mem_cons_self (by decide)
    cases hfile
    have hlength := congrArg List.length hnames
    have hfile : (resolve fileRoot
        (unifiedHierarchy.trimRoot "." ++ "/cgroup.freeze").toList).length = 4 := by decide
    have hroot : (mountRoot fileRoot unifiedHierarchy).length = 3 := by decide
    rw [hfile, List.length_append, List.length_append, hroot, List.length_singleton] at hlength
    exact hne (List.length_eq_zero_iff.mp (by omega))

end Argus
