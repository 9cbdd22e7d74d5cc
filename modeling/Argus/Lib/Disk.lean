import Argus.Lib.CrashSafe
import Mathlib.Logic.Function.Basic

/-!
# Files that survive a crash

A disk has numbered files, and a directory that names them. What is written to a file is on the
medium once the file is synced; a change of the directory is there at some later time. So a crash
leaves the directory as it was at some point since the machine came up, and of a file that was not
synced it leaves anything.

`replace` is the usual way to put new data under a name all at once: it writes and syncs a temporary
file, and renames it over the name. `Holds.replace` says that this works: the names that are kept
hold whole values at every point, and a crash leaves each of them one of the values it has had.
-/

namespace Disk

open Interaction Prog

abbrev Bytes := List UInt8

inductive ErrorKind
  | notFound
  | alreadyExists
  | other
  deriving DecidableEq

structure IoError where
  kind : ErrorKind
  message : String

structure File where
  data : Bytes
  /-- All of the data is on the medium. -/
  synced : Bool
  mode : Nat

structure State (Path : Type) where
  files : Nat → File
  /-- The number of the next file. -/
  next : Nat
  dir : Path → Option Nat
  /-- What the directory was, back to the time that the machine came up. -/
  earlier : List (Path → Option Nat)

variable {Path : Type}

namespace State

def link (s : State Path) (dir : Path → Option Nat) : State Path :=
  { s with dir, earlier := s.dir :: s.earlier }

def put (s : State Path) (i : Nat) (file : File) : State Path :=
  { s with files := Function.update s.files i file }

theorem files_put (s : State Path) (i : Nat) (file : File) : (s.put i file).files i = file :=
  Function.update_self _ _ _

/-- What a directory has under a name. -/
def content (s : State Path) (dir : Path → Option Nat) (path : Path) : Option Bytes :=
  (dir path).map fun i => (s.files i).data

end State

/-! ### Calls -/

inductive Call (Path : Type)
  | createDirAll
  | removeFile (path : Path)
  | createNew (path : Path) (mode : Nat)
  | writeAll (file : Nat) (bytes : Bytes)
  | syncAll (file : Nat)
  | rename (source target : Path)
  | read (path : Path)

@[reducible] def Reply : Call Path → Type
  | .createNew .. => Except IoError Nat
  | .read _ => Except IoError Bytes
  | _ => Except IoError Unit

/-- What a call comes to. Any call may fail, and but for a write it then leaves the disk as it is;
only a missing file is reported as one that is not found. -/
def answers [DecidableEq Path] : Answers (@Reply Path) (State Path)
  | .createDirAll, s, _, s' => s' = s
  | .removeFile path, s, .ok _, s' =>
      s.dir path ≠ none ∧ s' = s.link (Function.update s.dir path none)
  | .removeFile path, s, .error e, s' => (e.kind = .notFound → s.dir path = none) ∧ s' = s
  | .createNew path mode, s, .ok i, s' =>
      s.dir path = none ∧ i = s.next ∧
        s' = ({ s with next := s.next + 1 }.put i ⟨[], false, mode⟩).link
          (Function.update s.dir path (some i))
  | .createNew .., s, .error _, s' => s' = s
  | .writeAll i bytes, s, .ok _, s' =>
      s' = s.put i { s.files i with data := (s.files i).data ++ bytes, synced := false }
  | .writeAll i bytes, s, .error _, s' =>
      ∃ part, part <+: bytes ∧
        s' = s.put i { s.files i with data := (s.files i).data ++ part, synced := false }
  | .syncAll i, s, .ok _, s' => s' = s.put i { s.files i with synced := true }
  | .syncAll _, s, .error _, s' => s' = s
  | .rename source target, s, .ok _, s' =>
      ∃ i, s.dir source = some i ∧
        s' = s.link (Function.update (Function.update s.dir target (some i)) source none)
  | .rename .., s, .error _, s' => s' = s
  | .read path, s, .ok data, s' => s.content s.dir path = some data ∧ s' = s
  | .read path, s, .error e, s' => (e.kind = .notFound → s.dir path = none) ∧ s' = s

def notFound : IoError := ⟨.notFound, "No such file or directory (os error 2)"⟩

/-- A disk on which no call fails that can succeed. -/
def serve [DecidableEq Path] : (op : Call Path) → State Path → Reply op × State Path
  | .createDirAll, s => (.ok (), s)
  | .removeFile path, s =>
      match s.dir path with
      | some _ => (.ok (), s.link (Function.update s.dir path none))
      | none => (.error notFound, s)
  | .createNew path mode, s =>
      match s.dir path with
      | some _ => (.error ⟨.alreadyExists, "File exists (os error 17)"⟩, s)
      | none =>
          (.ok s.next, ({ s with next := s.next + 1 }.put s.next ⟨[], false, mode⟩).link
            (Function.update s.dir path (some s.next)))
  | .writeAll i bytes, s =>
      (.ok (), s.put i { s.files i with data := (s.files i).data ++ bytes, synced := false })
  | .syncAll i, s => (.ok (), s.put i { s.files i with synced := true })
  | .rename source target, s =>
      match s.dir source with
      | some i =>
          (.ok (), s.link (Function.update (Function.update s.dir target (some i)) source none))
      | none => (.error notFound, s)
  | .read path, s =>
      match s.content s.dir path with
      | some data => (.ok data, s)
      | none => (.error notFound, s)

theorem serve_answers [DecidableEq Path] (op : Call Path) (s : State Path) :
    answers op s (serve op s).1 (serve op s).2 := by
  cases op with
  | createDirAll | writeAll | syncAll => rfl
  | removeFile path =>
      cases hpath : s.dir path with
      | some i =>
          simp only [serve, hpath]
          exact ⟨by rw [hpath]; nofun, rfl⟩
      | none =>
          simp only [serve, hpath]
          exact ⟨fun _ => hpath, rfl⟩
  | createNew path mode =>
      cases hpath : s.dir path with
      | some i =>
          simp only [serve, hpath]
          rfl
      | none =>
          simp only [serve, hpath]
          exact ⟨hpath, rfl, rfl⟩
  | rename source target =>
      cases hsource : s.dir source with
      | some i =>
          simp only [serve, hsource]
          exact ⟨i, hsource, rfl⟩
      | none =>
          simp only [serve, hsource]
          rfl
  | read path =>
      cases hpath : s.content s.dir path with
      | some data =>
          simp only [serve, hpath]
          exact ⟨hpath, rfl⟩
      | none =>
          simp only [serve, hpath]
          exact ⟨fun _ => Option.map_eq_none_iff.mp hpath, rfl⟩

/-- The machine goes down, and comes up again. -/
structure Crash (s s' : State Path) : Prop where
  dir : s'.dir ∈ s.dir :: s.earlier
  earlier : s'.earlier = []
  next : s'.next = s.next
  mode : ∀ i, (s'.files i).mode = (s.files i).mode
  synced : ∀ i, (s'.files i).synced = true
  data : ∀ i, (s.files i).synced = true → (s'.files i).data = (s.files i).data

/-! ### Slots -/

/-- What is under a name, and what has been since the machine came up. -/
structure Slot where
  current : Option Bytes
  older : List (Option Bytes)

def Slot.values (slot : Slot) : List (Option Bytes) := slot.current :: slot.older

abbrev Slots (Path : Type) := Path → Slot

def Slots.set [DecidableEq Path] (t : Slots Path) (path : Path) (value : Option Bytes) :
    Slots Path :=
  Function.update t path ⟨value, (t path).values⟩

/-- The names that are kept hold whole files of one mode, and what the slots say. -/
structure Holds (K : Path → Prop) (mode : Nat) (t : Slots Path) (s : State Path) : Prop where
  numbered : ∀ dir ∈ s.dir :: s.earlier, ∀ path i, dir path = some i → i < s.next
  whole : ∀ dir ∈ s.dir :: s.earlier, ∀ path, K path → ∀ i, dir path = some i →
    (s.files i).synced = true ∧ (s.files i).mode = mode
  current : ∀ path, K path → s.content s.dir path = (t path).current
  older : ∀ dir ∈ s.earlier, ∀ path, K path → s.content dir path ∈ (t path).values

section Holds

variable {K : Path → Prop} {mode : Nat} {t : Slots Path} {s s' : State Path} {path : Path}
  {dir : Path → Option Nat} {i : Nat} {file : File}

/-- A file that no kept name has ever had is of no concern. -/
theorem Holds.put (h : Holds K mode t s) (file : File)
    (hapart : ∀ dir ∈ s.dir :: s.earlier, ∀ path, K path → dir path ≠ some i) :
    Holds K mode t (s.put i file) := by
  have hfile {dir : Path → Option Nat} (hdir : dir ∈ s.dir :: s.earlier) {path : Path}
      (hpath : K path) {j : Nat} (hj : dir path = some j) :
      (s.put i file).files j = s.files j :=
    Function.update_of_ne (fun heq : j = i => hapart dir hdir path hpath (heq ▸ hj)) _ _
  have hcontent {dir : Path → Option Nat} (hdir : dir ∈ s.dir :: s.earlier) {path : Path}
      (hpath : K path) : (s.put i file).content dir path = s.content dir path := by
    unfold State.content
    cases hj : dir path with
    | none => rfl
    | some j => rw [Option.map_some, Option.map_some, hfile hdir hpath hj]
  refine ⟨h.numbered, fun dir hdir path hpath j hj => ?_, fun path hpath => ?_,
    fun dir hdir path hpath => ?_⟩
  · rw [hfile hdir hpath hj]
    exact h.whole dir hdir path hpath j hj
  · exact (hcontent List.mem_cons_self hpath).trans (h.current path hpath)
  · rw [hcontent (List.mem_cons_of_mem _ hdir) hpath]
    exact h.older dir hdir path hpath

theorem Holds.of_kept {t' : Slots Path} (h : Holds K mode t s)
    (hsame : ∀ path, K path → t' path = t path) : Holds K mode t' s := by
  refine ⟨h.numbered, h.whole, fun path hpath => ?_, fun dir hdir path hpath => ?_⟩
  · rw [hsame path hpath]
    exact h.current path hpath
  · rw [hsame path hpath]
    exact h.older dir hdir path hpath

theorem Holds.crash (h : Holds K mode t s) (hcrash : Crash s s') :
    ∃ t', (∀ path, K path → (t' path).current ∈ (t path).values ∧ (t' path).older = []) ∧
      Holds K mode t' s' := by
  have hdirs : s'.dir :: s'.earlier = [s'.dir] := by rw [hcrash.earlier]
  refine ⟨fun path => ⟨s'.content s'.dir path, []⟩, fun path hpath => ⟨?_, rfl⟩, ?_, ?_, ?_, ?_⟩
  · -- what was synced is as it was under the directory that is left
    have hcontent : s'.content s'.dir path = s.content s'.dir path := by
      unfold State.content
      cases hi : s'.dir path with
      | none => rfl
      | some i =>
          have hsynced := (h.whole s'.dir hcrash.dir path hpath i hi).1
          rw [Option.map_some, Option.map_some, hcrash.data i hsynced]
    change s'.content s'.dir path ∈ _
    rw [hcontent]
    rcases List.mem_cons.mp hcrash.dir with heq | hmem
    · rw [heq, h.current path hpath]
      exact List.mem_cons_self
    · exact h.older s'.dir hmem path hpath
  · intro dir hdir path i hi
    rw [hdirs, List.mem_singleton] at hdir
    subst hdir
    rw [hcrash.next]
    exact h.numbered s'.dir hcrash.dir path i hi
  · intro dir hdir path hpath i hi
    rw [hdirs, List.mem_singleton] at hdir
    subst hdir
    rw [hcrash.mode]
    exact ⟨hcrash.synced i, (h.whole s'.dir hcrash.dir path hpath i hi).2⟩
  · exact fun path _ => rfl
  · rw [hcrash.earlier]
    exact nofun

/-- A file under the temporary name, that no kept name has had. -/
structure Staged (K : Path → Prop) (mode : Nat) (t : Slots Path) (temporary : Path) (i : Nat)
    (s : State Path) : Prop where
  holds : Holds K mode t s
  dir : s.dir temporary = some i
  apart : ∀ dir ∈ s.dir :: s.earlier, ∀ path, K path → dir path ≠ some i
  mode : (s.files i).mode = mode

theorem Staged.put {temporary : Path} (h : Staged K mode t temporary i s) (data : Bytes)
    (synced : Bool) :
    Staged K mode t temporary i (s.put i { s.files i with data, synced }) := by
  refine ⟨h.holds.put _ h.apart, h.dir, h.apart, ?_⟩
  rw [State.files_put]
  exact h.mode

/-- The number of a new file is not under any name. -/
theorem Holds.ne_next (h : Holds K mode t s) :
    ∀ dir ∈ s.dir :: s.earlier, ∀ path, K path → dir path ≠ some s.next := by
  intro dir hdir path _ hi
  exact absurd (h.numbered dir hdir path s.next hi) (Nat.lt_irrefl _)

/-! ### Changes of the directory -/

variable [DecidableEq Path]

theorem Slots.set_of_ne {other : Path} {value : Option Bytes} (h : other ≠ path) :
    t.set path value other = t other := Function.update_of_ne h _ _

theorem Slots.set_self {value : Option Bytes} :
    t.set path value path = ⟨value, (t path).values⟩ := Function.update_self _ _ _

/-- The directory changes, at one kept name at the most. -/
theorem Holds.link (h : Holds K mode t s) (path : Path) (dir : Path → Option Nat)
    (hother : ∀ other, other ≠ path → K other → dir other = s.dir other)
    (hnumbered : ∀ path i, dir path = some i → i < s.next)
    (hwhole : K path → ∀ i, dir path = some i →
      (s.files i).synced = true ∧ (s.files i).mode = mode) :
    Holds K mode (t.set path (s.content dir path)) (s.link dir) := by
  refine ⟨fun d hd => ?_, fun d hd other hkept => ?_, fun other hkept => ?_,
    fun d hd other hkept => ?_⟩
  · rcases List.mem_cons.mp hd with rfl | hd
    · exact hnumbered
    · exact h.numbered d hd
  · rcases List.mem_cons.mp hd with rfl | hd
    · by_cases heq : other = path
      · subst heq
        exact hwhole hkept
      · intro j hj
        exact h.whole s.dir List.mem_cons_self other hkept j ((hother other heq hkept) ▸ hj)
    · exact h.whole d hd other hkept
  · by_cases heq : other = path
    · subst heq
      rw [Slots.set_self]
      rfl
    · rw [Slots.set_of_ne heq, ← h.current other hkept]
      exact congrArg (Option.map _) (hother other heq hkept)
  · have hvalues : s.content d other ∈ (t other).values := by
      rcases List.mem_cons.mp hd with rfl | hd
      · exact (h.current other hkept) ▸ List.mem_cons_self
      · exact h.older d hd other hkept
    change s.content d other ∈ _
    by_cases heq : other = path
    · subst heq
      rw [Slots.set_self]
      exact List.mem_cons_of_mem _ hvalues
    · rwa [Slots.set_of_ne heq]

/-- The directory changes at a name that is not kept. -/
theorem Holds.link_apart (h : Holds K mode t s) (hpath : ¬ K path)
    (hother : ∀ other, other ≠ path → dir other = s.dir other)
    (hnumbered : ∀ path i, dir path = some i → i < s.next) : Holds K mode t (s.link dir) := by
  have hlinked := h.link path dir (fun other hne _ => hother other hne) hnumbered
    fun hkept => absurd hkept hpath
  refine hlinked.of_kept fun other hkept => (Slots.set_of_ne fun heq => hpath ?_).symm
  exact heq ▸ hkept

/-! ### Replacing a file -/

/-- What a replacement was at when it failed. -/
inductive Stage
  | directory
  | file

def createDirAll : Prog (@Reply Path) (Except IoError Unit) := call Call.createDirAll

def removeFile (path : Path) : Prog (@Reply Path) (Except IoError Unit) :=
  call (Call.removeFile path)

def createNew (path : Path) (mode : Nat) : Prog (@Reply Path) (Except IoError Nat) :=
  call (Call.createNew path mode)

def writeAll (file : Nat) (bytes : Bytes) : Prog (@Reply Path) (Except IoError Unit) :=
  call (Call.writeAll file bytes)

def syncAll (file : Nat) : Prog (@Reply Path) (Except IoError Unit) := call (Call.syncAll file)

def rename (source target : Path) : Prog (@Reply Path) (Except IoError Unit) :=
  call (Call.rename source target)

def read (path : Path) : Prog (@Reply Path) (Except IoError Bytes) := call (Call.read path)

/-- A file is written under another name, synced, and renamed. -/
def replace (temporary target : Path) (mode : Nat) (bytes : Bytes) :
    Prog (@Reply Path) (Except (Stage × IoError) Unit) := do
  match ← createDirAll with
  | .error e => return .error (.directory, e)
  | .ok _ =>
  let _ ← removeFile temporary
  match ← createNew temporary mode with
  | .error e => return .error (.file, e)
  | .ok file =>
  match ← writeAll file bytes with
  | .error e => return .error (.file, e)
  | .ok _ =>
  match ← syncAll file with
  | .error e => return .error (.file, e)
  | .ok _ =>
  match ← rename temporary target with
  | .error e => return .error (.file, e)
  | .ok _ => return .ok ()

variable {temporary target : Path}

theorem Holds.numbered_update (h : Holds K mode t s) (path : Path) :
    ∀ other i, Function.update s.dir path none other = some i → i < s.next := by
  intro other i hi
  by_cases heq : other = path
  · subst heq
    rw [Function.update_self] at hi
    cases hi
  · rw [Function.update_of_ne heq] at hi
    exact h.numbered s.dir List.mem_cons_self other i hi

theorem Holds.removeFile_apart (h : Holds K mode t s) (hpath : ¬ K path)
    {r : Except IoError Unit} (hanswer : answers (.removeFile path) s r s') :
    Holds K mode t s' := by
  cases r with
  | ok =>
      obtain ⟨-, rfl⟩ := hanswer
      exact h.link_apart hpath (fun other hne => Function.update_of_ne hne _ _)
        (h.numbered_update path)
  | error e =>
      obtain ⟨-, rfl⟩ := hanswer
      exact h

theorem Holds.removeFile (h : Holds K mode t s)
    (hanswer : answers (.removeFile path) s (.ok ()) s') : Holds K mode (t.set path none) s' := by
  obtain ⟨-, rfl⟩ := hanswer
  have hself : Function.update s.dir path none path = none := Function.update_self _ _ _
  have hlinked := h.link path (Function.update s.dir path none)
    (fun other hne _ => Function.update_of_ne hne _ _) (h.numbered_update path)
    fun _ i hi => absurd (hself.symm.trans hi) nofun
  rwa [State.content, hself, Option.map_none] at hlinked

/-- A name that is not there may be taken for one that has been removed. -/
theorem Holds.set_none (h : Holds K mode t s) (hpath : s.dir path = none) :
    Holds K mode (t.set path none) s := by
  have hset (dir : Path → Option Nat) {other : Path}
      (hvalues : s.content dir other ∈ (t other).values) :
      s.content dir other ∈ (t.set path none other).values := by
    by_cases heq : other = path
    · subst heq
      rw [Slots.set_self]
      exact List.mem_cons_of_mem _ hvalues
    · rwa [Slots.set_of_ne heq]
  refine ⟨h.numbered, h.whole, fun other hkept => ?_, fun dir hdir other hkept => ?_⟩
  · by_cases heq : other = path
    · subst heq
      rw [Slots.set_self, State.content, hpath]
      rfl
    · rw [Slots.set_of_ne heq]
      exact h.current other hkept
  · exact hset dir (h.older dir hdir other hkept)

theorem Holds.createNew (h : Holds K mode t s) (hpath : ¬ K path)
    (hanswer : answers (.createNew path mode) s (.ok i) s') : Staged K mode t path i s' := by
  obtain ⟨-, rfl, rfl⟩ := hanswer
  have hcounted : Holds K mode t { s with next := s.next + 1 } :=
    ⟨fun dir hdir path i hi => Nat.lt_succ_of_lt (h.numbered dir hdir path i hi),
      h.whole, h.current, h.older⟩
  have hput := hcounted.put ⟨[], false, mode⟩ h.ne_next
  have hother : ∀ other, other ≠ path →
      Function.update s.dir path (some s.next) other = s.dir other :=
    fun other hne => Function.update_of_ne hne _ _
  refine ⟨hput.link_apart hpath hother fun other i hi => ?_, Function.update_self _ _ _,
    fun dir hdir other hkept => ?_, congrArg File.mode (State.files_put _ _ _)⟩
  · by_cases heq : other = path
    · subst heq
      rw [Function.update_self] at hi
      exact Option.some.inj hi ▸ Nat.lt_succ_self _
    · rw [hother other heq] at hi
      exact Nat.lt_succ_of_lt (h.numbered s.dir List.mem_cons_self other i hi)
  · rcases List.mem_cons.mp hdir with rfl | hdir
    · change Function.update s.dir path (some s.next) other ≠ some s.next
      rw [hother other fun heq => hpath (heq ▸ hkept)]
      exact h.ne_next s.dir List.mem_cons_self other hkept
    · exact h.ne_next dir hdir other hkept

/-- The file gets the name, when it is synced. -/
theorem Staged.rename (h : Staged K mode t temporary i s) (htarget : K target)
    (htemporary : ¬ K temporary) (hsynced : (s.files i).synced = true)
    (hanswer : answers (.rename temporary target) s (.ok ()) s') :
    Holds K mode (t.set target (some (s.files i).data)) s' := by
  obtain ⟨j, hj, rfl⟩ := hanswer
  obtain rfl := Option.some.inj (h.dir.symm.trans hj)
  have hne : target ≠ temporary := fun heq => htemporary (heq ▸ htarget)
  have hself : Function.update (Function.update s.dir target (some i)) temporary none target =
      some i := by
    rw [Function.update_of_ne hne, Function.update_self]
  have hlinked := h.holds.link target
    (Function.update (Function.update s.dir target (some i)) temporary none)
    (fun other hother hkept => ?_) (fun path j hj => ?_) fun _ j hj => ?_
  · have hcontent : s.content (Function.update (Function.update s.dir target (some i))
        temporary none) target = some (s.files i).data := by
      rw [State.content, hself, Option.map_some]
    rwa [hcontent] at hlinked
  · have hapart : other ≠ temporary := fun heq => htemporary (heq ▸ hkept)
    rw [Function.update_of_ne hapart, Function.update_of_ne hother]
  · by_cases heq : path = temporary
    · subst heq
      rw [Function.update_self] at hj
      cases hj
    · rw [Function.update_of_ne heq] at hj
      by_cases heq' : path = target
      · subst heq'
        rw [Function.update_self] at hj
        exact Option.some.inj hj ▸ h.holds.numbered s.dir List.mem_cons_self _ i h.dir
      · rw [Function.update_of_ne heq'] at hj
        exact h.holds.numbered s.dir List.mem_cons_self path j hj
  · rw [hself] at hj
    obtain rfl := Option.some.inj hj
    exact ⟨hsynced, h.mode⟩

/-- What a replacement has come to where it ends. -/
def Replaced (K : Path → Prop) (mode : Nat) (t : Slots Path) (target : Path) (bytes : Bytes) :
    Except (Stage × IoError) Unit → State Path → Prop
  | .ok _, s => Holds K mode (t.set target (some bytes)) s
  | .error _, s => Holds K mode t s

/-- Wherever it is cut off, a replacement has been made or not. -/
theorem Holds.replace {bytes : Bytes} (h : Holds K mode t s) (htarget : K target)
    (htemporary : ¬ K temporary) :
    Safe answers (fun s => Holds K mode t s ∨ Holds K mode (t.set target (some bytes)) s)
      (Replaced K mode t target bytes) (replace temporary target mode bytes) s := by
  refine ⟨.inl h, fun made s₁ hmade => ?_⟩
  have h₁ : Holds K mode t s₁ := by
    obtain rfl : s₁ = s := hmade
    exact h
  cases made with
  | error e => exact ⟨.inl h₁, h₁⟩
  | ok =>
  refine ⟨.inl h₁, fun removed s₂ hremoved => ?_⟩
  have h₂ := h₁.removeFile_apart htemporary hremoved
  refine ⟨.inl h₂, fun created s₃ hcreated => ?_⟩
  cases created with
  | error e =>
      obtain rfl : s₃ = s₂ := hcreated
      exact ⟨.inl h₂, h₂⟩
  | ok file =>
  have h₃ := h₂.createNew htemporary hcreated
  have hempty : (s₃.files file).data = [] := by
    obtain ⟨-, rfl, rfl⟩ := hcreated
    exact congrArg File.data (State.files_put _ _ _)
  refine ⟨.inl h₃.holds, fun written s₄ hwritten => ?_⟩
  cases written with
  | error e =>
      obtain ⟨part, -, rfl⟩ := hwritten
      have h₄ := (h₃.put ((s₃.files file).data ++ part) false).holds
      exact ⟨.inl h₄, h₄⟩
  | ok =>
  change s₄ = _ at hwritten
  have h₄ : Staged K mode t temporary file s₄ := hwritten ▸ h₃.put _ _
  have hdata : (s₄.files file).data = bytes := by
    rw [hwritten, State.files_put, hempty, List.nil_append]
  refine ⟨.inl h₄.holds, fun synced s₅ hsynced => ?_⟩
  cases synced with
  | error e =>
      obtain rfl : s₅ = s₄ := hsynced
      exact ⟨.inl h₄.holds, h₄.holds⟩
  | ok =>
  change s₅ = _ at hsynced
  have h₅ : Staged K mode t temporary file s₅ := hsynced ▸ h₄.put _ _
  have hfile : s₅.files file = { s₄.files file with synced := true } := by
    rw [hsynced, State.files_put]
  refine ⟨.inl h₅.holds, fun renamed s₆ hrenamed => ?_⟩
  cases renamed with
  | error e =>
      obtain rfl : s₆ = s₅ := hrenamed
      exact ⟨.inl h₅.holds, h₅.holds⟩
  | ok =>
  have h₆ := h₅.rename htarget htemporary (by rw [hfile]) hrenamed
  have hbytes : (s₅.files file).data = bytes := by rw [hfile, hdata]
  rw [hbytes] at h₆
  exact ⟨.inr h₆, h₆⟩

end Holds

end Disk
