import Argus.Runbooks.Promotion
import Argus.Domain.Value
import Argus.Lib.Keyed

/-!
# The runbook library

Runbooks are stored by identity, and their names are distinct, so that a name reads at most one.
A file and a delivered document are parsed alike: the gates a document declares are replayed
through the ladder, so it can only declare what the ladder would allow.
-/

namespace Argus

/-- A keyed runbook collection. -/
structure RunbookLibrary where
  runbooks : List LibraryRunbook
  ids : (runbooks.map LibraryRunbook.id).Nodup
  names : (runbooks.map fun r => r.name).Nodup

namespace RunbookLibrary

def empty : RunbookLibrary := ⟨[], List.nodup_nil, List.nodup_nil⟩

/-- The runbook with this exact name, if any. -/
def byName (library : RunbookLibrary) (name : String) : Option LibraryRunbook :=
  Keyed.lookup (fun r => r.name) library.runbooks name

/-- Forgets the runbook of an identity. -/
def removeId (library : RunbookLibrary) (id : Nat) : RunbookLibrary where
  runbooks := library.runbooks.filter fun r => r.id != id
  ids := library.ids.sublist (List.filter_sublist.map _)
  names := library.names.sublist (List.filter_sublist.map _)

/-- Removes the runbook named `name`. -/
def remove (library : RunbookLibrary) (name : String) : RunbookLibrary :=
  match library.byName name with
  | some r => library.removeId r.id
  | none => library

/-- Puts a runbook in the place of its identity, where its name is free. -/
def insert (library : RunbookLibrary) (runbook : LibraryRunbook)
    (h : ∀ r ∈ library.runbooks, r.name = runbook.name → r.id = runbook.id) : RunbookLibrary where
  runbooks := (library.removeId runbook.id).runbooks ++ [runbook]
  ids := by
    rw [List.map_append, List.nodup_append]
    refine ⟨(library.removeId runbook.id).ids, List.nodup_singleton _, fun a ha b hb => ?_⟩
    obtain ⟨r, hr, rfl⟩ := List.mem_map.mp ha
    obtain rfl := List.mem_singleton.mp hb
    simpa using (List.mem_filter.mp hr).2
  names := by
    rw [List.map_append, List.nodup_append]
    refine ⟨(library.removeId runbook.id).names, List.nodup_singleton _, fun a ha b hb hab => ?_⟩
    obtain ⟨r, hr, rfl⟩ := List.mem_map.mp ha
    obtain rfl := List.mem_singleton.mp hb
    obtain ⟨hmem, hid⟩ := List.mem_filter.mp hr
    simp [h r hmem hab] at hid

/-- Registers a runbook: a name that another one has is refused. -/
def register (library : RunbookLibrary) (runbook : LibraryRunbook) :
    Except String RunbookLibrary :=
  match hfind : library.runbooks.find? fun r => r.name == runbook.name && r.id != runbook.id with
  | some existing =>
      .error ("runbook name '" ++ runbook.name ++ "' already used by " ++ toString existing.id)
  | none => .ok (library.insert runbook fun r hr hname => by
      simpa [hname] using List.find?_eq_none.mp hfind r hr)

/-- A runbook in the place of one with its identity and its name. -/
def inPlace (runbook r : LibraryRunbook) : LibraryRunbook :=
  if r.id = runbook.id ∧ r.name = runbook.name then runbook else r

theorem id_inPlace (runbook r : LibraryRunbook) : (inPlace runbook r).id = r.id := by
  unfold inPlace
  split
  next h => exact h.1.symm
  next => rfl

theorem name_inPlace (runbook r : LibraryRunbook) : (inPlace runbook r).name = r.name := by
  unfold inPlace
  split
  next h => exact h.2.symm
  next => rfl

/-- A runbook of the library after its ladder or its history moved. -/
def replace (library : RunbookLibrary) (runbook : LibraryRunbook) : RunbookLibrary where
  runbooks := library.runbooks.map (inPlace runbook)
  ids := by simpa [Function.comp_def, id_inPlace] using library.ids
  names := by simpa [Function.comp_def, name_inPlace] using library.names

/-- All runbooks, ordered by name. -/
def list (library : RunbookLibrary) : List LibraryRunbook :=
  library.runbooks.insertionSort fun a b => a.name ≤ b.name

/-! ### What a name reads -/

variable {library library' : RunbookLibrary} {r runbook : LibraryRunbook} {name : String}

theorem byName_eq_some_iff :
    library.byName name = some r ↔ r ∈ library.runbooks ∧ r.name = name :=
  Keyed.lookup_eq_some_iff library.names

theorem mem_of_byName (h : library.byName name = some r) : r ∈ library.runbooks :=
  (byName_eq_some_iff.mp h).1

theorem name_of_byName (h : library.byName name = some r) : r.name = name :=
  (byName_eq_some_iff.mp h).2

theorem byName_name (h : r ∈ library.runbooks) : library.byName r.name = some r :=
  byName_eq_some_iff.mpr ⟨h, rfl⟩

theorem mem_list : r ∈ library.list ↔ r ∈ library.runbooks :=
  (List.perm_insertionSort _ _).mem_iff

theorem mem_remove : r ∈ (library.remove name).runbooks ↔
    r ∈ library.runbooks ∧ r.name ≠ name := by
  unfold remove
  cases hname : library.byName name with
  | none =>
      refine ⟨fun h => ⟨h, fun heq => ?_⟩, And.left⟩
      rw [← heq, byName_name h] at hname
      cases hname
  | some old =>
      obtain ⟨hold, rfl⟩ := byName_eq_some_iff.mp hname
      have hiff (h : r ∈ library.runbooks) : r.id = old.id ↔ r.name = old.name := by
        constructor
        · exact fun hid => by rw [List.inj_on_of_nodup_map library.ids h hold hid]
        · exact fun heq => by rw [List.inj_on_of_nodup_map library.names h hold heq]
      simp only [removeId, List.mem_filter, bne_iff_ne, ne_eq]
      exact and_congr_right fun h => not_congr (hiff h)

theorem mem_insert {h : ∀ r ∈ library.runbooks, r.name = runbook.name → r.id = runbook.id} :
    r ∈ (library.insert runbook h).runbooks ↔
      r = runbook ∨ r ∈ library.runbooks ∧ r.id ≠ runbook.id := by
  simp [insert, removeId, or_comm]

theorem mem_register (h : library.register runbook = .ok library') :
    r ∈ library'.runbooks ↔ r = runbook ∨ r ∈ library.runbooks ∧ r.id ≠ runbook.id := by
  unfold register at h
  split at h
  · cases h
  · cases h
    exact mem_insert

/-- A superseding runbook is registered: its name was just removed. -/
theorem register_remove (library : RunbookLibrary) (runbook : LibraryRunbook) :
    ∃ library', (library.remove runbook.name).register runbook = .ok library' := by
  unfold register
  split
  next existing hfind =>
    have hname := List.find?_some hfind
    have hmem := mem_remove.mp (List.mem_of_find?_eq_some hfind)
    simp only [Bool.and_eq_true, beq_iff_eq] at hname
    exact absurd hname.1 hmem.2
  next => exact ⟨_, rfl⟩

theorem mem_replace (hold : library.byName name = some r) (hid : runbook.id = r.id)
    (hname : runbook.name = r.name) {other : LibraryRunbook} :
    other ∈ (library.replace runbook).runbooks ↔
      other = runbook ∨ other ∈ library.runbooks ∧ other.name ≠ name := by
  obtain ⟨hr, rfl⟩ := byName_eq_some_iff.mp hold
  simp only [replace, List.mem_map]
  constructor
  · rintro ⟨old, hmem, rfl⟩
    by_cases hsame : old.id = runbook.id ∧ old.name = runbook.name
    · exact .inl (if_pos hsame)
    · have hkeep : inPlace runbook old = old := if_neg hsame
      rw [hkeep]
      refine .inr ⟨hmem, fun heq => hsame ?_⟩
      obtain rfl := List.inj_on_of_nodup_map library.names hmem hr heq
      exact ⟨hid.symm, hname.symm⟩
  · rintro (rfl | ⟨hmem, hne⟩)
    · exact ⟨r, hr, if_pos ⟨hid.symm, hname.symm⟩⟩
    · exact ⟨other, hmem, if_neg fun h => hne (h.2.trans hname)⟩

end RunbookLibrary

/-! ### Loading -/

/-- The shape of one runbook file. -/
structure RunbookFile where
  name : String
  trigger : RunbookTrigger
  allowedActions : List String
  rollback : List String
  /-- Earned gates, replayed in order through the ladder. -/
  gates : List Gate

def parseCapability (raw : String) : Except String CapabilityId :=
  match CapabilityId.new raw with
  | some id => .ok id
  | none =>
      .error ("invalid capability '" ++ raw ++ "': invalid capability id '" ++ raw ++
        "': expected a dotted lowercase path with at least two segments")

/-- A declared gate, passed only where the ladder lets it. -/
def replayGate (runbook : LibraryRunbook) (gate : Gate) : Except String LibraryRunbook :=
  match gate with
  | .approval =>
      runbook.approve.mapError fun e => "approval gate not earned: " ++ e.message
  | .promotion =>
      runbook.promote.mapError fun e => "promotion gate not earned: " ++ e.message
  | technical =>
      (runbook.recordGate technical).mapError fun e => "gate ladder violated: " ++ e.message

/-- `parse_runbook` of what the TOML reads, with the identity it mints. -/
def parseRunbook (id : Nat) (toml : Except String RunbookFile) : Except String LibraryRunbook :=
  match toml with
  | .error reason => .error ("invalid runbook file: " ++ reason)
  | .ok file =>
      if (trim file.name).isEmpty then .error "name must be non-empty"
      else do
        let allowed ← file.allowedActions.mapM parseCapability
        let rollback ← file.rollback.mapM parseCapability
        file.gates.foldlM replayGate (.fromCandidate id file.name file.trigger allowed rollback)

/-- One file of the directory, with its index: it is skipped where it does not parse, or where its
name is taken. -/
def loadFile (id : Nat) (library : RunbookLibrary) (entry : Except String RunbookFile × Nat) :
    RunbookLibrary :=
  match parseRunbook (id + entry.2) entry.1 with
  | .error _ => library
  | .ok runbook =>
      match library.register runbook with
      | .error _ => library
      | .ok registered => registered

/-- `load_runbooks`: the files in the order of their names, with the identities minted for them. -/
def loadRunbooks (id : Nat) (files : List (Except String RunbookFile)) : RunbookLibrary :=
  files.zipIdx.foldl (loadFile id) .empty

theorem climbs_of_replayGate {r r' : LibraryRunbook} {gate : Gate}
    (h : replayGate r gate = .ok r') : r.Climbs gate r' := by
  have hok {ε : Type} {x : Except ε LibraryRunbook} {f : ε → String}
      (hx : x.mapError f = .ok r') : x = .ok r' := by
    cases x with
    | error e => cases hx
    | ok y => exact congrArg Except.ok (Except.ok.inj hx)
  cases gate with
  | approval => exact LibraryRunbook.climbs_of_approve (hok h)
  | promotion => exact LibraryRunbook.climbs_of_promote (hok h)
  | _ => exact LibraryRunbook.climbs_of_recordGate (by decide) (by decide) (hok h)

theorem laddered_of_replay {gates : List Gate} {r r' : LibraryRunbook} (hr : r.Laddered)
    (h : gates.foldlM replayGate r = .ok r') :
    r'.id = r.id ∧ r'.attempts = r.attempts ∧ r'.successes = r.successes ∧ r'.Laddered := by
  induction gates generalizing r with
  | nil =>
      cases h
      exact ⟨rfl, rfl, rfl, hr⟩
  | cons gate gates ih =>
      rw [List.foldlM_cons] at h
      cases hgate : replayGate r gate with
      | error e =>
          rw [hgate] at h
          cases h
      | ok next =>
          rw [hgate] at h
          have hclimbs := climbs_of_replayGate hgate
          obtain ⟨hid, hattempts, hsuccesses, hladdered⟩ := ih (hclimbs.laddered hr) h
          exact ⟨hid.trans hclimbs.id, hattempts.trans hclimbs.attempts,
            hsuccesses.trans hclimbs.successes, hladdered⟩

/-- A document declares no more than the ladder allows, and no history. -/
theorem laddered_of_parse {id : Nat} {toml : Except String RunbookFile} {r : LibraryRunbook}
    (h : parseRunbook id toml = .ok r) :
    r.id = id ∧ r.attempts = 0 ∧ r.successes = 0 ∧ r.Laddered := by
  unfold parseRunbook at h
  cases toml with
  | error reason => cases h
  | ok file =>
      dsimp only at h
      by_cases hname : (trim file.name).isEmpty = true
      · rw [if_pos hname] at h
        cases h
      rw [if_neg hname] at h
      cases hallowed : file.allowedActions.mapM parseCapability with
      | error e =>
          rw [hallowed] at h
          cases h
      | ok allowed =>
          cases hrollback : file.rollback.mapM parseCapability with
          | error e =>
              rw [hallowed, hrollback] at h
              cases h
          | ok rollback =>
              rw [hallowed, hrollback] at h
              exact laddered_of_replay ⟨0, rfl, rfl⟩ h

/-- A runbook on the ladder, under an identity of the given range. -/
def LibraryRunbook.Loaded (id count : Nat) (r : LibraryRunbook) : Prop :=
  r.Laddered ∧ id ≤ r.id ∧ r.id < id + count

theorem loaded_of_loadFile {id count : Nat} {library : RunbookLibrary}
    {entry : Except String RunbookFile × Nat} (hentry : entry.2 < count)
    (h : ∀ r ∈ library.runbooks, r.Loaded id count) :
    ∀ r ∈ (loadFile id library entry).runbooks, r.Loaded id count := by
  unfold loadFile
  cases hparse : parseRunbook (id + entry.2) entry.1 with
  | error reason => exact h
  | ok runbook =>
      dsimp only
      cases hregister : library.register runbook with
      | error reason => exact h
      | ok registered =>
          obtain ⟨hid, -, -, hladdered⟩ := laddered_of_parse hparse
          intro r hr
          rcases (RunbookLibrary.mem_register hregister).mp hr with rfl | ⟨hold, -⟩
          · exact ⟨hladdered, by omega, by omega⟩
          · exact h r hold

/-- What is loaded from files is on the ladder, under the identities minted for the files. -/
theorem loaded_of_load {id : Nat} {files : List (Except String RunbookFile)} :
    ∀ r ∈ (loadRunbooks id files).runbooks, r.Loaded id files.length := by
  have hfold (entries : List (Except String RunbookFile × Nat))
      (hentries : ∀ entry ∈ entries, entry.2 < files.length) (library : RunbookLibrary)
      (h : ∀ r ∈ library.runbooks, r.Loaded id files.length) :
      ∀ r ∈ (entries.foldl (loadFile id) library).runbooks, r.Loaded id files.length := by
    induction entries generalizing library with
    | nil => exact h
    | cons entry entries ih =>
        obtain ⟨hentry, hrest⟩ := List.forall_mem_cons.mp hentries
        exact ih hrest _ (loaded_of_loadFile hentry h)
  refine hfold files.zipIdx (fun entry hentry => ?_) .empty fun r hr => by cases hr
  exact (List.mem_zipIdx hentry).2.1.trans_eq (Nat.zero_add _)

end Argus
