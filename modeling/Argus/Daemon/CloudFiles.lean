import Argus.Lib.Disk
import Argus.Lib.Utf8

/-!
# Secrets and settings on disk

The cloud session keeps three secrets and the managed settings in files of their own. Each is
written to a temporary file that is synced and renamed over the old one, so that a crash in the
middle leaves no part of a value. The directory is not synced: a value that was stored can still
be lost to a crash, for one that was there before.

The abstract side is a vault: each file holds a text or nothing, and a crash leaves it with what it
holds, what it was about to, or what it has held since the machine came up. `lives_vault` says that
the files follow it, whatever calls fail and wherever the machine goes down.
-/

namespace Argus.CloudFiles

open Interaction Prog
open Disk (Bytes IoError)

/-- A file by its directory and its name. -/
structure FilePath where
  parent : String
  name : String
  deriving DecidableEq

/-- `Path::file_stem`: the name up to its last dot, unless nothing stands before that. -/
def fileStem (name : List Char) : List Char :=
  match (name.reverse.dropWhile (· ≠ '.')).tail.reverse with
  | [] => name
  | stem => stem

def FilePath.withExtension (path : FilePath) (extension : String) : FilePath :=
  { path with name := String.ofList (fileStem path.name.toList) ++ "." ++ extension }

/-- The secrets, each in its file. -/
inductive SecretFile
  | sessionCredential
  | providerCredential
  | identitySeed
  deriving DecidableEq

def SecretFile.fileName : SecretFile → String
  | .sessionCredential => "cloud-session"
  | .providerCredential => "model-api-token"
  | .identitySeed => "cloud-identity-key"

/-- `CloudSecretStore::path_for`. -/
def pathFor (root : String) (file : SecretFile) : FilePath := ⟨root, file.fileName⟩

def temporaryFor (root : String) (file : SecretFile) : FilePath :=
  ⟨root, "." ++ file.fileName ++ ".incoming"⟩

/-- Where the secrets and the settings are kept. No temporary file takes the place of one. -/
structure Locations where
  /-- `root` of the secret store. -/
  root : String
  /-- `path` of the settings store. -/
  settings : FilePath
  secretApart : ∀ file, temporaryFor root file ≠ settings
  settingsApart : ∀ file, settings.withExtension "incoming" ≠ pathFor root file
  settingsApartSelf : settings.withExtension "incoming" ≠ settings

/-- The packaged locations. -/
def Locations.packaged : Locations where
  root := "/etc/argus/secrets"
  settings := ⟨"/etc/argus", "cloud-settings.toml"⟩
  secretApart file := by cases file <;> decide
  settingsApart file := by cases file <;> decide
  settingsApartSelf := by decide

def Locations.Kept (files : Locations) (path : FilePath) : Prop :=
  path = files.settings ∨ ∃ file, path = pathFor files.root file

/-! ### The stores -/

abbrev DiskM := Prog (@Disk.Reply FilePath)

/-- The mode of every file. -/
def ownerOnly : Nat := 0o600

def bytesOf (text : String) : Bytes := Utf8.encode text.toList

/-- `fs::read_to_string`. -/
def readToString (path : FilePath) : DiskM (Except IoError String) := do
  match ← Disk.read path with
  | .error e => return .error e
  | .ok bytes =>
  match Utf8.fromUtf8 bytes with
  | some chars => return .ok (String.ofList chars)
  | none => return .error ⟨.other, "stream did not contain valid UTF-8"⟩

inductive SecretError
  | unavailable (message : String)
  | failed (message : String)

inductive SettingsError
  | unavailable (message : String)
  | failed (message : String)
  | corrupt (message : String)

/-- A secret without the line ends behind it. -/
def trimEnd (value : String) : String :=
  String.ofList (value.toList.reverse.dropWhile fun c => c = '\n' || c = '\r').reverse

/-- What the text of a file comes to as a secret. -/
def secretOf (value : String) : Option String :=
  if (trimEnd value).isEmpty then none else some (trimEnd value)

section Stores

variable {Table : Type} (toToml : Table → Except String String)
  (fromToml : String → Except String Table) (files : Locations)

def readSecret (file : SecretFile) : DiskM (Except SecretError (Option String)) := do
  match ← readToString (pathFor files.root file) with
  | .ok value => return .ok (secretOf value)
  | .error e =>
      if e.kind = .notFound then return .ok none else return .error (.unavailable e.message)

def writeSecret (file : SecretFile) (secret : String) : DiskM (Except SecretError Unit) :=
  if secret.isEmpty then return .error (.failed "refusing to store an empty secret") else do
    match ← Disk.replace (temporaryFor files.root file) (pathFor files.root file) ownerOnly
        (bytesOf secret) with
    | .ok _ => return .ok ()
    | .error (.directory, e) => return .error (.unavailable e.message)
    | .error (.file, e) => return .error (.failed e.message)

def removeSecret (file : SecretFile) : DiskM (Except SecretError Unit) := do
  match ← Disk.removeFile (pathFor files.root file) with
  | .ok _ => return .ok ()
  | .error e => if e.kind = .notFound then return .ok () else return .error (.failed e.message)

/-- `ManagedSettingsStore::read`. -/
def readSettings : DiskM (Except SettingsError (Option Table)) := do
  match ← readToString files.settings with
  | .ok text =>
      match fromToml text with
      | .ok settings => return .ok (some settings)
      | .error e => return .error (.corrupt e)
  | .error e =>
      if e.kind = .notFound then return .ok none else return .error (.unavailable e.message)

/-- `ManagedSettingsStore::write`. -/
def writeSettings (settings : Table) : DiskM (Except SettingsError Unit) :=
  match toToml settings with
  | .error e => return .error (.failed e)
  | .ok text => do
      match ← Disk.replace (files.settings.withExtension "incoming") files.settings ownerOnly
          (bytesOf text) with
      | .ok _ => return .ok ()
      | .error (.directory, e) => return .error (.unavailable e.message)
      | .error (.file, e) => return .error (.failed e.message)

/-- `ManagedSettingsStore::clear`. -/
def clearSettings : DiskM (Except SettingsError Unit) := do
  match ← Disk.removeFile files.settings with
  | .ok _ => return .ok ()
  | .error e => if e.kind = .notFound then return .ok () else return .error (.failed e.message)

inductive Job (Table : Type)
  | readSecret (file : SecretFile)
  | writeSecret (file : SecretFile) (secret : String)
  | removeSecret (file : SecretFile)
  | readSettings
  | writeSettings (settings : Table)
  | clearSettings

inductive Answer (Table : Type)
  | secret (result : Except SecretError (Option String))
  | secretDone (result : Except SecretError Unit)
  | settings (result : Except SettingsError (Option Table))
  | settingsDone (result : Except SettingsError Unit)

def job : Job Table → DiskM (Answer Table)
  | .readSecret file => do return .secret (← readSecret files file)
  | .writeSecret file secret => do return .secretDone (← writeSecret files file secret)
  | .removeSecret file => do return .secretDone (← removeSecret files file)
  | .readSettings => do return .settings (← readSettings fromToml files)
  | .writeSettings settings => do return .settingsDone (← writeSettings toToml files settings)
  | .clearSettings => do return .settingsDone (← clearSettings files)

end Stores

/-! ### The vault -/

/-- What a file holds, and what it has held since the machine came up. -/
structure Held where
  current : Option String
  older : List (Option String)

def Held.values (held : Held) : List (Option String) := held.current :: held.older

abbrev Vault := FilePath → Held

namespace Vault

def set (v : Vault) (path : FilePath) (value : Option String) : Vault :=
  Function.update v path ⟨value, (v path).values⟩

def slots (v : Vault) : Disk.Slots FilePath := fun path =>
  ⟨(v path).current.map bytesOf, (v path).older.map (Option.map bytesOf)⟩

theorem values_slots (v : Vault) (path : FilePath) :
    (v.slots path).values = (v path).values.map (Option.map bytesOf) := rfl

theorem slots_set (v : Vault) (path : FilePath) (value : Option String) :
    (v.set path value).slots = v.slots.set path (value.map bytesOf) := by
  funext other
  by_cases heq : other = path
  · subst heq
    rw [Disk.Slots.set_self, slots, set, Function.update_self]
    rfl
  · rw [Disk.Slots.set_of_ne heq, slots, set, Function.update_of_ne heq]
    rfl

end Vault

section Vault

variable {Table : Type} (toToml : Table → Except String String)
  (fromToml : String → Except String Table) (files : Locations)

/-- The file that a job writes, and the text that it writes or `none` for a removal. -/
def Job.writes : Job Table → Option (FilePath × Option String)
  | .writeSecret file secret => some (pathFor files.root file, some secret)
  | .removeSecret file => some (pathFor files.root file, none)
  | .writeSettings settings =>
      (toToml settings).toOption.map fun text => (files.settings, some text)
  | .clearSettings => some (files.settings, none)
  | .readSecret _ | .readSettings => none

/-- How a job ends in the vault: it may fail, and leaves everything as it is. -/
inductive Ends : Vault → Job Table → Answer Table → Vault → Prop
  | secret {v : Vault} {file : SecretFile} :
      Ends v (.readSecret file)
        (.secret (.ok ((v (pathFor files.root file)).current.bind secretOf))) v
  | noSecret {v : Vault} {file : SecretFile} {message : String} :
      Ends v (.readSecret file) (.secret (.error (.unavailable message))) v
  | wroteSecret {v : Vault} {file : SecretFile} {secret : String} (h : secret ≠ "") :
      Ends v (.writeSecret file secret) (.secretDone (.ok ()))
        (v.set (pathFor files.root file) (some secret))
  | removedSecret {v : Vault} {file : SecretFile} :
      Ends v (.removeSecret file) (.secretDone (.ok ())) (v.set (pathFor files.root file) none)
  | secretFailed {v : Vault} {job : Job Table} {e : SecretError} :
      Ends v job (.secretDone (.error e)) v
  | noSettings {v : Vault} (h : (v files.settings).current = none) :
      Ends v .readSettings (.settings (.ok none)) v
  | settings {v : Vault} {text : String} {settings : Table}
      (h : (v files.settings).current = some text) (htext : fromToml text = .ok settings) :
      Ends v .readSettings (.settings (.ok (some settings))) v
  | corrupt {v : Vault} {text e : String}
      (h : (v files.settings).current = some text) (htext : fromToml text = .error e) :
      Ends v .readSettings (.settings (.error (.corrupt e))) v
  | settingsUnavailable {v : Vault} {message : String} :
      Ends v .readSettings (.settings (.error (.unavailable message))) v
  | wroteSettings {v : Vault} {settings : Table} {text : String}
      (htext : toToml settings = .ok text) :
      Ends v (.writeSettings settings) (.settingsDone (.ok ()))
        (v.set files.settings (some text))
  | clearedSettings {v : Vault} :
      Ends v .clearSettings (.settingsDone (.ok ())) (v.set files.settings none)
  | settingsFailed {v : Vault} {job : Job Table} {e : SettingsError} :
      Ends v job (.settingsDone (.error e)) v

/-- What a crash during a job leaves: a file holds a value that it has held, or the one that the
job was to write, and nothing is left of what it held before. -/
def Downs (v : Vault) (job : Job Table) (v' : Vault) : Prop :=
  ∀ path, files.Kept path → (v' path).older = [] ∧
    ((v' path).current ∈ (v path).values ∨
      job.writes toToml files = some (path, (v' path).current))

/-- The files are what the vault says. -/
def Stands (v : Vault) (s : Disk.State FilePath) : Prop :=
  Disk.Holds files.Kept ownerOnly v.slots s

/-- What holds wherever a job is cut off. -/
def Amid (v : Vault) (job : Job Table) (s : Disk.State FilePath) : Prop :=
  Stands files v s ∨ ∃ path value, job.writes toToml files = some (path, value) ∧
    Stands files (v.set path value) s

/-! ### The files follow the vault -/

variable {toToml fromToml} {files} {v : Vault} {s s' : Disk.State FilePath} {path : FilePath}
  {file : SecretFile}

theorem kept_secret : files.Kept (pathFor files.root file) := .inr ⟨file, rfl⟩

theorem kept_settings : files.Kept files.settings := .inl rfl

theorem not_kept_temporary : ¬ files.Kept (temporaryFor files.root file) := by
  intro hkept
  rcases hkept with heq | ⟨other, heq⟩
  · exact files.secretApart file heq
  · have hname : "." ++ file.fileName ++ ".incoming" = other.fileName :=
      congrArg FilePath.name heq
    revert hname
    cases file <;> cases other <;> decide

theorem not_kept_incoming : ¬ files.Kept (files.settings.withExtension "incoming") := by
  intro hkept
  rcases hkept with heq | ⟨file, heq⟩
  · exact files.settingsApartSelf heq
  · exact files.settingsApart file heq

/-- What a call that writes has come to where it ends. -/
def Wrote {ε : Type} (files : Locations) (v : Vault) (path : FilePath) (value : Option String) :
    Except ε Unit → Disk.State FilePath → Prop
  | .ok _, s => Stands files (v.set path value) s
  | .error _, s => Stands files v s

/-- What a file reads as. -/
def Reads (v : Vault) (path : FilePath) : Except IoError String → Prop
  | .ok text => (v path).current = some text
  | .error e => e.kind = .notFound → (v path).current = none

theorem stands_set {value : Option String} : Stands files (v.set path value) s ↔
    Disk.Holds files.Kept ownerOnly (v.slots.set path (value.map bytesOf)) s := by
  rw [Stands, Vault.slots_set]

theorem safe_readToString (hpath : files.Kept path) (h : Stands files v s) :
    Safe Disk.answers (Stands files v) (fun r s => Stands files v s ∧ Reads v path r)
      (readToString path) s := by
  refine ⟨h, fun r s' hanswer => ?_⟩
  have hcurrent : s.content s.dir path = (v path).current.map bytesOf := h.current path hpath
  cases r with
  | error e =>
      obtain ⟨hmissing, rfl⟩ := hanswer
      refine ⟨h, h, fun hkind => ?_⟩
      rw [Disk.State.content, hmissing hkind, Option.map_none] at hcurrent
      exact Option.map_eq_none_iff.mp hcurrent.symm
  | ok bytes =>
      obtain ⟨hcontent, rfl⟩ := hanswer
      obtain ⟨text, htext, rfl⟩ := Option.map_eq_some_iff.mp (hcurrent.symm.trans hcontent)
      change Safe _ _ _ (match Utf8.fromUtf8 (bytesOf text) with | some _ => _ | none => _) _
      rw [bytesOf, Utf8.fromUtf8_encode]
      refine ⟨h, h, ?_⟩
      rw [Reads, String.ofList_toList, htext]

theorem safe_readSecret (h : Stands files v s) : Safe Disk.answers (Stands files v)
    (fun r s => Ends toToml fromToml files v (.readSecret file) (.secret r) v ∧ Stands files v s)
    (readSecret files file) s := by
  refine (safe_readToString kept_secret h).bind fun r s hr => ?_
  obtain ⟨h, hreads⟩ := hr
  cases r with
  | ok text =>
      refine ⟨h, ?_, h⟩
      have hcurrent : (v (pathFor files.root file)).current = some text := hreads
      have hends := @Ends.secret Table toToml fromToml files v file
      rwa [hcurrent] at hends
  | error e =>
      change Safe _ _ _ (if e.kind = .notFound then _ else _) s
      split_ifs with hkind
      · refine ⟨h, ?_, h⟩
        have hends := @Ends.secret Table toToml fromToml files v file
        rwa [hreads hkind] at hends
      · exact ⟨h, .noSecret, h⟩

theorem safe_readSettings (h : Stands files v s) : Safe Disk.answers (Stands files v)
    (fun r s => Ends toToml fromToml files v .readSettings (.settings r) v ∧ Stands files v s)
    (readSettings fromToml files) s := by
  refine (safe_readToString kept_settings h).bind fun r s hr => ?_
  obtain ⟨h, hreads⟩ := hr
  cases r with
  | ok text =>
      change Safe _ _ _ (match fromToml text with | .ok _ => _ | .error _ => _) s
      cases htext : fromToml text with
      | ok settings => exact ⟨h, .settings hreads htext, h⟩
      | error e => exact ⟨h, .corrupt hreads htext, h⟩
  | error e =>
      change Safe _ _ _ (if e.kind = .notFound then _ else _) s
      split_ifs with hkind
      · exact ⟨h, .noSettings (hreads hkind), h⟩
      · exact ⟨h, .settingsUnavailable, h⟩

/-- A replacement, and the result that a store makes of it. -/
theorem safe_replace {ε : Type} {temporary : FilePath} {text : String}
    {f : Except (Disk.Stage × IoError) Unit → DiskM (Except ε Unit)}
    (hpath : files.Kept path) (htemporary : ¬ files.Kept temporary) (h : Stands files v s)
    (hok : f (.ok ()) = pure (.ok ())) (herror : ∀ e, ∃ e', f (.error e) = pure (.error e')) :
    Safe Disk.answers (fun s => Stands files v s ∨ Stands files (v.set path (some text)) s)
      (Wrote files v path (some text))
      (Disk.replace temporary path ownerOnly (bytesOf text) >>= f) s := by
  have hreplace : Safe Disk.answers
      (fun s => Stands files v s ∨ Stands files (v.set path (some text)) s)
      (Disk.Replaced files.Kept ownerOnly v.slots path (bytesOf text))
      (Disk.replace temporary path ownerOnly (bytesOf text)) s :=
    (Disk.Holds.replace h hpath htemporary).mono (fun s hs => hs.imp_right stands_set.mpr)
      fun _ _ hQ => hQ
  refine hreplace.bind fun r s hr => ?_
  cases r with
  | ok =>
      have hset : Stands files (v.set path (some text)) s := stands_set.mpr hr
      rw [hok]
      exact ⟨.inr hset, hset⟩
  | error e =>
      obtain ⟨e', he'⟩ := herror e
      rw [he']
      exact ⟨.inl hr, hr⟩

theorem safe_writeSecret {secret : String} (h : Stands files v s) : Safe Disk.answers
    (fun s => Stands files v s ∨ Stands files (v.set (pathFor files.root file) (some secret)) s)
    (fun r s => (r = .ok () → secret ≠ "") ∧
      Wrote files v (pathFor files.root file) (some secret) r s)
    (writeSecret files file secret) s := by
  unfold writeSecret
  split_ifs with hempty
  · exact ⟨.inl h, And.intro (fun hr => by cases hr) h⟩
  · have hsecret : secret ≠ "" := by simpa using hempty
    refine Safe.mono (Q := Wrote files v (pathFor files.root file) (some secret)) ?_
      (fun _ hs => hs) fun r _ hr => ⟨fun _ => hsecret, hr⟩
    refine safe_replace kept_secret not_kept_temporary h rfl fun e => ?_
    obtain ⟨_ | _, e⟩ := e
    · exact ⟨_, rfl⟩
    · exact ⟨_, rfl⟩

theorem safe_writeSettings {settings : Table} {text : String}
    (htext : toToml settings = .ok text) (h : Stands files v s) : Safe Disk.answers
    (fun s => Stands files v s ∨ Stands files (v.set files.settings (some text)) s)
    (Wrote files v files.settings (some text)) (writeSettings toToml files settings) s := by
  unfold writeSettings
  rw [htext]
  refine safe_replace kept_settings not_kept_incoming h rfl fun e => ?_
  obtain ⟨_ | _, e⟩ := e
  · exact ⟨_, rfl⟩
  · exact ⟨_, rfl⟩

theorem safe_removeFile {ε : Type} {failed : IoError → ε} (h : Stands files v s) :
    Safe Disk.answers (fun s => Stands files v s ∨ Stands files (v.set path none) s)
      (Wrote files v path none)
      (do
        match ← Disk.removeFile path with
        | .ok _ => return .ok ()
        | .error e =>
            if e.kind = .notFound then return .ok () else return .error (failed e)) s := by
  refine ⟨.inl h, fun r s' hanswer => ?_⟩
  cases r with
  | ok =>
      have hset : Stands files (v.set path none) s' := stands_set.mpr (h.removeFile hanswer)
      exact ⟨.inr hset, hset⟩
  | error e =>
      obtain ⟨hmissing, rfl⟩ := hanswer
      change Safe _ _ _ (if e.kind = .notFound then _ else _) _
      split_ifs with hkind
      · have hset : Stands files (v.set path none) s' :=
          stands_set.mpr (h.set_none (hmissing hkind))
        exact ⟨.inr hset, hset⟩
      · exact ⟨.inl h, h⟩

/-- What a job does to the files, wherever it ends and wherever it is cut off. -/
theorem safe_job (h : Stands files v s) (j : Job Table) :
    Safe Disk.answers (Amid toToml files v j)
      (fun a s => ∃ v', Ends toToml fromToml files v j a v' ∧ Stands files v' s)
      (job toToml fromToml files j) s := by
  have hwrites {path : FilePath} {value : Option String} {j : Job Table}
      (hj : j.writes toToml files = some (path, value)) (s : Disk.State FilePath)
      (hs : Stands files v s ∨ Stands files (v.set path value) s) : Amid toToml files v j s :=
    hs.imp_right fun hset => ⟨path, value, hj, hset⟩
  cases j with
  | readSecret file =>
      have hread := @safe_readSecret Table toToml fromToml files v s file h
      refine (hread.mono (fun _ hs => .inl hs) fun _ _ hQ => hQ).bind fun r s hr => ?_
      exact ⟨.inl hr.2, v, hr.1, hr.2⟩
  | writeSecret file secret =>
      refine ((safe_writeSecret h).mono (hwrites rfl) fun _ _ hQ => hQ).bind fun r s hr => ?_
      obtain ⟨hsecret, hr⟩ := hr
      cases r with
      | ok => exact ⟨hwrites rfl s (.inr hr), _, .wroteSecret (hsecret rfl), hr⟩
      | error e => exact ⟨.inl hr, _, .secretFailed, hr⟩
  | removeSecret file =>
      refine ((safe_removeFile h).mono (hwrites rfl) fun _ _ hQ => hQ).bind fun r s hr => ?_
      cases r with
      | ok => exact ⟨hwrites rfl s (.inr hr), _, .removedSecret, hr⟩
      | error e => exact ⟨.inl hr, _, .secretFailed, hr⟩
  | readSettings =>
      have hread := @safe_readSettings Table toToml fromToml files v s h
      refine (hread.mono (fun _ hs => .inl hs) fun _ _ hQ => hQ).bind fun r s hr => ?_
      exact ⟨.inl hr.2, v, hr.1, hr.2⟩
  | writeSettings settings =>
      cases htext : toToml settings with
      | error e =>
          change Safe _ _ _ (writeSettings toToml files settings >>= _) s
          rw [writeSettings, htext]
          exact ⟨.inl h, v, .settingsFailed, h⟩
      | ok text =>
          have hj : (Job.writeSettings settings).writes toToml files =
              some (files.settings, some text) := by
            rw [Job.writes, htext]
            rfl
          refine ((safe_writeSettings htext h).mono (hwrites hj) fun _ _ hQ => hQ).bind
            fun r s hr => ?_
          cases r with
          | ok => exact ⟨hwrites hj s (.inr hr), _, .wroteSettings htext, hr⟩
          | error e => exact ⟨.inl hr, _, .settingsFailed, hr⟩
  | clearSettings =>
      refine ((safe_removeFile h).mono (hwrites rfl) fun _ _ hQ => hQ).bind fun r s hr => ?_
      cases r with
      | ok => exact ⟨hwrites rfl s (.inr hr), _, .clearedSettings, hr⟩
      | error e => exact ⟨.inl hr, _, .settingsFailed, hr⟩

theorem Stands.crash (h : Stands files v s) (hcrash : Disk.Crash s s') :
    ∃ v', (∀ path, files.Kept path → (v' path).current ∈ (v path).values ∧ (v' path).older = []) ∧
      Stands files v' s' := by
  obtain ⟨t, ht, hholds⟩ := Disk.Holds.crash h hcrash
  have htext (path : FilePath) : ∃ value, files.Kept path →
      value ∈ (v path).values ∧ value.map bytesOf = (t path).current := by
    by_cases hkept : files.Kept path
    · have hmem := (ht path hkept).1
      rw [Vault.values_slots] at hmem
      obtain ⟨value, hvalue, heq⟩ := List.mem_map.mp hmem
      exact ⟨value, fun _ => ⟨hvalue, heq⟩⟩
    · exact ⟨none, fun h => absurd h hkept⟩
  choose text htext using htext
  refine ⟨fun path => ⟨text path, []⟩, fun path hkept => ⟨(htext path hkept).1, rfl⟩, ?_⟩
  refine hholds.of_kept fun path hkept => ?_
  have holder := (ht path hkept).2
  have hcurrent := (htext path hkept).2
  rw [Vault.slots, hcurrent]
  generalize t path = slot at holder
  cases slot
  cases holder
  rfl

theorem Amid.crash {j : Job Table} (h : Amid toToml files v j s) (hcrash : Disk.Crash s s') :
    ∃ v', Downs toToml files v j v' ∧ Stands files v' s' := by
  rcases h with h | ⟨path, value, hwrites, h⟩
  · obtain ⟨v', hvalues, h'⟩ := h.crash hcrash
    exact ⟨v', fun path hkept => ⟨(hvalues path hkept).2, .inl (hvalues path hkept).1⟩, h'⟩
  · obtain ⟨v', hvalues, h'⟩ := h.crash hcrash
    refine ⟨v', fun other hkept => ⟨(hvalues other hkept).2, ?_⟩, h'⟩
    have hmem := (hvalues other hkept).1
    by_cases heq : other = path
    · subst heq
      rw [Vault.set, Function.update_self] at hmem
      rcases List.mem_cons.mp hmem with hcurrent | hmem
      · exact .inr (by rw [hcurrent, hwrites])
      · exact .inl hmem
    · rw [Vault.set, Function.update_of_ne heq] at hmem
      exact .inl hmem

/-- The files follow the vault, whatever calls fail, and wherever the machine goes down. -/
theorem lives_vault {fates : List (Fate (Job Table) (Answer Table))} (h : Stands files v s)
    (hlives : Lives Disk.answers Disk.Crash (job toToml fromToml files) s fates s') :
    ∃ v', Follows (Ends toToml fromToml files) (Downs toToml files) v fates v' ∧
      Stands files v' s' :=
  hlives.refines h (fun _ _ j h => safe_job h j) fun _ _ _ _ h hcrash => h.crash hcrash

/-- A value of a file was there at the start, or a job was to write it. -/
theorem Ends.values {j : Job Table} {a : Answer Table} {v' : Vault}
    (h : Ends toToml fromToml files v j a v') : ∀ value ∈ (v' path).values,
      value ∈ (v path).values ∨ j.writes toToml files = some (path, value) := by
  have hset {other : FilePath} {value : Option String}
      (hj : j.writes toToml files = some (other, value)) :
      ∀ w ∈ (v.set other value path).values,
        w ∈ (v path).values ∨ j.writes toToml files = some (path, w) := by
    intro w hw
    by_cases heq : path = other
    · subst heq
      rw [Vault.set, Function.update_self] at hw
      rcases List.mem_cons.mp hw with rfl | hw
      · exact .inr hj
      · exact .inl hw
    · rw [Vault.set, Function.update_of_ne heq] at hw
      exact .inl hw
  cases h with
  | wroteSecret | removedSecret | clearedSettings => exact hset rfl
  | wroteSettings htext => exact hset (by rw [Job.writes, htext]; rfl)
  | _ => exact fun _ hw => .inl hw

/-- A value of a file was there at the start, or a job was to write it. -/
theorem values_of_follows {v v' : Vault} {fates : List (Fate (Job Table) (Answer Table))}
    (h : Follows (Ends toToml fromToml files) (Downs toToml files) v fates v')
    (hkept : files.Kept path) : ∀ value ∈ (v' path).values, value ∈ (v path).values ∨
      ∃ fate ∈ fates, fate.job.writes toToml files = some (path, value) := by
  induction h with
  | nil => exact fun _ hw => .inl hw
  | @ended _ _ _ j a fates hends _ ih =>
      intro value hvalue
      rcases ih value hvalue with hvalue | ⟨fate, hfate, hwrites⟩
      · rcases hends.values value hvalue with hvalue | hwrites
        · exact .inl hvalue
        · exact .inr ⟨.ended j a, List.mem_cons_self, hwrites⟩
      · exact .inr ⟨fate, List.mem_cons_of_mem _ hfate, hwrites⟩
  | @down _ v₁ _ j fates hdowns _ ih =>
      intro value hvalue
      rcases ih value hvalue with hvalue | ⟨fate, hfate, hwrites⟩
      · obtain ⟨holder, hcurrent⟩ := hdowns path hkept
        rw [Held.values, holder, List.mem_singleton] at hvalue
        subst hvalue
        exact hcurrent.imp_right fun hwrites => ⟨.down j, List.mem_cons_self, hwrites⟩
      · exact .inr ⟨fate, List.mem_cons_of_mem _ hfate, hwrites⟩

/-- No file is left with a part of a value: it is whole, for the owner only, and holds what it held
at the start or what a job was to write. -/
theorem content_whole {fates : List (Fate (Job Table) (Answer Table))} {i : Nat}
    (h : Stands files v s)
    (hlives : Lives Disk.answers Disk.Crash (job toToml fromToml files) s fates s')
    (hkept : files.Kept path) (hi : s'.dir path = some i) :
    (s'.files i).mode = ownerOnly ∧ ∃ text, (s'.files i).data = bytesOf text ∧
      (some text ∈ (v path).values ∨
        ∃ fate ∈ fates, fate.job.writes toToml files = some (path, some text)) := by
  obtain ⟨v', hfollows, h'⟩ := hlives.refines h (fun _ _ j h => safe_job h j)
    fun _ _ _ _ h hcrash => h.crash hcrash
  refine ⟨(h'.whole s'.dir List.mem_cons_self path hkept i hi).2, ?_⟩
  have hcurrent := h'.current path hkept
  rw [Disk.State.content, hi, Option.map_some] at hcurrent
  obtain ⟨text, htext, hdata⟩ := Option.map_eq_some_iff.mp hcurrent.symm
  refine ⟨text, hdata.symm, values_of_follows hfollows hkept (some text) ?_⟩
  exact htext ▸ List.mem_cons_self

end Vault

/-- A disk with nothing on it. -/
def emptyDisk : Disk.State FilePath := ⟨fun _ => ⟨[], false, 0⟩, 0, fun _ => none, []⟩

def emptyVault : Vault := fun _ => ⟨none, []⟩

theorem stands_empty : Stands .packaged emptyVault emptyDisk := by
  refine ⟨?_, ?_, fun _ _ => rfl, nofun⟩
  · intro dir hdir path i hi
    obtain rfl := List.mem_singleton.mp hdir
    cases hi
  · intro dir hdir path _ i hi
    obtain rfl := List.mem_singleton.mp hdir
    cases hi

/-- Settings are stored for the first time. -/
def firstSettings : List (Fate (Job String) (Answer String)) :=
  [.ended (.writeSettings "interval = 30") (.settingsDone (.ok ()))]

def settingsDisk : Disk.State FilePath :=
  (exec Disk.serve (job .ok .ok .packaged (.writeSettings "interval = 30")) emptyDisk).2

theorem lives_firstSettings :
    Lives Disk.answers Disk.Crash (job .ok .ok .packaged) emptyDisk firstSettings settingsDisk :=
  .ended (reaches_exec Disk.serve_answers (job .ok .ok .packaged _) emptyDisk) .nil

theorem lives_vault_settings : ∃ v,
    Follows (Ends .ok .ok .packaged) (Downs .ok .packaged) emptyVault firstSettings v ∧
      Stands .packaged v settingsDisk :=
  lives_vault stands_empty lives_firstSettings

theorem content_whole_settings : (settingsDisk.files 0).mode = ownerOnly ∧
    ∃ text, (settingsDisk.files 0).data = bytesOf text ∧
      (some text ∈ (emptyVault Locations.packaged.settings).values ∨
        ∃ fate ∈ firstSettings,
          fate.job.writes .ok .packaged = some (Locations.packaged.settings, some text)) :=
  content_whole stands_empty lives_firstSettings kept_settings rfl

end Argus.CloudFiles
