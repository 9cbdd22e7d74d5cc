import Argus.Container.Chunks
import Argus.Sensors.Proc
import Mathlib.Data.List.TakeWhile

/-!
# What the kernel's files say of a process

A process chooses its own name, its arguments and, where it may, its cgroup, and the kernel writes
them between what it says itself. The readers are to get the kernel's figures whatever the process
chose. In `status` a name has no line feed, since the kernel escapes it. In `stat` it is written as
it is, and may have a closing parenthesis; the last one of the line is the kernel's.

`Task` is what the kernel has of a process, and `StatusOf`, `StatOf`, `Task.cmdlineText` and
`Task.cgroupText` are its files, of every kernel that writes the fields that are read here. The
readers take the figures over. Of the rest a record has the name as it is escaped in `status` and
without the blanks around it, the arguments that are not empty, and the lines of the cgroups without
the blanks around each.
-/

namespace Argus

/-- Identity and resource state from `/proc/<pid>/status`. -/
structure ProcessStatus where
  pid : Nat := 0
  ppid : Nat := 0
  name : String := ""
  state : String := ""
  uid : Nat := 0
  threads : Nat := 0
  vmRssKib : Nat := 0
  capEff : Nat := 0
  deriving DecidableEq

/-- CPU accounting and start time from `/proc/<pid>/stat`. -/
structure ProcessStat where
  utime : Nat := 0
  stime : Nat := 0
  startTicks : Nat := 0
  deriving DecidableEq

namespace Process

/-- `str::parse::<u32>`. -/
def parseU32 (text : List Char) : Option Nat := (parseU64 text).filter (· ≤ 4294967295)

def firstU32 (value : List Char) : Option Nat := (words value).head?.bind parseU32

def firstU64 (value : List Char) : Option Nat := (words value).head?.bind parseU64

/-- One line of `status`, less the key that it is of. -/
def set (st : ProcessStatus) (key : String) (value : List Char) : ProcessStatus :=
  match key with
  | "Name" => { st with name := .ofList value }
  | "Pid" => { st with pid := (firstU32 value).getD 0 }
  | "PPid" => { st with ppid := (firstU32 value).getD 0 }
  | "State" => { st with state := .ofList ((words value).head?.getD []) }
  | "Uid" => { st with uid := (firstU32 value).getD 0 }
  | "Threads" => { st with threads := (firstU32 value).getD 0 }
  | "VmRSS" => { st with vmRssKib := (firstU64 value).getD 0 }
  | "CapEff" => { st with capEff := ((words value).head?.bind parseHex).getD 0 }
  | _ => st

def readLine (st : ProcessStatus) (line : List Char) : ProcessStatus :=
  match line.span (· ≠ ':') with
  | (_, []) => st
  | (key, _ :: rest) => set st (.ofList key) (trim (.ofList rest)).toList

/-- Parser over `/proc/<pid>/status` contents. -/
def parse (input : List Char) : Except SensorError ProcessStatus :=
  if trim (.ofList input) = "" then .error ⟨"process.status", "empty status file"⟩
  else .ok ((lines input).foldl readLine {})

/-- What is behind the last closing parenthesis. -/
def afterComm (input : List Char) : Option (List Char) :=
  match input.reverse.span (· ≠ ')') with
  | (_, []) => none
  | (rest, _ :: _) => some rest.reverse

/-- Parser over `/proc/<pid>/stat` contents. -/
def parseStat (input : List Char) : Except SensorError ProcessStat :=
  match afterComm input with
  | none => .error ⟨"process.stat", "missing comm close parenthesis"⟩
  | some rest =>
      let tokens := words rest
      if tokens.length < 20 then
        .error ⟨"process.stat", s!"expected at least 20 stat fields, got {tokens.length}"⟩
      else
        .ok
          { utime := (tokens[11]?.bind parseU64).getD 0
            stime := (tokens[12]?.bind parseU64).getD 0
            startTicks := (tokens[19]?.bind parseU64).getD 0 }

/-- Parser over `/proc/<pid>/cmdline`. -/
def parseCmdline (input : List Char) : List String :=
  ((input.splitOn '\x00').filter (· ≠ [])).map .ofList

/-- Parser over `/proc/<pid>/cgroup`, one membership a line. -/
def parseCgroup (input : List Char) : List String :=
  ((lines input).map fun line => trim (.ofList line)).filter (· ≠ "")

/-! ### Words and figures -/

section Text

variable {text value : List Char} {n : Nat}

theorem parseU64_toDigits (h : n ≤ Checked.maxU64) : parseU64 (Nat.toDigits 10 n) = some n := by
  have hdigits : ∀ c ∈ Nat.toDigits 10 n, c.isDigit = true := fun c hc =>
    Nat.isDigit_of_mem_toDigits (by decide) (by decide) hc
  have hne : Nat.toDigits 10 n ≠ [] := Nat.toDigits_ne_nil
  have hvalue := Nat.ofDigitChars_ten_toDigits (n := n)
  rw [Nat.ofDigitChars_eq_foldl] at hvalue
  generalize Nat.toDigits 10 n = digits at *
  have hany : digits.any (fun c => !c.isDigit) = false := by simpa using hdigits
  unfold parseU64
  split
  · exact absurd (hdigits '+' List.mem_cons_self) (by decide)
  · simp only [hne, hany, false_or, Bool.false_eq_true, if_false, hvalue, if_pos h]

theorem parseU32_toDigits (h : n ≤ 4294967295) : parseU32 (Nat.toDigits 10 n) = some n := by
  have hfits : n ≤ Checked.maxU64 := h.trans (by decide)
  simp [parseU32, parseU64_toDigits hfits, h]

theorem firstU32_eq (hword : (words value).head? = some (Nat.toDigits 10 n))
    (h : n ≤ 4294967295) : firstU32 value = some n := by
  rw [firstU32, hword, Option.bind_some, parseU32_toDigits h]

theorem firstU64_eq (hword : (words value).head? = some (Nat.toDigits 10 n))
    (h : n ≤ Checked.maxU64) : firstU64 value = some n := by
  rw [firstU64, hword, Option.bind_some, parseU64_toDigits h]

theorem trim_append_of_isWhitespace {blank : Char} (h : isWhitespace blank = true) :
    trim (.ofList (text ++ [blank])) = trim (.ofList text) := by
  simp only [trim, String.toList_ofList, List.dropWhile_append]
  split
  · rename_i hempty
    rw [List.isEmpty_iff.mp hempty, List.dropWhile_cons_of_pos h, List.dropWhile_nil]
  · rw [List.reverse_append, List.reverse_singleton, List.singleton_append,
      List.dropWhile_cons_of_pos h]

theorem isWhitespace_of_trim (h : trim (.ofList text) = "") :
    ∀ c ∈ text, isWhitespace c = true := by
  have hempty : ((text.dropWhile isWhitespace).reverse.dropWhile isWhitespace).reverse = [] := by
    rw [trim, String.toList_ofList] at h
    rw [← String.toList_ofList (l := List.reverse _), h]
    rfl
  have hrest := List.dropWhile_eq_nil_iff.mp (List.reverse_eq_nil_iff.mp hempty)
  refine List.dropWhile_eq_nil_iff.mp ?_
  by_contra hne
  have hhead := List.head_dropWhile_not isWhitespace hne
  rw [hrest _ (List.mem_reverse.mpr (List.head_mem hne))] at hhead
  cases hhead

/-- A carriage return at the end of a line is trimmed in any case. -/
theorem trim_stripCr : trim (.ofList (stripCr text)) = trim (.ofList text) := by
  unfold stripCr
  split
  · rename_i hlast
    obtain ⟨front, rfl⟩ := List.getLast?_eq_some_iff.mp hlast
    rw [List.dropLast_concat, trim_append_of_isWhitespace (by decide)]
  · rfl

theorem stripCr_append_tab {front : List Char} :
    stripCr (front ++ '\t' :: text) = front ++ '\t' :: stripCr text := by
  have hlast : (front ++ '\t' :: text).getLast? = some '\r' ↔ text.getLast? = some '\r' := by
    rcases List.eq_nil_or_concat text with rfl | ⟨rest, c, rfl⟩
    · simp
    · rw [List.concat_eq_append, ← List.cons_append, ← List.append_assoc,
        List.getLast?_concat, List.getLast?_concat]
  unfold stripCr
  simp only [hlast]
  split
  · rename_i hcr
    have hne : text ≠ [] := by
      rintro rfl
      cases hcr
    rw [List.dropLast_append_of_ne_nil (by simp), List.dropLast_cons_of_ne_nil hne]
  · rfl

/-- A file whose lines each end in a separator. -/
def ended (separator : Char) (pieces : List (List Char)) : List Char :=
  pieces.flatMap fun piece => piece ++ [separator]

theorem splitOn_ended {separator : Char} {pieces : List (List Char)}
    (h : ∀ piece ∈ pieces, separator ∉ piece) :
    (ended separator pieces).splitOn separator = pieces ++ [[]] := by
  induction pieces with
  | nil => rfl
  | cons piece pieces ih =>
      have hended : ended separator (piece :: pieces) =
          piece ++ separator :: ended separator pieces := by simp [ended]
      rw [hended, List.splitOn_append_cons_self_of_not_mem (h piece List.mem_cons_self),
        ih fun other hother => h other (List.mem_cons_of_mem _ hother), List.cons_append]

theorem lines_ended {pieces : List (List Char)} (h : ∀ piece ∈ pieces, '\n' ∉ piece) :
    lines (ended '\n' pieces) = pieces.map stripCr := by
  simp [lines, splitOn_ended h]

end Text

/-! ### Files of keys and values -/

/-- A file of keys and values, as the kernel writes them. -/
structure StatusFile where
  fields : List (String × List Char)
  nonempty : fields ≠ []
  keys : ∀ field ∈ fields, ':' ∉ field.1.toList ∧ '\n' ∉ field.1.toList
  values : ∀ field ∈ fields, '\n' ∉ field.2

/-- The figures of keys that have the values. -/
def ofValues (get : String → Option (List Char)) : ProcessStatus where
  pid := ((get "Pid").bind firstU32).getD 0
  ppid := ((get "PPid").bind firstU32).getD 0
  name := ((get "Name").map String.ofList).getD ""
  state := .ofList (((get "State").bind fun value => (words value).head?).getD [])
  uid := ((get "Uid").bind firstU32).getD 0
  threads := ((get "Threads").bind firstU32).getD 0
  vmRssKib := ((get "VmRSS").bind firstU64).getD 0
  capEff := ((get "CapEff").bind fun value => (words value).head?.bind parseHex).getD 0

theorem set_ofValues (get : String → Option (List Char)) (key : String) (value : List Char) :
    set (ofValues get) key value = ofValues (Function.update get key (some value)) := by
  unfold set
  split
  case h_9 hname hpid hppid hstate huid hthreads hrss hcap =>
      have hkept {other : String} (h : key = other → False) :
          Function.update get key (some value) other = get other :=
        Function.update_of_ne (fun heq => h heq.symm) _ _
      simp only [ofValues, hkept hname, hkept hpid, hkept hppid, hkept hstate, hkept huid,
        hkept hthreads, hkept hrss, hkept hcap]
  all_goals simp [ofValues]

namespace StatusFile

variable (file : StatusFile) {field : String × List Char}

def line (field : String × List Char) : List Char := field.1.toList ++ ':' :: '\t' :: field.2

def text : List Char := ended '\n' (file.fields.map line)

/-- What a value is read as. -/
def trimmed (value : List Char) : List Char := (trim (.ofList value)).toList

/-- What a key was given last. -/
def given (key : String) : Option (List Char) := file.fields.reverse.lookup key

def value (key : String) : Option (List Char) := (file.given key).map trimmed

/-- The first word of the value. -/
def word (key : String) : Option (List Char) := (file.value key).bind fun v => (words v).head?

theorem readLine_line (hfield : ':' ∉ field.1.toList) (st : ProcessStatus) :
    readLine st (stripCr (line field)) = set st field.1 (trimmed field.2) := by
  have hline : stripCr (line field) = field.1.toList ++ ':' :: '\t' :: stripCr field.2 := by
    have h : stripCr ((field.1.toList ++ [':']) ++ '\t' :: field.2) = _ := stripCr_append_tab
    simpa [line] using h
  have hspan : (stripCr (line field)).span (· ≠ ':') =
      (field.1.toList, ':' :: '\t' :: stripCr field.2) := by
    have hkey : ∀ c ∈ field.1.toList, decide (c ≠ ':') = true := fun c hc =>
      decide_eq_true fun heq => hfield (heq ▸ hc)
    rw [hline, List.span_eq_takeWhile_dropWhile, List.takeWhile_append_of_pos hkey,
      List.dropWhile_append_of_pos hkey]
    simp
  have htrim : trim (.ofList ('\t' :: stripCr field.2)) = trim (.ofList field.2) := by
    refine Eq.trans ?_ trim_stripCr
    simp only [trim, String.toList_ofList]
    rw [List.dropWhile_cons_of_pos (by decide)]
  unfold readLine
  rw [hspan]
  simp only [htrim, String.ofList_toList, trimmed]

/-- Each line sets the value of its key. -/
theorem foldl_readLine {fields : List (String × List Char)}
    (hkeys : ∀ field ∈ fields, ':' ∉ field.1.toList) (get : String → Option (List Char)) :
    ((fields.map line).map stripCr).foldl readLine (ofValues get) =
      ofValues fun key => ((fields.reverse.lookup key).map trimmed).or (get key) := by
  induction fields generalizing get with
  | nil => rfl
  | cons field fields ih =>
      rw [List.map_cons, List.map_cons, List.foldl_cons,
        readLine_line (hkeys field List.mem_cons_self), set_ofValues,
        ih fun other hother => hkeys other (List.mem_cons_of_mem _ hother)]
      congr 1
      funext key
      rw [List.reverse_cons, List.lookup_append, Option.map_or, Option.or_assoc]
      obtain ⟨given, value⟩ := field
      by_cases heq : key = given
      · subst heq
        simp
      · have hother : [(given, value)].lookup key = none := by
          simp [List.lookup_cons, beq_eq_false_iff_ne.mpr heq]
        rw [Function.update_of_ne heq, hother, Option.map_none, Option.none_or]

/-- The parser gets what each key was given last. -/
theorem parse_text : parse file.text = .ok (ofValues file.value) := by
  have hlines : ∀ piece ∈ file.fields.map line, '\n' ∉ piece := by
    intro piece hpiece
    obtain ⟨field, hfield, rfl⟩ := List.mem_map.mp hpiece
    simp [line, (file.keys field hfield).2, file.values field hfield]
  have hblank : trim (.ofList file.text) ≠ "" := by
    intro h
    obtain ⟨field, hfield⟩ := List.exists_mem_of_ne_nil _ file.nonempty
    have hcolon : ':' ∈ file.text := by
      refine List.mem_flatMap.mpr ⟨line field, List.mem_map_of_mem hfield, ?_⟩
      simp [line]
    exact absurd (isWhitespace_of_trim h ':' hcolon) (by decide)
  have hread := foldl_readLine (fun field hfield => (file.keys field hfield).1) fun _ => none
  have hstart : ofValues (fun _ => none) = {} := rfl
  rw [parse, if_neg hblank, text, lines_ended hlines, ← hstart, hread]
  simp only [Option.or_none]
  rfl

end StatusFile

end Process

/-! ### The files of a process -/

open Process

/-- How the kernel writes a character of a name in `status`. -/
def escapeComm : Char → List Char
  | '\n' => ['\\', 'n']
  | '\\' => ['\\', '\\']
  | c => [c]

/-- What the kernel has of a process. Where the name, an argument or a cgroup is no text, the file
that it is in cannot be read as text either. -/
structure Task where
  pid : Nat
  ppid : Nat
  /-- The name, as the process set it. -/
  comm : List Char
  state : Char
  uid : Nat
  threads : Nat
  vmRssKib : Nat
  capEff : Nat
  utime : Nat
  stime : Nat
  startTicks : Nat
  args : List (List Char)
  memberships : List (List Char)

namespace Task

/-- The name in `status`. -/
def escapedComm (task : Task) : List Char := task.comm.flatMap escapeComm

/-! What a record has of a process. -/

def status (task : Task) : ProcessStatus where
  pid := task.pid
  ppid := task.ppid
  name := trim (.ofList task.escapedComm)
  state := .ofList [task.state]
  uid := task.uid
  threads := task.threads
  vmRssKib := task.vmRssKib
  capEff := task.capEff

def stat (task : Task) : ProcessStat := ⟨task.utime, task.stime, task.startTicks⟩

/-- An argument that is empty is not seen. -/
def cmdline (task : Task) : List String := (task.args.filter (· ≠ [])).map .ofList

def cgroup (task : Task) : List String :=
  (task.memberships.map fun line => trim (.ofList line)).filter (· ≠ "")

/-- What can stand in the files: the figures are of the kernel's types, an argument has no NUL, and
the kernel takes no line feed in the name of a cgroup. -/
structure Fits (task : Task) : Prop where
  pid : task.pid ≤ 4294967295
  ppid : task.ppid ≤ 4294967295
  uid : task.uid ≤ 4294967295
  threads : task.threads ≤ 4294967295
  vmRssKib : task.vmRssKib ≤ Checked.maxU64
  capEff : task.capEff ≤ Checked.maxU64
  utime : task.utime ≤ Checked.maxU64
  stime : task.stime ≤ Checked.maxU64
  startTicks : task.startTicks ≤ Checked.maxU64
  args : ∀ arg ∈ task.args, '\x00' ∉ arg
  memberships : ∀ line ∈ task.memberships, '\n' ∉ line

/-- The `cmdline` of a process: each argument ends in a NUL. -/
def cmdlineText (task : Task) : List Char := ended '\x00' task.args

def cgroupText (task : Task) : List Char := ended '\n' task.memberships

end Task

variable {task : Task}

/-- The `status` of a process. A kernel thread has no memory of its own. -/
structure StatusOf (task : Task) extends StatusFile where
  name : toStatusFile.given "Name" = some task.escapedComm
  state : toStatusFile.word "State" = some [task.state]
  pid : toStatusFile.word "Pid" = some (Nat.toDigits 10 task.pid)
  ppid : toStatusFile.word "PPid" = some (Nat.toDigits 10 task.ppid)
  uid : toStatusFile.word "Uid" = some (Nat.toDigits 10 task.uid)
  threads : toStatusFile.word "Threads" = some (Nat.toDigits 10 task.threads)
  vmRssKib : toStatusFile.word "VmRSS" = some (Nat.toDigits 10 task.vmRssKib) ∨
    toStatusFile.value "VmRSS" = none ∧ task.vmRssKib = 0
  capEff : ∃ digits, toStatusFile.word "CapEff" = some digits ∧ digits ≠ [] ∧
    hexValue digits = some task.capEff

/-- The `stat` of a process: behind its name, the rest of the line. -/
structure StatOf (task : Task) where
  rest : List Char
  kernels : ')' ∉ rest
  fields : 20 ≤ (words rest).length
  utime : (words rest)[11]? = some (Nat.toDigits 10 task.utime)
  stime : (words rest)[12]? = some (Nat.toDigits 10 task.stime)
  startTicks : (words rest)[19]? = some (Nat.toDigits 10 task.startTicks)

def StatOf.text (stat : StatOf task) : List Char :=
  Nat.toDigits 10 task.pid ++ [' ', '('] ++ task.comm ++ ')' :: stat.rest

section Status

variable {file : StatusFile} {key : String} {word : List Char} {n : Nat}

theorem value_of_word (h : file.word key = some word) :
    ∃ value, file.value key = some value ∧ (words value).head? = some word :=
  Option.bind_eq_some_iff.mp h

theorem figure_of_word (h : file.word key = some (Nat.toDigits 10 n)) (hfits : n ≤ 4294967295) :
    ((file.value key).bind firstU32).getD 0 = n := by
  obtain ⟨value, hvalue, hword⟩ := value_of_word h
  rw [hvalue, Option.bind_some, firstU32_eq hword hfits, Option.getD_some]

theorem parse_status (hfits : task.Fits) (status : StatusOf task) :
    parse status.text = .ok task.status := by
  rw [StatusFile.parse_text]
  have hname : status.value "Name" = some (StatusFile.trimmed task.escapedComm) := by
    rw [StatusFile.value, status.name, Option.map_some]
  have hstate : ((status.value "State").bind fun value => (words value).head?) =
      some [task.state] := status.state
  have hrss : ((status.value "VmRSS").bind firstU64).getD 0 = task.vmRssKib := by
    rcases status.vmRssKib with hword | ⟨hnone, hzero⟩
    · obtain ⟨value, hvalue, hword⟩ := value_of_word hword
      rw [hvalue, Option.bind_some, firstU64_eq hword hfits.vmRssKib, Option.getD_some]
    · rw [hnone, hzero]
      rfl
  have hcap : ((status.value "CapEff").bind fun value => (words value).head?.bind parseHex).getD 0 =
      task.capEff := by
    obtain ⟨digits, hdigits, hne, hhex⟩ := status.capEff
    obtain ⟨value, hvalue, hword⟩ := value_of_word hdigits
    rw [hvalue, Option.bind_some, hword, Option.bind_some,
      parseHex_of_hexValue hne hhex hfits.capEff, Option.getD_some]
  rw [ofValues, figure_of_word status.pid hfits.pid, figure_of_word status.ppid hfits.ppid,
    figure_of_word status.uid hfits.uid, figure_of_word status.threads hfits.threads, hstate,
    hrss, hcap, hname, Option.map_some, Option.getD_some, Option.getD_some,
    StatusFile.trimmed, String.ofList_toList]
  rfl

end Status

theorem afterComm_append {front rest : List Char} (h : ')' ∉ rest) :
    afterComm (front ++ ')' :: rest) = some rest := by
  have hrest : ∀ c ∈ rest.reverse, decide (c ≠ ')') = true := fun c hc =>
    decide_eq_true fun heq => h (heq ▸ List.mem_reverse.mp hc)
  have hspan : (front ++ ')' :: rest).reverse.span (· ≠ ')') =
      (rest.reverse, ')' :: front.reverse) := by
    rw [List.span_eq_takeWhile_dropWhile, List.reverse_append, List.reverse_cons, List.append_assoc,
      List.takeWhile_append_of_pos hrest, List.dropWhile_append_of_pos hrest]
    simp
  unfold afterComm
  rw [hspan]
  simp only [List.reverse_reverse]

/-- Whatever the process is called. -/
theorem parseStat_stat (hfits : task.Fits) (stat : StatOf task) :
    parseStat stat.text = .ok task.stat := by
  rw [parseStat, StatOf.text, afterComm_append stat.kernels]
  simp only [Nat.not_lt.mpr stat.fields, if_false, stat.utime, stat.stime, stat.startTicks,
    Option.bind_some, parseU64_toDigits hfits.utime, parseU64_toDigits hfits.stime,
    parseU64_toDigits hfits.startTicks, Option.getD_some, Task.stat]

theorem parseCmdline_cmdlineText (hfits : task.Fits) :
    parseCmdline task.cmdlineText = task.cmdline := by
  rw [parseCmdline, Task.cmdlineText, splitOn_ended hfits.args, List.filter_append, Task.cmdline]
  simp

theorem parseCgroup_cgroupText (hfits : task.Fits) :
    parseCgroup task.cgroupText = task.cgroup := by
  rw [parseCgroup, Task.cgroupText, lines_ended hfits.memberships, List.map_map, Task.cgroup]
  simp [Function.comp_def, trim_stripCr]

end Argus
