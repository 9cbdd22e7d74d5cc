import Argus.Daemon.RunbookOrder

/-!
# Sections

What one section of a call leaves behind. A section writes at most one name. What a call that is
midway owes the name is said by the section it is at, and the last section settles it.
-/

namespace Argus

open RunbookManager

/-! ### Functions -/

/-- What is left of a function after each of its sections. -/
def Proper : List LockSection → Prop
  | [] => True
  | .lock :: later =>
      (∃ delivery, later =
        [.review delivery, .storeDelivery, .supersede, .insertRecord, .unlock]) ∨
      (∃ name decision, later = .requireDelivered name :: .decide name decision ::
        persistDelivered name ++ [.unlock]) ∨
      ∃ name gate, later = .recordGate name gate :: persistDelivered name ++ [.unlock]
  | .review _ :: later => later = [.storeDelivery, .supersede, .insertRecord, .unlock]
  | .storeDelivery :: later => later = [.supersede, .insertRecord, .unlock]
  | .supersede :: later => later = [.insertRecord, .unlock]
  | .insertRecord :: later => later = [.unlock]
  | .requireDelivered name :: later =>
      ∃ decision, later = .decide name decision :: persistDelivered name ++ [.unlock]
  | .decide name _ :: later => later = persistDelivered name ++ [.unlock]
  | .recordOutcome name _ :: later => later = persistDelivered name
  | .verdict name _ :: later => later = recordEarnedGate name .policy
  | .recordGate name _ :: later => later = persistDelivered name ++ [.unlock]
  | .snapshot name :: later =>
      later = [.restamp name, .storeRecord] ∨ later = [.restamp name, .storeRecord, .unlock]
  | .restamp _ :: later => later = [.storeRecord] ∨ later = [.storeRecord, .unlock]
  | .storeRecord :: later => later = [] ∨ later = [.unlock]
  | .unlock :: later => later = []

theorem proper_recordEarnedGate (name : String) (gate : Gate) :
    Proper (recordEarnedGate name gate) := .inr (.inr ⟨name, gate, rfl⟩)

theorem Proper.tail {section_ : LockSection} {later : List LockSection}
    (h : Proper (section_ :: later)) : Proper later := by
  cases section_ with
  | lock =>
      rcases h with ⟨delivery, rfl⟩ | ⟨name, decision, rfl⟩ | ⟨name, gate, rfl⟩
      · rfl
      · exact ⟨decision, rfl⟩
      · rfl
  | requireDelivered name =>
      obtain ⟨decision, rfl⟩ := h
      rfl
  | verdict name review =>
      obtain rfl : later = _ := h
      exact proper_recordEarnedGate name .policy
  | recordOutcome name success =>
      obtain rfl : later = _ := h
      exact .inl rfl
  | decide name decision =>
      obtain rfl : later = _ := h
      exact .inr rfl
  | recordGate name gate =>
      obtain rfl : later = _ := h
      exact .inr rfl
  | snapshot name =>
      rcases h with rfl | rfl
      · exact .inl rfl
      · exact .inr rfl
  | restamp name =>
      rcases h with rfl | rfl
      · exact .inl rfl
      · exact .inr rfl
  | storeRecord =>
      rcases h with rfl | rfl
      · trivial
      · rfl
  | _ =>
      obtain rfl : later = _ := h
      first | rfl | trivial

theorem proper_of_mem_program {call : RunbookCall} {sections : List LockSection}
    (h : sections ∈ call.program) : Proper sections := by
  cases call with
  | deliver delivery =>
      obtain rfl := List.mem_singleton.mp h
      exact .inl ⟨delivery, rfl⟩
  | decide name decision =>
      obtain rfl := List.mem_singleton.mp h
      exact .inr (.inl ⟨name, decision, rfl⟩)
  | onAttributedPlanValidated name review =>
      simp only [RunbookCall.program, List.mem_cons, List.not_mem_nil, or_false] at h
      rcases h with rfl | rfl | rfl
      · rfl
      · exact proper_recordEarnedGate name .validation
      · rfl
  | noteProcedureOutcome name success =>
      obtain rfl := List.mem_singleton.mp h
      rfl

namespace RunbookManager

variable {m m' : RunbookManager} {name : String} {locals : Locals}

/-! ### What a call owes a name -/

/-- The row is the record, and the library has a later state of the record's runbook. -/
def Ahead (m : RunbookManager) (name : String) : Prop :=
  m.row name = m.record name ∧ ∀ record, m.record name = some record →
    m.Versioned record ∧ ∃ r, m.library.byName name = some r ∧ r.id = record.runbook.id

/-- What holds of a name while a call is midway on it, before the call's next section. -/
def Owed (m : RunbookManager) (name : String) (locals : Locals) : LockSection → Prop
  | .supersede => ∃ record, locals.record = some record ∧ m.row name = some record ∧
      m.Versioned record
  | .insertRecord => ∃ record, locals.record = some record ∧ m.row name = some record ∧
      m.Versioned record ∧ m.library.byName name = some record.runbook
  | .snapshot _ => m.Ahead name
  | .restamp _ => m.Ahead name ∧
      ∃ r, locals.snapshot = some r ∧ m.library.byName name = some r
  | .storeRecord => ∃ record, locals.record = some record ∧ m.record name = some record ∧
      m.Versioned record ∧ m.library.byName name = some record.runbook
  | _ => True

/-- A delivery that is to enter the library has an identity of its own. -/
def Pending (m : RunbookManager) (locals : Locals) : LockSection → Prop
  | .storeDelivery | .supersede => ∃ record, locals.record = some record ∧
      record.runbook.id < m.minted ∧ ∀ r ∈ m.library.runbooks, r.id ≠ record.runbook.id
  | _ => True

/-- What a name reads is the same. -/
structure SameAt (m m' : RunbookManager) (name : String) : Prop where
  library : m'.library.byName name = m.library.byName name
  record : m'.record name = m.record name
  row : m'.row name = m.row name

theorem SameAt.refl (m : RunbookManager) (name : String) : SameAt m m name := ⟨rfl, rfl, rfl⟩

section Frame

variable (hsame : SameAt m m' name) (htrace : ∀ entry ∈ m.trace, entry ∈ m'.trace)

include hsame htrace

theorem Settled.frame (h : m.Settled name) : m'.Settled name := by
  unfold Settled Versioned at *
  rw [hsame.row, hsame.record, hsame.library]
  exact ⟨h.1, fun record hrecord => ⟨(h.2 record hrecord).1, htrace _ (h.2 record hrecord).2⟩⟩

theorem Ahead.frame (h : m.Ahead name) : m'.Ahead name := by
  unfold Ahead Versioned at *
  rw [hsame.row, hsame.record, hsame.library]
  exact ⟨h.1, fun record hrecord => ⟨htrace _ (h.2 record hrecord).1, (h.2 record hrecord).2⟩⟩

theorem Owed.frame {section_ : LockSection} (h : m.Owed name locals section_) :
    m'.Owed name locals section_ := by
  cases section_ with
  | supersede =>
      obtain ⟨record, hlocal, hrow, hversion⟩ := h
      exact ⟨record, hlocal, hsame.row.trans hrow, htrace _ hversion⟩
  | insertRecord =>
      obtain ⟨record, hlocal, hrow, hversion, hlib⟩ := h
      exact ⟨record, hlocal, hsame.row.trans hrow, htrace _ hversion, hsame.library.trans hlib⟩
  | snapshot => exact Ahead.frame hsame htrace h
  | restamp =>
      obtain ⟨hahead, r, hlocal, hlib⟩ := h
      exact ⟨hahead.frame hsame htrace, r, hlocal, hsame.library.trans hlib⟩
  | storeRecord =>
      obtain ⟨record, hlocal, hrecord, hversion, hlib⟩ := h
      exact ⟨record, hlocal, hsame.record.trans hrecord, htrace _ hversion,
        hsame.library.trans hlib⟩
  | _ => trivial

end Frame

/-! ### One section -/

/-- The name whose runbook, record or row the section writes. -/
def touches (locals : Locals) (section_ : LockSection) : Option String :=
  (section_.behind locals).or ((section_.begins locals).map Prod.fst)

/-- What a call owes a name before the rest of its function. -/
def Due (m : RunbookManager) (name : String) (locals : Locals) : List LockSection → Prop
  | [] => m.Settled name
  | section_ :: _ =>
      if section_.behind locals = some name then m.Owed name locals section_ else m.Settled name

/-- What holds after a section, as the function goes on or leaves. -/
def Ends (m : RunbookManager) (touched : Option String) (later : List LockSection) : Flow → Prop
  | .leave _ => ∀ name, touched = some name → m.Settled name
  | .next locals => (∀ name, touched = some name → m.Due name locals later) ∧
      ∀ first ∈ later.head?, m.Pending locals first ∧
        ∀ name, first.behind locals = some name → touched = some name

/-- What one section of a function does. -/
structure Executed (m : RunbookManager) (locals : Locals) (section_ : LockSection)
    (later : List LockSection) (result : RunbookManager × Flow) : Prop where
  minted : ∀ r ∈ result.1.library.runbooks, r.id < result.1.minted
  pending : section_ = .supersede ∨ ∀ locals' other, m.Pending locals' other →
    result.1.Pending locals' other
  same : ∀ name, touches locals section_ ≠ some name → SameAt m result.1 name
  trace : ∀ entry ∈ m.trace, entry ∈ result.1.trace
  ends : result.1.Ends (touches locals section_) later result.2

theorem owed_of_due {section_ : LockSection} {later : List LockSection}
    (hbegins : section_.begins locals = none)
    (htouches : touches locals section_ = some name) (h : m.Due name locals (section_ :: later)) :
    m.Owed name locals section_ := by
  rw [touches, hbegins, Option.map_none, Option.or_none] at htouches
  rwa [Due, if_pos htouches] at h

section Executed

variable {later : List LockSection} {section_ : LockSection}
  (hminted : ∀ r ∈ m.library.runbooks, r.id < m.minted)

include hminted

/-- A section that writes nothing. -/
theorem executed_idle {flow : Flow} (htouches : touches locals section_ = none)
    (hnext : ∀ locals', flow = .next locals' → ∀ first ∈ later.head?,
      m.Pending locals' first ∧ first.behind locals' = none) :
    Executed m locals section_ later (m, flow) where
  minted := hminted
  pending := .inr fun _ _ h => h
  same := fun name _ => .refl m name
  trace := fun _ h => h
  ends := by
    cases flow with
    | leave reason =>
        intro name hname
        rw [htouches] at hname
        cases hname
    | next locals' =>
        refine ⟨fun name hname => ?_, fun first hfirst => ?_⟩
        · rw [htouches] at hname
          cases hname
        · obtain ⟨hpending, hbehind⟩ := hnext locals' rfl first hfirst
          refine ⟨hpending, fun name hname => ?_⟩
          rw [hbehind] at hname
          cases hname

theorem executed_review (delivery : Delivery) :
    Executed m locals (.review delivery)
      [.storeDelivery, .supersede, .insertRecord, .unlock] (m.exec locals (.review delivery)) := by
  have hpending : ∀ locals' other, m.Pending locals' other →
      ({ m with minted := m.minted + 1 } : RunbookManager).Pending locals' other := by
    intro locals' other h
    cases other with
    | storeDelivery | supersede =>
        obtain ⟨record, hlocal, hlt, hne⟩ := h
        exact ⟨record, hlocal, Nat.lt_succ_of_lt hlt, hne⟩
    | _ => trivial
  have hless : ∀ r ∈ m.library.runbooks, r.id < m.minted + 1 :=
    fun r hr => Nat.lt_succ_of_lt (hminted r hr)
  rw [exec]
  cases hreview : delivery.review m.minted with
  | error reason =>
      dsimp only
      exact ⟨hless, .inr hpending, fun name _ => ⟨rfl, rfl, rfl⟩, fun _ h => h,
        fun name hname => (by cases hname)⟩
  | ok reviewed =>
      dsimp only
      obtain ⟨-, -, hid, -⟩ := Delivery.review_spec hreview
      refine ⟨hless, .inr hpending, fun name _ => ⟨rfl, rfl, rfl⟩, fun _ h => h,
        fun name hname => (by cases hname), fun first hfirst => ?_⟩
      obtain rfl : .storeDelivery = first := Option.some.inj hfirst
      refine ⟨⟨_, rfl, ?_, fun r hr heq => ?_⟩, fun name hname => (by cases hname)⟩
      · exact hid ▸ Nat.lt_succ_self _
      · have hlt := hminted r hr
        have hsame : r.id = m.minted := heq.trans hid
        omega

theorem executed_storeDelivery (hpending : m.Pending locals .storeDelivery) :
    Executed m locals .storeDelivery [.supersede, .insertRecord, .unlock]
      (m.exec locals .storeDelivery) := by
  obtain ⟨record, hlocal, hlt, hne⟩ := hpending
  have htouches : touches locals .storeDelivery = some record.name := by
    simp [touches, LockSection.behind, LockSection.begins, hlocal]
  rw [exec, hlocal]
  refine ⟨hminted, .inr fun _ _ h => h, fun name hname => ?_, fun entry h => ?_,
    fun name hname => ?_, fun first hfirst => ?_⟩
  · rw [htouches, ne_eq, Option.some.injEq] at hname
    exact ⟨rfl, rfl, (row_putRow record).trans (if_neg hname)⟩
  · exact List.mem_append_left _ h
  · obtain rfl : record.name = name := Option.some.inj (htouches.symm.trans hname)
    show if _ then _ else _
    rw [if_pos (by simp [LockSection.behind, hlocal])]
    refine ⟨record, hlocal, (row_putRow record).trans (if_pos rfl), ?_⟩
    exact List.mem_append_right _ List.mem_cons_self
  · obtain rfl : .supersede = first := Option.some.inj hfirst
    refine ⟨⟨record, hlocal, hlt, hne⟩, fun name hname => ?_⟩
    rw [htouches, ← hname]
    simp [LockSection.behind, hlocal]

theorem executed_supersede (hpending : m.Pending locals .supersede)
    (howed : ∀ name, touches locals .supersede = some name → m.Owed name locals .supersede) :
    Executed m locals .supersede [.insertRecord, .unlock] (m.exec locals .supersede) := by
  obtain ⟨record, hlocal, hlt, hne⟩ := hpending
  have htouches : touches locals .supersede = some record.name := by
    simp [touches, LockSection.behind, LockSection.begins, hlocal]
  obtain ⟨library, hlibrary⟩ := m.library.register_remove record.runbook
  have hread {other : String} := @byName_supersede m record library other hlibrary hne
  have hexec : m.exec locals .supersede = ({ m with library := library }, .next locals) := by
    rw [exec, hlocal]
    dsimp only
    rw [hlibrary]
  rw [hexec]
  refine ⟨fun r hr => ?_, .inl rfl, fun name hname => ?_, fun _ h => h, fun name hname => ?_,
    fun first hfirst => ?_⟩
  · rcases (RunbookLibrary.mem_register hlibrary).mp hr with rfl | ⟨hold, -⟩
    · exact hlt
    · exact hminted r (RunbookLibrary.mem_remove.mp hold).1
  · rw [htouches, ne_eq, Option.some.injEq] at hname
    exact ⟨hread.trans (if_neg hname), rfl, rfl⟩
  · obtain ⟨other, hother, hrow, hversion⟩ := howed name hname
    obtain rfl : record = other := Option.some.inj (hlocal.symm.trans hother)
    obtain rfl : record.name = name := Option.some.inj (htouches.symm.trans hname)
    show if _ then _ else _
    rw [if_pos (by simp [LockSection.behind, hlocal])]
    exact ⟨record, hlocal, hrow, hversion, hread.trans (if_pos rfl)⟩
  · obtain rfl : .insertRecord = first := Option.some.inj hfirst
    refine ⟨trivial, fun name hname => ?_⟩
    rw [htouches, ← hname]
    simp [LockSection.behind, hlocal]

theorem executed_insertRecord
    (howed : ∀ name, touches locals .insertRecord = some name →
      m.Owed name locals .insertRecord) :
    Executed m locals .insertRecord [.unlock] (m.exec locals .insertRecord) := by
  rw [exec]
  cases hlocal : locals.record with
  | none =>
      have htouches : touches locals .insertRecord = none := by
        simp [touches, LockSection.behind, LockSection.begins, hlocal]
      exact executed_idle hminted htouches fun _ h => by cases h
  | some record =>
      have htouches : touches locals .insertRecord = some record.name := by
        simp [touches, LockSection.behind, LockSection.begins, hlocal]
      refine ⟨hminted, .inr fun _ _ h => h, fun name hname => ?_, fun _ h => h,
        fun name hname => ?_, fun first hfirst => ?_⟩
      · rw [htouches, ne_eq, Option.some.injEq] at hname
        exact ⟨rfl, (record_putRecord record).trans (if_neg hname), rfl⟩
      · obtain ⟨other, hother, hrow, hversion, hlib⟩ := howed name hname
        obtain rfl : record = other := Option.some.inj (hlocal.symm.trans hother)
        obtain rfl : record.name = name := Option.some.inj (htouches.symm.trans hname)
        have hrecord : (m.putRecord record).record record.name = some record :=
          (record_putRecord record).trans (if_pos rfl)
        refine ⟨hrow.trans hrecord.symm, fun other hother => ?_⟩
        obtain rfl : record = other := Option.some.inj (hrecord.symm.trans hother)
        exact ⟨hlib, hversion⟩
      · obtain rfl : .unlock = first := Option.some.inj hfirst
        exact ⟨trivial, fun name hname => by cases hname⟩

/-- A function that leaves before it moved the runbook. -/
theorem executed_left {name : String} {reason : Option String}
    (htouches : touches locals section_ = some name) (hsettled : m.Settled name) :
    Executed m locals section_ later (m, .leave reason) := by
  refine ⟨hminted, .inr fun _ _ h => h, fun _ _ => .refl _ _, fun _ h => h, fun other hother => ?_⟩
  obtain rfl : name = other := Option.some.inj (htouches.symm.trans hother)
  exact hsettled

/-- A runbook of the library moves: the row and the record are as they were. -/
theorem executed_move {name : String} {r r' : LibraryRunbook} {notes : List LadderNote}
    (rest : List LockSection) (htouches : touches locals section_ = some name)
    (hr : m.library.byName name = some r) (hid : r'.id = r.id) (hname : r'.name = r.name)
    (hsettled : m.Settled name) :
    Executed m locals section_ (persistDelivered name ++ rest)
      (m.move r' notes, .next locals) := by
  have hread {other : String} := @byName_move m name r r' notes other hr hid hname
  have hmem (x : LibraryRunbook) := @RunbookLibrary.mem_replace _ _ r' _ hr hid hname x
  have hrmem := RunbookLibrary.mem_of_byName hr
  have hids : ∀ x ∈ (m.move r' notes).library.runbooks, ∃ y ∈ m.library.runbooks, x.id = y.id := by
    intro x hx
    rcases (hmem x).mp hx with rfl | ⟨hold, -⟩
    · exact ⟨r, hrmem, hid⟩
    · exact ⟨x, hold, rfl⟩
  refine ⟨fun x hx => ?_, .inr fun locals' other h => ?_, fun other hother => ?_,
    fun entry h => List.mem_append_left _ h, fun other hother => ?_, fun first hfirst => ?_⟩
  · obtain ⟨y, hy, heq⟩ := hids x hx
    exact heq ▸ hminted y hy
  · cases other with
    | storeDelivery | supersede =>
        obtain ⟨record, hlocal, hlt, hne⟩ := h
        refine ⟨record, hlocal, hlt, fun x hx => ?_⟩
        obtain ⟨y, hy, heq⟩ := hids x hx
        exact heq ▸ hne y hy
    | _ => trivial
  · rw [htouches, ne_eq, Option.some.injEq] at hother
    exact ⟨hread.trans (if_neg hother), rfl, rfl⟩
  · obtain rfl : name = other := Option.some.inj (htouches.symm.trans hother)
    show if _ then _ else _
    rw [if_pos (by rfl)]
    refine ⟨hsettled.1, fun record hrecord => ?_⟩
    obtain ⟨hlib, hversion⟩ := hsettled.2 record hrecord
    obtain rfl : r = record.runbook := Option.some.inj (hr.symm.trans hlib)
    exact ⟨List.mem_append_left _ hversion, r', hread.trans (if_pos rfl), hid⟩
  · obtain rfl : .snapshot name = first := Option.some.inj hfirst
    exact ⟨trivial, fun other hother => htouches.trans hother⟩

theorem executed_snapshot {name : String} (howed : m.Ahead name)
    {rest : List LockSection} :
    Executed m locals (.snapshot name) (.restamp name :: rest)
      (m.exec locals (.snapshot name)) := by
  rw [exec]
  cases hlib : m.library.byName name with
  | none =>
      refine ⟨hminted, .inr fun _ _ h => h, fun _ _ => .refl _ _, fun _ h => h,
        fun other hother => ?_⟩
      obtain rfl : name = other := Option.some.inj hother
      refine ⟨howed.1, fun record hrecord => ?_⟩
      obtain ⟨-, r, hr, -⟩ := howed.2 record hrecord
      rw [hlib] at hr
      cases hr
  | some r =>
      refine ⟨hminted, .inr fun _ _ h => h, fun _ _ => .refl _ _, fun _ h => h,
        fun other hother => ?_, fun first hfirst => ?_⟩
      · obtain rfl : name = other := Option.some.inj hother
        show if _ then _ else _
        rw [if_pos (by rfl)]
        exact ⟨howed, r, rfl, hlib⟩
      · obtain rfl : .restamp name = first := Option.some.inj hfirst
        exact ⟨trivial, fun other hother => hother⟩

theorem executed_restamp {name : String} (howed : m.Owed name locals (.restamp name))
    {rest : List LockSection} :
    Executed m locals (.restamp name) (.storeRecord :: rest)
      (m.exec locals (.restamp name)) := by
  obtain ⟨hahead, r, hlocal, hlib⟩ := howed
  have hnamed := RunbookLibrary.name_of_byName hlib
  rw [exec, hlocal]
  cases hrecord : m.record name with
  | none =>
      dsimp only
      refine ⟨hminted, .inr fun _ _ h => h, fun _ _ => .refl _ _, fun _ h => h,
        fun other hother => ?_⟩
      obtain rfl : name = other := Option.some.inj hother
      exact ⟨hahead.1, fun record h => by rw [hrecord] at h; cases h⟩
  | some record =>
      dsimp only
      have hbehind : (some { record with runbook := r }).map DeliveredRunbook.name = some name :=
        congrArg some hnamed
      have hread (other : String) := @record_putRecord m other { record with runbook := r }
      refine ⟨hminted, .inr fun _ _ h => h, fun other hother => ?_, fun _ h => h,
        fun other hother => ?_, fun first hfirst => ?_⟩
      · have hne : name ≠ other := fun h => hother (congrArg some h)
        exact ⟨rfl, (hread other).trans (if_neg fun h => hne (hnamed.symm.trans h)), rfl⟩
      · obtain rfl : name = other := Option.some.inj hother
        obtain ⟨hversion, x, hx, hid⟩ := hahead.2 record hrecord
        obtain rfl : r = x := Option.some.inj (hlib.symm.trans hx)
        show if _ then _ else _
        rw [if_pos (by exact hbehind)]
        refine ⟨{ record with runbook := r }, rfl, (hread name).trans (if_pos hnamed), ?_, hlib⟩
        show (r.id, _) ∈ m.trace
        exact hid ▸ hversion
      · obtain rfl : .storeRecord = first := Option.some.inj hfirst
        refine ⟨trivial, fun other hother => ?_⟩
        exact (congrArg some hnamed.symm).trans hother

theorem executed_storeRecord
    (howed : ∀ name, touches locals .storeRecord = some name → m.Owed name locals .storeRecord)
    (hlater : later = [] ∨ later = [.unlock]) :
    Executed m locals .storeRecord later (m.exec locals .storeRecord) := by
  rw [exec]
  cases hlocal : locals.record with
  | none =>
      have htouches : touches locals .storeRecord = none := by
        simp [touches, LockSection.behind, LockSection.begins, hlocal]
      exact executed_idle hminted htouches fun _ h => by cases h
  | some record =>
      have htouches : touches locals .storeRecord = some record.name := by
        simp [touches, LockSection.behind, LockSection.begins, hlocal]
      refine ⟨hminted, .inr fun _ _ h => h, fun name hname => ?_, fun _ h => h,
        fun name hname => ?_, fun first hfirst => ?_⟩
      · rw [htouches, ne_eq, Option.some.injEq] at hname
        exact ⟨rfl, rfl, (row_putRow record).trans (if_neg hname)⟩
      · obtain ⟨other, hother, hrecord, hversion, hlib⟩ := howed name hname
        obtain rfl : record = other := Option.some.inj (hlocal.symm.trans hother)
        obtain rfl : record.name = name := Option.some.inj (htouches.symm.trans hname)
        have hsettled : (m.putRow record).Settled record.name := by
          refine ⟨((row_putRow record).trans (if_pos rfl)).trans hrecord.symm, fun x hx => ?_⟩
          obtain rfl : record = x := Option.some.inj (hrecord.symm.trans hx)
          exact ⟨hlib, hversion⟩
        rcases hlater with rfl | rfl <;> exact hsettled
      · rcases hlater with rfl | rfl
        · cases hfirst
        · obtain rfl : .unlock = first := Option.some.inj hfirst
          exact ⟨trivial, fun name hname => by cases hname⟩

/-- The review of a plan's capabilities moves nothing, whichever way it goes on. -/
theorem executed_verdict {name : String} (review : PolicyReview) :
    Executed m locals (.verdict name review) (recordEarnedGate name .policy)
      (m.exec locals (.verdict name review)) := by
  have hnext {flow : Flow} : Executed m locals (.verdict name review)
      (recordEarnedGate name .policy) (m, flow) := by
    refine executed_idle hminted rfl fun _ _ first hfirst => ?_
    obtain rfl : .lock = first := Option.some.inj hfirst
    exact ⟨trivial, rfl⟩
  rw [exec]
  cases m.library.byName name with
  | none => exact hnext
  | some r =>
      dsimp only
      cases r.hasReached .validation with
      | false => exact hnext
      | true => cases policyCompatible r review <;> exact hnext

/-- Every section but the wait, where its name is settled or owed what the section needs. -/
theorem executed (hproper : Proper (section_ :: later)) (hlock : section_.isLock = false)
    (hpending : m.Pending locals section_)
    (hdue : ∀ name, touches locals section_ = some name → m.Due name locals (section_ :: later)) :
    Executed m locals section_ later (m.exec locals section_) := by
  cases section_ with
  | lock => cases hlock
  | unlock =>
      obtain rfl : later = [] := hproper
      exact executed_idle hminted rfl fun _ _ first h => by cases h
  | review delivery =>
      obtain rfl : later = _ := hproper
      exact executed_review hminted delivery
  | storeDelivery =>
      obtain rfl : later = _ := hproper
      exact executed_storeDelivery hminted hpending
  | supersede =>
      obtain rfl : later = _ := hproper
      exact executed_supersede hminted hpending fun name h => owed_of_due rfl h (hdue name h)
  | insertRecord =>
      obtain rfl : later = _ := hproper
      exact executed_insertRecord hminted fun name h => owed_of_due rfl h (hdue name h)
  | storeRecord =>
      exact executed_storeRecord hminted (fun name h => owed_of_due rfl h (hdue name h)) hproper
  | snapshot name =>
      have howed := owed_of_due rfl rfl (hdue name rfl)
      rcases hproper with rfl | rfl <;> exact executed_snapshot hminted howed
  | restamp name =>
      have howed := owed_of_due rfl rfl (hdue name rfl)
      rcases hproper with rfl | rfl <;> exact executed_restamp hminted howed
  | requireDelivered name =>
      obtain ⟨decision, rfl⟩ := hproper
      rw [exec]
      cases m.record name with
      | none => exact executed_idle hminted rfl fun _ h => by cases h
      | some record =>
          refine executed_idle hminted rfl fun _ _ first hfirst => ?_
          obtain rfl : .decide name decision = first := Option.some.inj hfirst
          exact ⟨trivial, rfl⟩
  | verdict name review =>
      obtain rfl : later = _ := hproper
      exact executed_verdict hminted review
  | decide name decision =>
      obtain rfl : later = _ := hproper
      have hsettled : m.Settled name := hdue name rfl
      rw [exec]
      cases hr : m.library.byName name with
      | none => exact executed_left hminted rfl hsettled
      | some r =>
          dsimp only
          cases happly : decision.apply r with
          | error error => exact executed_left hminted rfl hsettled
          | ok r' =>
              have hclimbs := Decision.climbs happly
              exact executed_move hminted [.unlock] rfl hr hclimbs.id hclimbs.name hsettled
  | recordOutcome name success =>
      obtain rfl : later = _ := hproper
      have hsettled : m.Settled name := hdue name rfl
      rw [exec]
      cases hr : m.library.byName name with
      | none => exact executed_left hminted rfl hsettled
      | some r =>
          exact executed_move hminted [] rfl hr rfl rfl hsettled
  | recordGate name gate =>
      obtain rfl : later = _ := hproper
      have hsettled : m.Settled name := hdue name rfl
      rw [exec]
      cases hr : m.library.byName name with
      | none => exact executed_left hminted rfl hsettled
      | some r =>
          dsimp only
          cases hrecord : r.recordGate gate with
          | error error => exact executed_left hminted rfl hsettled
          | ok r' =>
              obtain ⟨-, rfl⟩ := LibraryRunbook.recordGate_eq_ok_iff.mp hrecord
              exact executed_move hminted [.unlock] rfl hr rfl rfl hsettled

end Executed

end RunbookManager

end Argus
