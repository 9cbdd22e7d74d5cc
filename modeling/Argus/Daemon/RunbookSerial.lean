import Argus.Daemon.RunbookSections

/-!
# Serial recordings

Of one name at most one call is midway: the mutex keeps deliveries, decisions and gates apart, and
the recordings of outcomes are serial. A name with no call midway is settled, and so every name is
once all calls have finished.
-/

namespace Argus

open RunbookManager

/-! ### Threads -/

/-- A function as it starts: nothing of it is midway or pending. -/
theorem opening_of_mem_program {call : RunbookCall} {sections : List LockSection}
    (h : sections ∈ call.program) :
    (∀ first ∈ sections.head?, ∀ (m : RunbookManager) (locals : Locals),
      m.Pending locals first ∧ first.behind locals = none) ∧
    (sections.any LockSection.isUnlock && !sections.any LockSection.isLock) = false := by
  have hopening (first : LockSection) (later : List LockSection)
      (hfirst : first.isLock = true ∨ (∃ name success, first = .recordOutcome name success) ∨
        ∃ name review, first = .verdict name review) :
      ∀ other ∈ (first :: later).head?, ∀ (m : RunbookManager) (locals : Locals),
        m.Pending locals other ∧ other.behind locals = none := by
    intro other hother m locals
    obtain rfl : first = other := Option.some.inj hother
    rcases hfirst with hlock | ⟨name, success, rfl⟩ | ⟨name, review, rfl⟩
    · cases first <;> first | exact ⟨trivial, rfl⟩ | cases hlock
    · exact ⟨trivial, rfl⟩
    · exact ⟨trivial, rfl⟩
  cases call with
  | deliver delivery =>
      obtain rfl := List.mem_singleton.mp h
      exact ⟨hopening _ _ (.inl rfl), rfl⟩
  | decide name decision =>
      obtain rfl := List.mem_singleton.mp h
      exact ⟨hopening _ _ (.inl rfl), rfl⟩
  | onAttributedPlanValidated name review =>
      simp only [RunbookCall.program, List.mem_cons, List.not_mem_nil, or_false] at h
      rcases h with rfl | rfl | rfl
      · exact ⟨hopening _ _ (.inr (.inl ⟨name, true, rfl⟩)), rfl⟩
      · exact ⟨hopening _ _ (.inl rfl), rfl⟩
      · exact ⟨hopening _ _ (.inr (.inr ⟨name, review, rfl⟩)), rfl⟩
  | noteProcedureOutcome name success =>
      obtain rfl := List.mem_singleton.mp h
      exact ⟨hopening _ _ (.inr (.inl ⟨name, success, rfl⟩)), rfl⟩

/-- What is left of a function after the wait for the mutex does not wait again. -/
theorem Proper.any_isLock {section_ : LockSection} {later : List LockSection}
    (h : Proper (section_ :: later)) (hlock : section_.isLock = false)
    (hverdict : ∀ name review, section_ ≠ .verdict name review) :
    (section_ :: later).any LockSection.isLock = false := by
  cases section_ with
  | lock => cases hlock
  | verdict name review => exact absurd rfl (hverdict name review)
  | requireDelivered name =>
      obtain ⟨decision, rfl⟩ := h
      rfl
  | snapshot name | restamp name | storeRecord => rcases h with rfl | rfl <;> rfl
  | _ =>
      obtain rfl : later = _ := h
      rfl

namespace RunbookThread

variable {t : RunbookThread} {section_ : LockSection} {later : List LockSection} {name : String}

theorem midway_cons (h : t.current = section_ :: later) : t.midway = section_.behind t.locals := by
  rw [midway, h]
  rfl

theorem begins_cons (h : t.current = section_ :: later) : t.begins = section_.begins t.locals := by
  rw [begins, h]
  rfl

theorem holds_eq (hproper : Proper t.current) (h : t.current = section_ :: later)
    (hlock : section_.isLock = false) (hverdict : ∀ name review, section_ ≠ .verdict name review) :
    t.holds = t.guarded := by
  have hrest : Proper (section_ :: later) := h ▸ hproper
  rw [holds, h, hrest.any_isLock hlock hverdict, Bool.not_false, Bool.and_true]

/-- A function that is midway and guarded holds the mutex. -/
theorem holds_of_midway (hproper : Proper t.current) (hmidway : t.midway = some name)
    (hguarded : t.guarded = true) : t.holds = true := by
  cases hcurrent : t.current with
  | nil => simp [midway, hcurrent] at hmidway
  | cons section_ later =>
      rw [midway_cons hcurrent] at hmidway
      rw [holds_eq hproper hcurrent, hguarded]
      · cases section_ <;> first | rfl | cases hmidway
      · rintro _ _ rfl
        cases hmidway

/-- A function that begins a sequence other than the recording of an outcome holds the mutex. -/
theorem holds_of_begins (hproper : Proper t.current) (hbegins : t.begins = some (name, false)) :
    t.holds = true := by
  cases hcurrent : t.current with
  | nil => simp [begins, hcurrent] at hbegins
  | cons section_ later =>
      rw [begins_cons hcurrent] at hbegins
      rw [hcurrent] at hproper
      rw [holds, guarded, hcurrent]
      cases section_ with
      | storeDelivery | decide | recordGate =>
          obtain rfl : later = _ := hproper
          rfl
      | _ => cases hbegins

end RunbookThread

namespace RunbookManager

variable {m m' : RunbookManager} {name : String}

theorem Due.frame (hsame : SameAt m m' name) (htrace : ∀ entry ∈ m.trace, entry ∈ m'.trace)
    {locals : Locals} {sections : List LockSection} (h : m.Due name locals sections) :
    m'.Due name locals sections := by
  cases sections with
  | nil => exact Settled.frame hsame htrace h
  | cons section_ later =>
      by_cases hbehind : section_.behind locals = some name
      · rw [Due, if_pos hbehind] at h ⊢
        exact Owed.frame hsame htrace h
      · rw [Due, if_neg hbehind] at h ⊢
        exact Settled.frame hsame htrace h

theorem due_iff_settled {t : RunbookThread} (h : t.midway ≠ some name) :
    m.Due name t.locals t.current ↔ m.Settled name := by
  cases hcurrent : t.current with
  | nil => exact .rfl
  | cons section_ later =>
      rw [RunbookThread.midway_cons hcurrent] at h
      rw [Due, if_neg h]

end RunbookManager

/-! ### The host -/

namespace RunbookHost

variable {s : RunbookHost} {i : Nat} {t : RunbookThread}

structure Ordered (s : RunbookHost) : Prop where
  minted : ∀ r ∈ s.manager.library.runbooks, r.id < s.manager.minted
  proper : ∀ (i : Nat) t, s.threads[i]? = some t → Proper t.current
  waiting : ∀ (i : Nat) t, s.threads[i]? = some t →
    ∀ sections ∈ t.program.tail, ∃ call : RunbookCall, sections ∈ call.program
  pending : ∀ (i : Nat) t, s.threads[i]? = some t →
    ∀ first ∈ t.current.head?, s.manager.Pending t.locals first
  holder : ∀ i t, s.threads[i]? = some t → t.holds = true → s.order = some i
  alone : ∀ (i j : Nat) t u name, s.threads[i]? = some t → s.threads[j]? = some u →
    t.midway = some name → u.midway = some name → i = j
  due : ∀ (i : Nat) t, s.threads[i]? = some t → ∀ name, t.midway = some name →
    s.manager.Due name t.locals t.current
  settled : ∀ name, (∀ (i : Nat) t, s.threads[i]? = some t → t.midway ≠ some name) →
    s.manager.Settled name

/-- A thread as its next function starts. -/
structure Opening (m : RunbookManager) (t : RunbookThread) : Prop where
  proper : Proper t.current
  waiting : ∀ sections ∈ t.program.tail, ∃ call : RunbookCall, sections ∈ call.program
  pending : ∀ first ∈ t.current.head?, m.Pending t.locals first
  holds : t.holds = false
  midway : t.midway = none

theorem opening_of_program {program : List (List LockSection)}
    (h : ∀ sections ∈ program, ∃ call : RunbookCall, sections ∈ call.program)
    (m : RunbookManager) (locals : Locals) : Opening m ⟨program, locals⟩ := by
  cases program with
  | nil => exact ⟨trivial, fun _ h => (by cases h), fun _ h => (by cases h), rfl, rfl⟩
  | cons sections rest =>
      obtain ⟨call, hcall⟩ := h sections List.mem_cons_self
      obtain ⟨hfirst, hholds⟩ := opening_of_mem_program hcall
      refine ⟨proper_of_mem_program hcall, fun other ho => h other (List.mem_cons_of_mem _ ho),
        fun first hf => (hfirst first hf m locals).1, hholds, ?_⟩
      unfold RunbookThread.midway RunbookThread.current
      cases hhead : sections.head? with
      | none => simp [hhead]
      | some first =>
          rw [List.headD_cons, hhead]
          exact (hfirst first hhead m locals).2

namespace Ordered

/-- A thread goes on, and what it wrote is of one name at most, of which no other thread is in the
middle. -/
theorem advanced (h : s.Ordered) (touched : Option String) (ht : s.threads[i]? = some t)
    {m : RunbookManager} {order : Option Nat} {t' : RunbookThread}
    (hminted : ∀ r ∈ m.library.runbooks, r.id < m.minted) (hproper : Proper t'.current)
    (hwaiting : ∀ sections ∈ t'.program.tail, ∃ call : RunbookCall, sections ∈ call.program)
    (hpending : ∀ first ∈ t'.current.head?, m.Pending t'.locals first)
    (hothers : ∀ j u, j ≠ i → s.threads[j]? = some u → ∀ first ∈ u.current.head?,
      s.manager.Pending u.locals first → m.Pending u.locals first)
    (hholds : t'.holds = true → order = some i)
    (horder : ∀ j u, j ≠ i → s.threads[j]? = some u → u.holds = true → order = some j)
    (hsame : ∀ name, touched ≠ some name → SameAt s.manager m name)
    (htrace : ∀ entry ∈ s.manager.trace, entry ∈ m.trace)
    (hclear : ∀ j u name, j ≠ i → s.threads[j]? = some u → touched = some name →
      u.midway ≠ some name)
    (hbefore : ∀ name, t.midway = some name → touched = some name)
    (hafter : ∀ name, t'.midway = some name → touched = some name)
    (hdue : ∀ name, touched = some name → m.Due name t'.locals t'.current) :
    Ordered ⟨m, order, s.threads.set i t'⟩ := by
  have hlt : i < s.threads.length := (List.getElem?_eq_some_iff.mp ht).1
  have hself : (s.threads.set i t')[i]? = some t' := List.getElem?_set_self hlt
  have hother {j : Nat} (hj : j ≠ i) : (s.threads.set i t')[j]? = s.threads[j]? :=
    List.getElem?_set_ne (Ne.symm hj)
  have hcases {j : Nat} {u : RunbookThread} (hu : (s.threads.set i t')[j]? = some u) :
      j = i ∧ u = t' ∨ j ≠ i ∧ s.threads[j]? = some u := by
    by_cases hj : j = i
    · subst hj
      exact .inl ⟨rfl, Option.some.inj (hu.symm.trans hself)⟩
    · exact .inr ⟨hj, (hother hj).symm.trans hu⟩
  refine ⟨hminted, fun j u hu => ?_, fun j u hu => ?_, fun j u hu => ?_, fun j u hu hh => ?_,
    fun j k u v name hu hv hun hvn => ?_, fun j u hu name hname => ?_, fun name hnone => ?_⟩
  · rcases hcases hu with ⟨rfl, rfl⟩ | ⟨hj, hold⟩
    · exact hproper
    · exact h.proper j u hold
  · rcases hcases hu with ⟨rfl, rfl⟩ | ⟨hj, hold⟩
    · exact hwaiting
    · exact h.waiting j u hold
  · rcases hcases hu with ⟨rfl, rfl⟩ | ⟨hj, hold⟩
    · exact hpending
    · exact fun first hf => hothers j u hj hold first hf (h.pending j u hold first hf)
  · rcases hcases hu with ⟨rfl, rfl⟩ | ⟨hj, hold⟩
    · exact hholds hh
    · exact horder j u hj hold hh
  · rcases hcases hu with ⟨rfl, rfl⟩ | ⟨hj, hold⟩ <;> rcases hcases hv with ⟨rfl, rfl⟩ | ⟨hk, hold'⟩
    · rfl
    · exact absurd hvn (hclear k v name hk hold' (hafter name hun))
    · exact absurd hun (hclear j u name hj hold (hafter name hvn))
    · exact h.alone j k u v name hold hold' hun hvn
  · rcases hcases hu with ⟨rfl, rfl⟩ | ⟨hj, hold⟩
    · exact hdue name (hafter name hname)
    · refine Due.frame (hsame name fun htouched => ?_) htrace (h.due j u hold name hname)
      exact hclear j u name hj hold htouched hname
  · by_cases htouched : touched = some name
    · exact (due_iff_settled (hnone i t' hself)).mp (hdue name htouched)
    · refine Settled.frame (hsame name htouched) htrace (h.settled name fun j u hu => ?_)
      by_cases hj : j = i
      · subst hj
        obtain rfl : t = u := Option.some.inj (ht.symm.trans hu)
        exact fun hname => htouched (hbefore name hname)
      · exact hnone j u ((hother hj).trans hu)

/-- The next function of a thread starts, and nothing was written. -/
theorem opened (h : s.Ordered) (ht : s.threads[i]? = some t) (hmidway : t.midway = none)
    {rest : List (List LockSection)}
    (hrest : ∀ sections ∈ rest, ∃ call : RunbookCall, sections ∈ call.program) :
    Ordered { s with threads := s.threads.set i ⟨rest, ⟨none, none⟩⟩ } := by
  obtain ⟨hproper, hwaiting, hpending, hholds, hnone⟩ :=
    opening_of_program hrest s.manager ⟨none, none⟩
  refine h.advanced none ht h.minted hproper hwaiting hpending
    (fun _ _ _ _ _ _ hp => hp) (fun hh => ?_) (fun j u _ hu => h.holder j u hu)
    (fun _ _ => .refl _ _) (fun _ he => he) (fun _ _ _ _ _ hn => by cases hn) (fun name hn => ?_)
    (fun name hn => ?_) (fun _ hn => by cases hn)
  · rw [hholds] at hh
    cases hh
  · rw [hmidway] at hn
    cases hn
  · rw [hnone] at hn
    cases hn

/-- What a thread is to write is of a name that no other thread is in the middle of. -/
theorem clear (h : s.Ordered) (hserial : s.serial (.advance i) = true)
    (ht : s.threads[i]? = some t) {section_ : LockSection} {later : List LockSection}
    (hcurrent : t.current = section_ :: later) {name : String}
    (htouches : touches t.locals section_ = some name) {j : Nat} {u : RunbookThread} (hj : j ≠ i)
    (hu : s.threads[j]? = some u) : u.midway ≠ some name := by
  intro hname
  rw [touches, Option.or_eq_some_iff] at htouches
  rcases htouches with hbehind | ⟨-, hbegins⟩
  · exact hj (h.alone j i u t name hu ht hname ((RunbookThread.midway_cons hcurrent).trans hbehind))
  · obtain ⟨⟨other, outcome⟩, hpair, rfl⟩ := Option.map_eq_some_iff.mp hbegins
    have htb : t.begins = some (other, outcome) :=
      (RunbookThread.begins_cons hcurrent).trans hpair
    simp only [serial, ht, Option.bind_some, htb, List.all_eq_true] at hserial
    have hmem : (u, j) ∈ s.threads.zipIdx := List.mem_zipIdx_iff_getElem?.mpr hu
    have hall := hserial (u, j) hmem
    simp only [Bool.or_eq_true, Bool.and_eq_true, beq_iff_eq, bne_iff_ne, hname, ne_eq,
      not_true_eq_false, or_false, hj, false_or, Bool.not_eq_true'] at hall
    obtain ⟨hguarded, rfl⟩ := hall
    have hme := h.holder i t ht (RunbookThread.holds_of_begins (h.proper i t ht) htb)
    have hyou := h.holder j u hu (RunbookThread.holds_of_midway (h.proper j u hu) hname hguarded)
    exact hj (Option.some.inj (hyou.symm.trans hme))

/-- The mutex is free, and a thread takes it. -/
theorem locked (h : s.Ordered) (ht : s.threads[i]? = some t) {later : List LockSection}
    {rest : List (List LockSection)} (hprogram : t.program = (.lock :: later) :: rest)
    (hproper : Proper (.lock :: later))
    (hwaiting : ∀ sections ∈ rest, ∃ call : RunbookCall, sections ∈ call.program)
    (horder : s.order = none) :
    Ordered { s with order := some i, threads := s.threads.set i ⟨later :: rest, t.locals⟩ } := by
  have hmidway : t.midway = none := by
    rw [RunbookThread.midway, RunbookThread.current, hprogram]
    rfl
  have hnext : ∀ first ∈ later.head?,
      s.manager.Pending t.locals first ∧ first.behind t.locals = none := by
    intro first hfirst
    rcases hproper with ⟨delivery, rfl⟩ | ⟨name, decision, rfl⟩ | ⟨name, gate, rfl⟩ <;>
    · obtain rfl := Option.some.inj hfirst
      exact ⟨trivial, rfl⟩
  refine h.advanced none ht h.minted hproper.tail hwaiting
    (fun first hf => (hnext first hf).1) (fun _ _ _ _ _ _ hp => hp) (fun _ => rfl)
    (fun j u _ hu hh => ?_) (fun _ _ => .refl _ _) (fun _ he => he)
    (fun _ _ _ _ _ hn => by cases hn) (fun name hn => ?_) (fun name hn => ?_)
    (fun _ hn => by cases hn)
  · rw [h.holder j u hu hh] at horder
    cases horder
  · rw [hmidway] at hn
    cases hn
  · obtain ⟨first, hfirst, hbehind⟩ := Option.bind_eq_some_iff.mp hn
    rw [(hnext first hfirst).2] at hbehind
    cases hbehind

/-- Where the section of a thread makes others' deliveries no longer new, the thread holds the
mutex, and no other has such a delivery. -/
theorem pending_frame (h : s.Ordered) (ht : s.threads[i]? = some t) {section_ : LockSection}
    {later : List LockSection} (hcurrent : t.current = section_ :: later)
    {result : RunbookManager × Flow}
    (hexec : Executed s.manager t.locals section_ later result) {j : Nat} {u : RunbookThread}
    (hj : j ≠ i) (hu : s.threads[j]? = some u) {first : LockSection}
    (hfirst : first ∈ u.current.head?) (hp : s.manager.Pending u.locals first) :
    result.1.Pending u.locals first := by
  rcases hexec.pending with rfl | hframe
  · have hmine : t.holds = true := by
      have hproper : Proper (.supersede :: later) := hcurrent ▸ h.proper i t ht
      obtain rfl : later = _ := hproper
      rw [RunbookThread.holds, RunbookThread.guarded, hcurrent]
      rfl
    have hyours (hhead : first = .storeDelivery ∨ first = .supersede) : u.holds = true := by
      cases hu' : u.current with
      | nil =>
          rw [hu'] at hfirst
          cases hfirst
      | cons head tail =>
          have hproper : Proper (head :: tail) := hu' ▸ h.proper j u hu
          rw [hu'] at hfirst
          obtain rfl : head = first := Option.some.inj hfirst
          rw [RunbookThread.holds, RunbookThread.guarded, hu']
          rcases hhead with rfl | rfl <;> obtain rfl : tail = _ := hproper <;> rfl
    have hapart : ¬ u.holds = true := fun hh =>
      hj (Option.some.inj ((h.holder j u hu hh).symm.trans (h.holder i t ht hmine)))
    cases first with
    | storeDelivery => exact absurd (hyours (.inl rfl)) hapart
    | supersede => exact absurd (hyours (.inr rfl)) hapart
    | _ => trivial
  · exact hframe u.locals first hp

/-- The function goes on after the section. -/
theorem wentOn (h : s.Ordered) (ht : s.threads[i]? = some t) {section_ : LockSection}
    {later : List LockSection} {rest : List (List LockSection)} {m : RunbookManager}
    {locals : Locals} (hprogram : t.program = (section_ :: later) :: rest)
    (hproper : Proper (section_ :: later))
    (hwaiting : ∀ sections ∈ rest, ∃ call : RunbookCall, sections ∈ call.program)
    (hlock : section_.isLock = false)
    (hexec : Executed s.manager t.locals section_ later (m, .next locals))
    (hclear : ∀ {name : String}, touches t.locals section_ = some name → ∀ (j : Nat)
      (u : RunbookThread), j ≠ i → s.threads[j]? = some u → u.midway ≠ some name) :
    Ordered
      { manager := m
        order := if section_.isUnlock then none else s.order
        threads := s.threads.set i ⟨later :: rest, locals⟩ } := by
  have hcurrent : t.current = section_ :: later := by rw [RunbookThread.current, hprogram]; rfl
  obtain ⟨hdue, hnext⟩ := hexec.ends
  have hunlock (hsection : section_.isUnlock = true) : t.holds = true ∧ later = [] := by
    obtain rfl : section_ = .unlock := by cases section_ <;> first | rfl | cases hsection
    obtain rfl : later = [] := hproper
    rw [RunbookThread.holds, RunbookThread.guarded, hcurrent]
    exact ⟨rfl, rfl⟩
  refine h.advanced (touches t.locals section_) ht hexec.minted hproper.tail hwaiting
    (fun first hf => (hnext first hf).1)
    (fun j u hj hu first hf => h.pending_frame ht hcurrent hexec hj hu hf) (fun hh => ?_)
    (fun j u hj hu hh => ?_) hexec.same hexec.trace (fun j u name hj hu hn => hclear hn j u hj hu)
    (fun name hn => ?_) (fun name hn => ?_) hdue
  · have hmine : t.holds = true := by
      rw [RunbookThread.holds, RunbookThread.guarded, hcurrent, Bool.and_eq_true,
        Bool.not_eq_true']
      rw [RunbookThread.holds, RunbookThread.guarded, Bool.and_eq_true, Bool.not_eq_true'] at hh
      obtain ⟨hany, hnone⟩ := hh
      exact ⟨by rw [List.any_cons, Bool.or_eq_true]; exact .inr hany,
        by rw [List.any_cons, hlock, Bool.false_or]; exact hnone⟩
    cases hsection : section_.isUnlock with
    | true =>
        rw [RunbookThread.holds, RunbookThread.guarded, RunbookThread.current] at hh
        rw [(hunlock hsection).2] at hh
        cases hh
    | false => exact h.holder i t ht hmine
  · cases hsection : section_.isUnlock with
    | true =>
        have hmine := h.holder i t ht (hunlock hsection).1
        exact absurd (Option.some.inj ((h.holder j u hu hh).symm.trans hmine)) hj
    | false => exact h.holder j u hu hh
  · rw [RunbookThread.midway_cons hcurrent] at hn
    rw [touches, hn, Option.some_or]
  · obtain ⟨first, hfirst, hbehind⟩ := Option.bind_eq_some_iff.mp hn
    exact (hnext first hfirst).2 name hbehind

/-- The function leaves at the section. -/
theorem left (h : s.Ordered) (ht : s.threads[i]? = some t) {section_ : LockSection}
    {later : List LockSection} {rest : List (List LockSection)} {m : RunbookManager}
    {reason : Option String} (hprogram : t.program = (section_ :: later) :: rest)
    (hwaiting : ∀ sections ∈ rest, ∃ call : RunbookCall, sections ∈ call.program)
    (hexec : Executed s.manager t.locals section_ later (m, .leave reason))
    (hclear : ∀ {name : String}, touches t.locals section_ = some name → ∀ (j : Nat)
      (u : RunbookThread), j ≠ i → s.threads[j]? = some u → u.midway ≠ some name) :
    Ordered
      { manager := m
        order := if s.order = some i then none else s.order
        threads := s.threads.set i ⟨rest, ⟨none, none⟩⟩ } := by
  have hcurrent : t.current = section_ :: later := by rw [RunbookThread.current, hprogram]; rfl
  obtain ⟨hproper, hrest, hpending, hholds, hnone⟩ := opening_of_program hwaiting m ⟨none, none⟩
  refine h.advanced (touches t.locals section_) ht hexec.minted hproper hrest hpending
    (fun j u hj hu first hf => h.pending_frame ht hcurrent hexec hj hu hf) (fun hh => ?_)
    (fun j u hj hu hh => ?_) hexec.same hexec.trace (fun j u name hj hu hn => hclear hn j u hj hu)
    (fun name hn => ?_) (fun name hn => ?_) (fun name hn => ?_)
  · rw [hholds] at hh
    cases hh
  · have hyours := h.holder j u hu hh
    rw [hyours, if_neg fun heq => hj (Option.some.inj heq)]
  · rw [RunbookThread.midway_cons hcurrent] at hn
    rw [touches, hn, Option.some_or]
  · rw [hnone] at hn
    cases hn
  · exact (due_iff_settled (fun hn => by rw [hnone] at hn; cases hn)).mpr (hexec.ends name hn)

/-- A section other than the wait. -/
theorem executed (h : s.Ordered) (hserial : s.serial (.advance i) = true)
    (ht : s.threads[i]? = some t) {section_ : LockSection} {later : List LockSection}
    {rest : List (List LockSection)} (hprogram : t.program = (section_ :: later) :: rest)
    (hlock : section_.isLock = false) :
    Executed s.manager t.locals section_ later (s.manager.exec t.locals section_) := by
  have hcurrent : t.current = section_ :: later := by rw [RunbookThread.current, hprogram]; rfl
  have hproper : Proper (section_ :: later) := hcurrent ▸ h.proper i t ht
  have hpending : s.manager.Pending t.locals section_ :=
    h.pending i t ht section_ (by rw [hcurrent]; exact rfl)
  refine RunbookManager.executed h.minted hproper hlock hpending fun name htouches => ?_
  rw [← hcurrent]
  by_cases hmidway : t.midway = some name
  · exact h.due i t ht name hmidway
  · refine (due_iff_settled hmidway).mpr (h.settled name fun j u hu => ?_)
    by_cases hj : j = i
    · subst hj
      obtain rfl : t = u := Option.some.inj (ht.symm.trans hu)
      exact hmidway
    · exact h.clear hserial ht hcurrent htouches hj hu

theorem advance (h : s.Ordered) (hserial : s.serial (.advance i) = true)
    (ht : s.threads[i]? = some t) : (s.advance i t).Ordered := by
  have hwaiting := h.waiting i t ht
  unfold RunbookHost.advance
  cases hprogram : t.program with
  | nil => exact h
  | cons sections rest =>
      rw [hprogram, List.tail_cons] at hwaiting
      cases sections with
      | nil =>
          refine h.opened ht ?_ hwaiting
          rw [RunbookThread.midway, RunbookThread.current, hprogram]
          rfl
      | cons section_ later =>
          have hcurrent : t.current = section_ :: later := by
            rw [RunbookThread.current, hprogram]; rfl
          have hmidway : t.midway = section_.behind t.locals := RunbookThread.midway_cons hcurrent
          have hproper : Proper (section_ :: later) := hcurrent ▸ h.proper i t ht
          have hclear {name : String} (htouches : touches t.locals section_ = some name)
              (j : Nat) (u : RunbookThread) (hj : j ≠ i) (hu : s.threads[j]? = some u) :=
            h.clear hserial ht hcurrent htouches hj hu
          dsimp only
          cases hlock : section_.isLock with
          | true =>
              obtain rfl : section_ = .lock := by cases section_ <;> first | rfl | cases hlock
              rw [if_pos rfl]
              cases horder : s.order with
              | some holder => exact h
              | none => exact h.locked ht hprogram hproper hwaiting horder
          | false =>
              have hexec := h.executed hserial ht hprogram hlock
              rw [if_neg Bool.false_ne_true]
              cases hflow : s.manager.exec t.locals section_ with
              | mk m flow =>
                  rw [hflow] at hexec
                  cases flow with
                  | next locals => exact h.wentOn ht hprogram hproper hwaiting hlock hexec hclear
                  | leave reason => exact h.left ht hprogram hwaiting hexec hclear

/-- A call starts. -/
theorem spawn (h : s.Ordered) (call : RunbookCall) : (s.step (.spawn call)).Ordered := by
  have hprogram : ∀ sections ∈ call.program, ∃ call : RunbookCall, sections ∈ call.program :=
    fun _ hs => ⟨call, hs⟩
  obtain ⟨hproper, hwaiting, hpending, hholds, hnone⟩ :=
    opening_of_program hprogram s.manager ⟨none, none⟩
  have hcases {j : Nat} {u : RunbookThread}
      (hu : (s.threads ++ [RunbookThread.start call])[j]? = some u) :
      s.threads[j]? = some u ∨ u = ⟨call.program, ⟨none, none⟩⟩ := by
    rcases lt_or_ge j s.threads.length with hj | hj
    · exact .inl ((List.getElem?_append_left hj).symm.trans hu)
    · rw [List.getElem?_append_right hj] at hu
      exact .inr (List.mem_singleton.mp (List.mem_of_getElem? hu))
  refine ⟨h.minted, fun j u hu => ?_, fun j u hu => ?_, fun j u hu => ?_, fun j u hu hh => ?_,
    fun j k u v name hu hv hun hvn => ?_, fun j u hu name hname => ?_, fun name hall => ?_⟩
  · rcases hcases hu with hold | rfl
    · exact h.proper j u hold
    · exact hproper
  · rcases hcases hu with hold | rfl
    · exact h.waiting j u hold
    · exact hwaiting
  · rcases hcases hu with hold | rfl
    · exact h.pending j u hold
    · exact hpending
  · rcases hcases hu with hold | rfl
    · exact h.holder j u hold hh
    · rw [hholds] at hh
      cases hh
  · rcases hcases hu with hold | rfl
    · rcases hcases hv with hold' | rfl
      · exact h.alone j k u v name hold hold' hun hvn
      · rw [hnone] at hvn
        cases hvn
    · rw [hnone] at hun
      cases hun
  · rcases hcases hu with hold | rfl
    · exact h.due j u hold name hname
    · rw [hnone] at hname
      cases hname
  · refine h.settled name fun j u hu => hall j u ?_
    exact (List.getElem?_append_left (List.getElem?_eq_some_iff.mp hu).1).trans hu

theorem step (h : s.Ordered) {event : HostEvent} (hserial : s.serial event = true) :
    (s.step event).Ordered := by
  cases event with
  | spawn call => exact h.spawn call
  | advance index =>
      unfold RunbookHost.step
      dsimp only
      cases ht : s.threads[index]? with
      | none => exact h
      | some t => exact h.advance hserial ht

theorem start (files : List (Except String RunbookFile)) : (start files).Ordered where
  minted := fun r hr => (loaded_of_load r hr).2.2
  proper := fun _ _ ht => by cases ht
  waiting := fun _ _ ht => by cases ht
  pending := fun _ _ ht => by cases ht
  holder := fun _ _ ht => by cases ht
  alone := fun _ _ _ _ _ ht => by cases ht
  due := fun _ _ ht => by cases ht
  settled := fun _ _ => ⟨rfl, fun _ hrecord => by cases hrecord⟩

/-- Where no call is in progress, no name is midway. -/
theorem rowsMatch (h : s.Ordered) (hdone : s.finished = true) : RowsMatch s.manager := by
  intro name
  refine h.settled name fun j t ht hname => ?_
  have hempty : t.program.flatten = [] :=
    List.isEmpty_iff.mp (List.all_eq_true.mp hdone t (List.mem_of_getElem? ht))
  cases hprogram : t.program with
  | nil => simp [RunbookThread.midway, RunbookThread.current, hprogram] at hname
  | cons sections rest =>
      rw [hprogram, List.flatten_cons, List.append_eq_nil_iff] at hempty
      simp [RunbookThread.midway, RunbookThread.current, hprogram, hempty.1] at hname

end Ordered

/-! ### Restarts -/

/-- Of each name there is one row. -/
theorem rowNames_exec {m : RunbookManager} (h : (m.rows.map DeliveredRunbook.name).Nodup)
    (locals : Locals) (section_ : LockSection) :
    ((m.exec locals section_).1.rows.map DeliveredRunbook.name).Nodup := by
  have hput (record : DeliveredRunbook) := Keyed.nodup_upsert (y := record) h
  cases section_ <;> unfold exec <;> dsimp only <;> (repeat' split) <;>
    first
    | exact h
    | exact hput _

theorem rowNames_advance (h : (s.manager.rows.map DeliveredRunbook.name).Nodup) (index : Nat)
    (t : RunbookThread) :
    ((s.advance index t).manager.rows.map DeliveredRunbook.name).Nodup := by
  unfold advance
  cases t.program with
  | nil => exact h
  | cons sections rest =>
      cases sections with
      | nil => exact h
      | cons section_ later =>
          have hexec := rowNames_exec h t.locals section_
          dsimp only
          cases section_.isLock with
          | true => cases horder : s.order <;> simpa [horder] using h
          | false =>
              rw [if_neg Bool.false_ne_true]
              cases hflow : s.manager.exec t.locals section_ with
              | mk m flow =>
                  rw [hflow] at hexec
                  cases flow <;> exact hexec

theorem rowNames_step (h : (s.manager.rows.map DeliveredRunbook.name).Nodup) (event : HostEvent) :
    ((s.step event).manager.rows.map DeliveredRunbook.name).Nodup := by
  cases event with
  | spawn call => exact h
  | advance index =>
      unfold step
      dsimp only
      cases s.threads[index]? with
      | none => exact h
      | some t => exact rowNames_advance h index t

end RunbookHost

namespace RunbookManager

variable {m : RunbookManager}

/-- Where every row matches the library, a restart brings each row's runbook back. -/
theorem byName_restart_of_settled (hmatch : ∀ name, m.Settled name)
    (hnames : (m.rows.map DeliveredRunbook.name).Nodup)
    (hminted : ∀ r ∈ m.library.runbooks, r.id < m.minted)
    (files : List (Except String RunbookFile)) {name : String} {row : DeliveredRunbook}
    (hrow : m.row name = some row) :
    (m.restart files true).library.byName name = some row.runbook := by
  have hlib {row : DeliveredRunbook} (hrow : row ∈ m.rows) :
      m.library.byName row.name = some row.runbook := by
    obtain ⟨hsame, hrecord⟩ := hmatch row.name
    exact (hrecord row (hsame.symm.trans (Keyed.lookup_of_mem hnames hrow))).1
  have hids : (m.rows.map fun row => row.runbook.id).Nodup := by
    refine (List.nodup_map_iff_inj_on (List.Nodup.of_map _ hnames)).mpr fun a ha b hb heq => ?_
    have hsame : a.runbook = b.runbook :=
      List.inj_on_of_nodup_map m.library.ids (RunbookLibrary.mem_of_byName (hlib ha))
        (RunbookLibrary.mem_of_byName (hlib hb)) heq
    exact List.inj_on_of_nodup_map hnames ha hb (congrArg (fun r => r.name) hsame)
  rw [byName_restart hnames hids
    (fun row hrow => hminted _ (RunbookLibrary.mem_of_byName (hlib hrow))), hrow]
  rfl

end RunbookManager

namespace RunbookHost

/-- In every run in which no recording of an outcome begins while another call is midway on its
name, and no other sequence while such a recording is, once all calls have finished the row of a
delivered runbook is its delivery's record, with the provenance that brought it, and its runbook is
the library's; a restart brings that one back. -/
theorem rows_match_library (files : List (Except String RunbookFile)) (events : List HostEvent)
    (h : Machine.Every step (fun s event => s.serial event = true) (start files) events)
    (hdone : (Machine.run step (start files) events).finished = true) :
    let m := (Machine.run step (start files) events).manager
    RowsMatch m ∧ ∀ files name row, m.row name = some row →
      (m.restart files true).library.byName name = some row.runbook := by
  intro m
  have hordered : (Machine.run step (start files) events).Ordered :=
    h.invariant (Ordered.start files) fun _ _ hs hserial => hs.step hserial
  have hstart : ((start files).manager.rows.map DeliveredRunbook.name).Nodup := List.nodup_nil
  have hnames : (m.rows.map DeliveredRunbook.name).Nodup :=
    Machine.invariant (I := fun s : RunbookHost => (s.manager.rows.map DeliveredRunbook.name).Nodup)
      hstart (fun _ event hs => rowNames_step hs event) events
  have hmatch : RowsMatch m := hordered.rowsMatch hdone
  exact ⟨hmatch, fun files name row hrow =>
    byName_restart_of_settled hmatch hnames hordered.minted files hrow⟩

/-- The second version is under review while a failed run of the first is recorded, and enters the
library after that. -/
def turns : List HostEvent :=
  [.spawn (.deliver (reclaimDelivery 1))] ++ through 0 7 ++
  [.spawn (.noteProcedureOutcome "reclaim" false), .spawn (.deliver (reclaimDelivery 2))] ++
  through 2 2 ++ through 1 5 ++ through 2 5

theorem rows_match_turns :
    let s := Machine.run step (start []) turns
    (Machine.Every step (fun s event => s.serial event = true) (start []) turns ∧
      s.finished = true) ∧
    RowsMatch s.manager ∧ ∀ files name row, s.manager.row name = some row →
      (s.manager.restart files true).library.byName name = some row.runbook :=
  ⟨⟨by decide, by decide⟩,
    rows_match_library [] turns (by decide) (by decide)⟩

end RunbookHost

end Argus
