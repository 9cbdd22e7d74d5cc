import Argus.Daemon.Enrollment

/-!
# The key of the enrollment

The check for an enrollment, the write of the seed, the redemption and the write of the
enrollment are separate requests, and the error paths of one call erase what another call wrote.
The stored seed is that of the stored enrollment as long as the calls keep out of each other's
way, and no forget stops between the seed and the enrollment.
-/

namespace Argus

open Interaction

namespace Enrollments

/-- Once no call is in progress, the stored seed is that of the stored enrollment. -/
def Provable (s : Enrollments) : Prop :=
  (∀ id, (s.calls id).inProgress = false) →
    s.store.enrollment.isSome = true → s.store.seed = some s.store.redeemed

/-- A forget that has erased the seed has still to erase the enrollment. -/
def Owes (s : Enrollments) (id : Nat) : Prop :=
  ∃ rest, s.calls id = .forgetting (eraseAll rest) ∧ rest <:+ erasures.drop 2 ∧
    .table .cloudEnrollment ∈ rest

/-- What the steps keep. -/
structure Paired (s : Enrollments) : Prop where
  /-- A forget goes through its list, or has failed. -/
  forgets : ∀ id rest, s.calls id = .forgetting rest →
    (∃ error, rest = .ret (.error error)) ∨ ∃ left, rest = eraseAll left ∧ left <:+ erasures
  seed : s.store.enrollment.isSome = true →
    s.store.seed = some s.store.redeemed ∨ ∃ id, s.Owes id

end Enrollments

/-- What a forget erases after the seed, up to the enrollment. -/
def Erasure.owed : Erasure → Bool
  | .providerCredential | .managedSettings | .table .cloudEnrollment => true
  | _ => false

namespace Enrollments

variable {config : CloudConfig} {s : Enrollments} {id : Nat}

/-- A seed is written or erased by a call that enrolls only while there is no enrollment, an
enrollment is saved only over the call's own seed, and a forget that has erased the seed fails
only while there is no enrollment. -/
def undisturbed (s : Enrollments) : EnrollmentEvent → Bool
  | .turn id none _ =>
      match s.calls id with
      | .enrolling (.request (.storeIdentitySeed _) _)
      | .enrolling (.request (.erase .identitySeed) _) => s.store.enrollment.isNone
      | .enrolling (.request (.saveCloudEnrollment _) _) => s.store.seed == some id
      | _ => true
  | .turn id (some _) _ =>
      match s.calls id with
      | .forgetting (.request (.erase what) _) => !what.owed || s.store.enrollment.isNone
      | _ => true
  | _ => true

theorem paired_start : Paired start := ⟨fun _ _ h => (by cases h), fun h => (by cases h)⟩

/-- What is left after the seed is erased. -/
theorem owed_of_seed {rest : List Erasure} (h : .identitySeed :: rest <:+ erasures) :
    rest <:+ erasures.drop 2 ∧ .table .cloudEnrollment ∈ rest := by
  have hall : ∀ left ∈ erasures.tails, left.head? = some .identitySeed →
      left.tail <:+ erasures.drop 2 ∧ .table .cloudEnrollment ∈ left.tail := by decide
  exact hall _ ((List.mem_tails _ _).mpr h) rfl

theorem owed_of_pending {what : Erasure} {rest : List Erasure}
    (h : what :: rest <:+ erasures.drop 2) (hmem : .table .cloudEnrollment ∈ what :: rest) :
    what.owed = true := by
  have hall : ∀ left ∈ (erasures.drop 2).tails, .table .cloudEnrollment ∈ left →
      left.head?.all Erasure.owed = true := by decide
  exact hall _ ((List.mem_tails _ _).mpr h) hmem

theorem eraseAll_injective : ∀ {left right : List Erasure}, eraseAll left = eraseAll right →
    left = right
  | [], [], _ => rfl
  | [], _ :: _, h => by cases h
  | _ :: _, [], h => by cases h
  | what :: left, other :: right, h => by
      simp only [eraseAll, CloudRequest.ask, Prog.call, bind, Prog.bind] at h
      injection h with hwhat hnext
      obtain rfl : what = other := by injection hwhat
      have hrest : eraseAll left = eraseAll right := congrFun hnext (Except.ok ())
      rw [eraseAll_injective hrest]

theorem Owes.other {other : Nat} (h : s.Owes other) (hne : other ≠ id) (store : CloudStore)
    (call : Call) : ({ s with store }.setCall id call).Owes other := by
  obtain ⟨rest, hcall, hrest⟩ := h
  exact ⟨rest, (setCall_other _ call hne).trans hcall, hrest⟩

/-- What a call may be, so that the forgets go through their list. -/
def Forgets (call : Call) : Prop :=
  ∀ rest, call = .forgetting rest →
    (∃ error, rest = .ret (.error error)) ∨ ∃ left, rest = eraseAll left ∧ left <:+ erasures

theorem forgets_enrolling (rest : EnrollM (Except EnrollmentError EnrollmentReport)) :
    Forgets (.enrolling rest) := fun _ h => by cases h

theorem Paired.moved (h : Paired s) {store : CloudStore} {call : Call} (hforgets : Forgets call)
    (hseed : store.enrollment.isSome = true → store.seed = some store.redeemed ∨
      ∃ other, ({ s with store }.setCall id call).Owes other) :
    Paired ({ s with store }.setCall id call) := by
  refine ⟨fun other rest hcall => ?_, hseed⟩
  by_cases heq : other = id
  · subst heq
    exact hforgets rest ((setCall_same _ _ _).symm.trans hcall)
  · exact h.forgets other rest ((setCall_other _ call heq).symm.trans hcall)

/-- The store reads the same to a proof of the key. -/
structure SameKey (store store' : CloudStore) : Prop where
  enrollment : store'.enrollment = store.enrollment
  seed : store'.seed = store.seed
  redeemed : store'.redeemed = store.redeemed

/-- A call that owes nothing goes on, and the key and the enrollment stay. -/
theorem Paired.kept (h : Paired s) {store : CloudStore} {call : Call} (hforgets : Forgets call)
    (hfree : ¬ s.Owes id) (hsame : SameKey s.store store) :
    Paired ({ s with store }.setCall id call) := by
  refine h.moved hforgets fun hsome => ?_
  rw [hsame.enrollment] at hsome
  rcases h.seed hsome with hkey | ⟨other, howes⟩
  · left
    rw [hsame.seed, hsame.redeemed, hkey]
  · have hne : other ≠ id := by
      rintro rfl
      exact hfree howes
    exact .inr ⟨other, howes.other hne store call⟩

theorem Paired.unenrolled (h : Paired s) {store : CloudStore} {call : Call}
    (hforgets : Forgets call) (hnone : store.enrollment = none) :
    Paired ({ s with store }.setCall id call) :=
  h.moved hforgets fun hsome => by simp [hnone] at hsome

theorem erase_cases (store : CloudStore) (what : Erasure) :
    what = .identitySeed ∨ (store.erase what).enrollment = none ∨
      SameKey store (store.erase what) := by
  cases what with
  | identitySeed => exact .inl rfl
  | table table =>
      cases table with
      | cloudEnrollment => exact .inr (.inl rfl)
      | _ => exact .inr (.inr ⟨rfl, rfl, rfl⟩)
  | _ => exact .inr (.inr ⟨rfl, rfl, rfl⟩)

/-- A request of a call that enrolls. -/
theorem Paired.enrolls (h : Paired s) {request : CloudRequest}
    {next : request.Reply → EnrollM (Except EnrollmentError EnrollmentReport)}
    (hcall : s.calls id = .enrolling (.request request next)) {fault : Option String}
    {outcome : EnrollmentOutcome} (hcareful : s.undisturbed (.turn id fault outcome) = true)
    (rest : EnrollM (Except EnrollmentError EnrollmentReport)) :
    Paired ({ s with store := (s.store.answer id fault outcome request).2 }.setCall id
      (.enrolling rest)) := by
  have hfree : ¬ s.Owes id := by
    rintro ⟨left, hleft, -⟩
    rw [hcall] at hleft
    cases hleft
  have hforgets := forgets_enrolling rest
  cases fault with
  | some error => exact h.kept hforgets hfree ⟨rfl, rfl, rfl⟩
  | none =>
      cases request with
      | getCloudEnrollment => exact h.kept hforgets hfree ⟨rfl, rfl, rfl⟩
      | storeIdentitySeed seed =>
          simp only [undisturbed, hcall] at hcareful
          exact h.unenrolled hforgets (Option.isNone_iff_eq_none.mp hcareful)
      | enroll request expectedCloudId key => exact h.kept hforgets hfree ⟨rfl, rfl, rfl⟩
      | saveCloudEnrollment enrollment =>
          simp only [undisturbed, hcall, beq_iff_eq] at hcareful
          exact h.moved hforgets fun _ => .inl hcareful
      | storeSessionCredential credential =>
          refine h.kept hforgets hfree ?_
          simp only [CloudStore.answer, CloudStore.serve]
          split_ifs <;> exact ⟨rfl, rfl, rfl⟩
      | erase what =>
          rcases erase_cases s.store what with rfl | hnone | hsame
          · simp only [undisturbed, hcall] at hcareful
            exact h.unenrolled hforgets (Option.isNone_iff_eq_none.mp hcareful)
          · exact h.unenrolled hforgets hnone
          · exact h.kept hforgets hfree hsame

/-- A request of a call that forgets. -/
theorem Paired.forgetting (h : Paired s) {what : Erasure} {left : List Erasure}
    (hcall : s.calls id = .forgetting (eraseAll (what :: left)))
    (hleft : what :: left <:+ erasures) :
    Paired ({ s with store := s.store.erase what }.setCall id (.forgetting (eraseAll left))) := by
  have hforgets : Forgets (.forgetting (eraseAll left)) := by
    rintro rest hrest
    cases hrest
    exact .inr ⟨left, rfl, (List.suffix_cons _ _).trans hleft⟩
  have hsame_call : ({ s with store := s.store.erase what }.setCall id
      (.forgetting (eraseAll left))).calls id = .forgetting (eraseAll left) := setCall_same _ _ _
  by_cases howes : s.Owes id
  · obtain ⟨left', hleft', hpending, hmem⟩ := howes
    obtain rfl : what :: left = left' := by
      rw [hcall] at hleft'
      injection hleft' with heq
      exact eraseAll_injective heq
    rcases List.mem_cons.mp hmem with heq | hmem
    · exact h.unenrolled hforgets (by rw [← heq]; rfl)
    · exact h.moved hforgets fun _ =>
        .inr ⟨id, left, hsame_call, (List.suffix_cons _ _).trans hpending, hmem⟩
  · rcases erase_cases s.store what with rfl | hnone | hsame
    · obtain ⟨hpending, hmem⟩ := owed_of_seed hleft
      exact h.moved hforgets fun _ => .inr ⟨id, left, hsame_call, hpending, hmem⟩
    · exact h.unenrolled hforgets hnone
    · exact h.kept hforgets howes hsame

/-- A forget fails. -/
theorem Paired.fails (h : Paired s) {what : Erasure} {left : List Erasure}
    (hcall : s.calls id = .forgetting (eraseAll (what :: left))) {error : String}
    {outcome : EnrollmentOutcome}
    (hcareful : s.undisturbed (.turn id (some error) outcome) = true) :
    Paired (s.setCall id (.forgetting (.ret (.error error)))) := by
  have hforgets : Forgets (.forgetting (.ret (.error error))) := by
    rintro rest hrest
    cases hrest
    exact .inl ⟨error, rfl⟩
  by_cases howes : s.Owes id
  · obtain ⟨left', hleft', hpending, hmem⟩ := howes
    obtain rfl : what :: left = left' := by
      rw [hcall] at hleft'
      injection hleft' with heq
      exact eraseAll_injective heq
    have howed := owed_of_pending hpending hmem
    have hnone : s.store.enrollment = none := by
      simpa [undisturbed, hcall, eraseAll, CloudRequest.ask, Prog.call, bind, Prog.bind, howed]
        using hcareful
    exact h.unenrolled hforgets hnone
  · exact h.kept hforgets howes ⟨rfl, rfl, rfl⟩

theorem Paired.begins (h : Paired s) (hcall : s.calls id = .idle) {call : Call}
    (hforgets : Forgets call) : Paired (s.setCall id call) := by
  refine h.kept hforgets ?_ ⟨rfl, rfl, rfl⟩
  rintro ⟨left, hleft, -⟩
  rw [hcall] at hleft
  cases hleft

theorem Paired.step (h : Paired s) {event : EnrollmentEvent}
    (hcareful : s.undisturbed event = true) : Paired (s.step config event) := by
  have hstepped := stepped config s event
  generalize s.step config event = s' at hstepped ⊢
  cases hstepped with
  | none => exact h
  | enroll hcall => exact h.begins hcall (forgets_enrolling _)
  | forget hcall =>
      refine h.begins hcall ?_
      rintro rest hrest
      cases hrest
      exact .inr ⟨erasures, rfl, List.suffix_refl _⟩
  | enrolling hcall => exact h.enrolls hcall hcareful _
  | @forgetting id fault outcome request next hcall =>
      rcases h.forgets id _ hcall with ⟨error, hended⟩ | ⟨_ | ⟨what, left⟩, hprogram, hleft⟩
      · cases hended
      · cases hprogram
      · cases hprogram
        cases fault with
        | some error => exact h.fails hcall hcareful
        | none => exact h.forgetting hcall hleft

/-- Once no call is in progress, no forget owes anything. -/
theorem Paired.provable (h : Paired s) : s.Provable := by
  intro hdone hsome
  rcases h.seed hsome with hkey | ⟨id, rest, hcall, -, hmem⟩
  · exact hkey
  · cases rest with
    | nil => cases hmem
    | cons what rest =>
        have hidle := hdone id
        rw [hcall] at hidle
        cases hidle

/-- **The key proves the enrollment**, in every state of every undisturbed run. -/
theorem key_proves_enrollment (config : CloudConfig) (events : List EnrollmentEvent)
    (h : Machine.Every (step config) (fun s event => s.undisturbed event = true) start events) :
    (Machine.run (step config) start events).Provable :=
  (h.invariant paired_start fun _ _ hs hcareful => hs.step hcareful).provable

/-! #### A call uses its own key -/

end Enrollments

/-- The key a request stores or redeems, if it does, is `key`. -/
def CloudRequest.Uses (key : Nat) : CloudRequest → Prop
  | .storeIdentitySeed seed => seed = key
  | .enroll _ _ redeemed => redeemed = key
  | _ => True

theorem enrollInstallation_uses (config : CloudConfig) (request : EnrollmentRequest) (key : Nat) :
    (enrollInstallation config request key).Asks (CloudRequest.Uses key) := by
  unfold enrollInstallation
  split_ifs
  · trivial
  · refine ⟨trivial, fun reply => ?_⟩
    rcases reply with error | _ | enrollment
    · trivial
    · refine ⟨rfl, fun reply => ?_⟩
      rcases reply with error | _
      · trivial
      · refine ⟨rfl, fun reply => ?_⟩
        rcases reply with error | payload | code
        · trivial
        · refine ⟨trivial, fun reply => ?_⟩
          rcases reply with error | _
          · trivial
          · refine ⟨trivial, fun reply => ?_⟩
            rcases reply with error | _
            · trivial
            · trivial
        · exact ⟨trivial, fun _ => trivial⟩
    · trivial

namespace Enrollments

variable {config : CloudConfig} {s : Enrollments} {id : Nat}

/-- Every call that enrolls stores and redeems the key of its number. -/
def OwnKeys (s : Enrollments) : Prop :=
  ∀ id rest, s.calls id = .enrolling rest → rest.Asks (CloudRequest.Uses id)

theorem OwnKeys.setCall (h : OwnKeys s) {store : CloudStore} {call : Call}
    (hcall : ∀ rest, call = .enrolling rest → rest.Asks (CloudRequest.Uses id)) :
    OwnKeys ({ s with store }.setCall id call) := by
  intro other rest hother
  by_cases heq : other = id
  · subst heq
    exact hcall rest ((setCall_same _ _ _).symm.trans hother)
  · exact h other rest ((setCall_other _ call heq).symm.trans hother)

theorem OwnKeys.step (h : OwnKeys s) (event : EnrollmentEvent) : OwnKeys (s.step config event) := by
  have hstepped := stepped config s event
  generalize s.step config event = s' at hstepped ⊢
  cases hstepped with
  | none => exact h
  | enroll hcall =>
      refine h.setCall fun rest hrest => ?_
      cases hrest
      exact enrollInstallation_uses config _ _
  | enrolling hcall =>
      refine h.setCall fun rest hrest => ?_
      cases hrest
      exact (h _ _ hcall).2 _
  | forget hcall | forgetting hcall => exact h.setCall fun rest hrest => by cases hrest

/-- The key stored under a saved enrollment, `redeemed`, is the one its call redeemed. -/
theorem own_keys (config : CloudConfig) (events : List EnrollmentEvent) :
    OwnKeys (Machine.run (step config) start events) :=
  Machine.invariant (I := OwnKeys) (fun _ _ h => by cases h) (fun _ event hs => hs.step event)
    events

/-! #### Two runs -/

def enabledConfig : CloudConfig := ⟨true, some "wss://cloud", "argus-cloud"⟩

def request : EnrollmentRequest := ⟨"ABCD-1234", "host", "1.0.0", ⟨0⟩⟩

def granted : EnrollmentOutcome := .granted ⟨1, 7, "host", "token", "1.2.0"⟩

/-- The next `n` requests of a call. -/
def turns (id n : Nat) (outcome : EnrollmentOutcome) : List EnrollmentEvent :=
  List.replicate n (.turn id none outcome)

/-- The installation is enrolled, forgotten, and enrolled again. -/
def reenrolled : List EnrollmentEvent :=
  [.enroll 0 request] ++ turns 0 5 granted ++ [.forget 1] ++ turns 1 14 granted ++
    [.enroll 2 request] ++ turns 2 5 granted

theorem key_proves_reenrollment :
    (Machine.run (step enabledConfig) start reenrolled).store.enrollment.isSome = true ∧
      (Machine.run (step enabledConfig) start reenrolled).Provable :=
  ⟨by decide, key_proves_enrollment enabledConfig reenrolled (by decide)⟩

/-- Two calls enroll at once, and the second is refused after the first is granted. -/
def racing : List EnrollmentEvent :=
  [.enroll 0 request, .enroll 1 request] ++ turns 0 2 granted ++ turns 1 2 granted ++
    turns 0 3 granted ++ turns 1 2 (.denied .used)

/-- **The refusal of one call erases the key of another's enrollment.** -/
theorem refusal_erases_key :
    ¬ ∀ events, (Machine.run (step enabledConfig) start events).Provable := by
  intro h
  have hdone : ∀ id, ((Machine.run (step enabledConfig) start racing).calls id).inProgress = false
    | 0 => by decide
    | 1 => by decide
    | _ + 2 => rfl
  have hkey := h racing hdone (by decide)
  exact absurd hkey (by decide)

end Enrollments
end Argus
