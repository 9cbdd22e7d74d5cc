import Mathlib.Logic.Relation

/-!
# Interaction programs

A program that talks to an environment is a tree: it either returns, or it issues
one **request** and continues with whatever **reply** comes back. Nothing is said
about how replies are produced, so a statement about every run of such a tree is a
statement about every environment, a failing or a lying one included.

Two readings of a tree are provided.

* `Prog.Runs p t a` — `p` ran to its end, `t` is the list of requests it issued with
  the replies it was given, and it returned `a`. The `simp` set `runs_pure`,
  `runs_call_bind`, `runs_bind` turns a run of a `do` block into the list of its
  requests.
* `Prog.play` — the run against one concrete, stateful environment. It computes, so a
  particular run can be evaluated, and `play_runs` says that it is a run. `Prog.exec` is
  what it comes to, `Prog.upTo` what it comes to when it is cut off, and
  `Prog.Throughout` a property of the state wherever that may be.

`Guarded` states what must have happened *before* an event of a trace, which is how
"no effect without its permission" is written.
-/

namespace Interaction

variable {Op : Type} {Reply : Op → Type} {α β : Type}

/-- One request together with the reply it received. -/
structure Event (Reply : Op → Type) where
  op : Op
  reply : Reply op

/-- A program over the requests `Op`: return a value, or issue a request and go on
with its reply. -/
inductive Prog (Reply : Op → Type) (α : Type) : Type
  | ret (a : α) : Prog Reply α
  | request (op : Op) (next : Reply op → Prog Reply α) : Prog Reply α

namespace Prog

/-- Sequencing: run `p`, hand its result to `f`. -/
def bind : Prog Reply α → (α → Prog Reply β) → Prog Reply β
  | ret a, f => f a
  | request op next, f => request op (fun r => (next r).bind f)

instance : Monad (Prog Reply) where
  pure := ret
  bind := bind

/-- Issue one request and return its reply. -/
def call (op : Op) : Prog Reply (Reply op) := request op ret

/-! ### Runs -/

/-- `p` runs to its end along the trace `t` and returns `b`. -/
def Runs : Prog Reply α → List (Event Reply) → α → Prop
  | ret a, t, b => t = [] ∧ a = b
  | request op next, t, b => ∃ r t', Runs (next r) t' b ∧ t = ⟨op, r⟩ :: t'

@[simp] theorem runs_pure {a b : α} {t : List (Event Reply)} :
    Runs (pure a : Prog Reply α) t b ↔ t = [] ∧ a = b := Iff.rfl

@[simp] theorem runs_call {op : Op} {t : List (Event Reply)} {r : Reply op} :
    Runs (call op) t r ↔ t = [⟨op, r⟩] := by
  constructor
  · intro hrun
    obtain ⟨r', t', ⟨rfl, rfl⟩, rfl⟩ := hrun
    rfl
  · intro heq
    subst heq
    exact ⟨r, [], ⟨rfl, rfl⟩, rfl⟩

/-- A run of a sequence is a run of its first half followed by one of its second. -/
theorem runs_bind {p : Prog Reply α} {f : α → Prog Reply β} {t : List (Event Reply)} {b : β} :
    Runs (p >>= f) t b ↔ ∃ t₁ a t₂, Runs p t₁ a ∧ Runs (f a) t₂ b ∧ t = t₁ ++ t₂ := by
  induction p generalizing t with
  | ret a =>
      constructor
      · intro h
        exact ⟨[], a, t, ⟨rfl, rfl⟩, h, rfl⟩
      · intro hrun
        obtain ⟨t₁, a', t₂, ⟨rfl, rfl⟩, h, rfl⟩ := hrun
        exact h
  | request op next ih =>
      constructor
      · intro hrun
        obtain ⟨r, t', h, rfl⟩ := hrun
        obtain ⟨t₁, a, t₂, h₁, h₂, rfl⟩ := ih r |>.mp h
        exact ⟨⟨op, r⟩ :: t₁, a, t₂, ⟨r, t₁, h₁, rfl⟩, h₂, rfl⟩
      · intro hrun
        obtain ⟨t₁, a, t₂, ⟨r, t', h₁, rfl⟩, h₂, rfl⟩ := hrun
        exact ⟨r, t' ++ t₂, (ih r).mpr ⟨t', a, t₂, h₁, h₂, rfl⟩, rfl⟩

@[simp] theorem runs_call_bind {op : Op} {f : Reply op → Prog Reply β}
    {t : List (Event Reply)} {b : β} :
    Runs (call op >>= f) t b ↔ ∃ r t', Runs (f r) t' b ∧ t = ⟨op, r⟩ :: t' := Iff.rfl

@[simp] theorem runs_pure_bind {a : α} {f : α → Prog Reply β} {t : List (Event Reply)} {b : β} :
    Runs (pure a >>= f) t b ↔ Runs (f a) t b := Iff.rfl

/-- A run whose end is a function of a result. -/
theorem runs_bind_pure {p : Prog Reply α} {f : α → β} {t : List (Event Reply)} {b : β} :
    Runs (p >>= fun a => pure (f a)) t b ↔ ∃ a, Runs p t a ∧ f a = b := by
  rw [runs_bind]
  constructor
  · rintro ⟨t₁, a, t₂, h, ⟨rfl, rfl⟩, rfl⟩
    rw [List.append_nil]
    exact ⟨a, h, rfl⟩
  · rintro ⟨a, h, rfl⟩
    exact ⟨t, a, [], h, ⟨rfl, rfl⟩, (List.append_nil t).symm⟩

/-! ### What a program may ask -/

/-- Every request the program can come to make satisfies `P`, whatever the replies. -/
def Asks (P : Op → Prop) : Prog Reply α → Prop
  | ret _ => True
  | request op next => P op ∧ ∀ r, Asks P (next r)

section Asks

variable {P : Op → Prop} {p : Prog Reply α}

@[simp] theorem asks_pure {a : α} : Asks P (pure a : Prog Reply α) := trivial

@[simp] theorem asks_call_bind {op : Op} {f : Reply op → Prog Reply β} :
    Asks P (call op >>= f) ↔ P op ∧ ∀ r, Asks P (f r) := Iff.rfl

@[simp] theorem asks_call {op : Op} : Asks P (call op : Prog Reply (Reply op)) ↔ P op :=
  ⟨fun h => h.1, fun h => ⟨h, fun _ => trivial⟩⟩

theorem Asks.bind {f : α → Prog Reply β} (h : Asks P p) (hf : ∀ a, Asks P (f a)) :
    Asks P (p >>= f) := by
  induction p with
  | ret a => exact hf a
  | request op next ih => exact ⟨h.1, fun r => ih r (h.2 r)⟩

/-- What a program may ask is all that a run of it asked. -/
theorem Asks.of_runs {t : List (Event Reply)} {a : α} (h : Asks P p) (hrun : Runs p t a) :
    ∀ e ∈ t, P e.op := by
  induction p generalizing t with
  | ret b =>
      obtain ⟨rfl, -⟩ := hrun
      simp
  | request op next ih =>
      obtain ⟨r, t', hrest, rfl⟩ := hrun
      exact List.forall_mem_cons.mpr ⟨h.1, ih r (h.2 r) hrest⟩

end Asks

/-! ### What a program may ask, and may return -/

/-- Every request the program can come to make satisfies `Q` and every result it can come to
satisfies `P`, whatever the replies. -/
def Within (Q : Op → Prop) (P : α → Prop) : Prog Reply α → Prop
  | ret a => P a
  | request op next => Q op ∧ ∀ r, Within Q P (next r)

section Within

variable {Q : Op → Prop} {P : α → Prop} {p : Prog Reply α} {a : α}

theorem Within.bind {S : β → Prop} {f : α → Prog Reply β} (h : Within Q P p)
    (hf : ∀ a, P a → Within Q S (f a)) : Within Q S (p >>= f) := by
  induction p with
  | ret a => exact hf a h
  | request op next ih => exact ⟨h.1, fun r => ih r (h.2 r)⟩

theorem Within.of_runs {t : List (Event Reply)} (h : Within Q P p) (hrun : Runs p t a) :
    (∀ e ∈ t, Q e.op) ∧ P a := by
  induction p generalizing t with
  | ret b =>
      obtain ⟨rfl, rfl⟩ := hrun
      exact ⟨by simp, h⟩
  | request op next ih =>
      obtain ⟨r, t', hrest, rfl⟩ := hrun
      obtain ⟨hasked, hresult⟩ := ih r (h.2 r) hrest
      exact ⟨List.forall_mem_cons.mpr ⟨h.1, hasked⟩, hresult⟩

end Within

/-! ### Running against one environment -/

/-- The run of `p` against the environment that answers by `h` from the state `w`:
its trace, its result and the state it leaves. -/
def play {W : Type} (h : (op : Op) → W → Reply op × W) :
    Prog Reply α → W → List (Event Reply) × α × W
  | ret a, w => ([], a, w)
  | request op next, w =>
      let (r, w') := h op w
      let (t, a, w'') := play h (next r) w'
      (⟨op, r⟩ :: t, a, w'')

theorem play_runs {W : Type} (h : (op : Op) → W → Reply op × W) (p : Prog Reply α) (w : W) :
    Runs p (play h p w).1 (play h p w).2.1 := by
  induction p generalizing w with
  | ret a => exact ⟨rfl, rfl⟩
  | request op next ih => exact ⟨(h op w).1, _, ih _ _, rfl⟩

/-- An environment that keeps no state gives each request its one reply. -/
theorem play_reply {h : (op : Op) → Reply op} {p : Prog Reply α} {op : Op} {r : Reply op}
    (he : ⟨op, r⟩ ∈ (play (fun op u => (h op, u)) p ()).1) : r = h op := by
  induction p with
  | ret a => cases he
  | request op' next ih =>
      rcases List.mem_cons.mp he with heq | he
      · cases heq
        rfl
      · exact ih _ he

/-- An environment whose states keep `I` answers every request as `Q` says. -/
theorem play_forall {W : Type} {h : (op : Op) → W → Reply op × W} {I : W → Prop}
    {Q : Event Reply → Prop} (hstep : ∀ op w, I w → Q ⟨op, (h op w).1⟩ ∧ I (h op w).2)
    (p : Prog Reply α) {w : W} (hw : I w) :
    (∀ e ∈ (play h p w).1, Q e) ∧ I (play h p w).2.2 := by
  induction p generalizing w with
  | ret a => exact ⟨by simp [play], hw⟩
  | request op next ih =>
      obtain ⟨hreply, hnext⟩ := hstep op w hw
      obtain ⟨hrest, hend⟩ := ih _ hnext
      exact ⟨List.forall_mem_cons.mpr ⟨hreply, hrest⟩, hend⟩

/-! ### The state a run comes to -/

section Exec

variable {W : Type} {h : (op : Op) → W → Reply op × W} {I : W → Prop} {w : W}
  {p : Prog Reply α} {f : α → Prog Reply β}

/-- The result of a run against an environment, and the state it leaves. -/
def exec (h : (op : Op) → W → Reply op × W) (p : Prog Reply α) (w : W) : α × W :=
  (play h p w).2

theorem exec_bind : exec h (p >>= f) w = exec h (f (exec h p w).1) (exec h p w).2 := by
  induction p generalizing w with
  | ret a => rfl
  | request op next ih => exact ih (h op w).1

theorem exec_call_bind {op : Op} {f : Reply op → Prog Reply α} :
    exec h (call op >>= f) w = exec h (f (h op w).1) (h op w).2 := rfl

/-- The state after the first `n` requests of a run. -/
def upTo (h : (op : Op) → W → Reply op × W) : Nat → Prog Reply α → W → W
  | 0, _, w => w
  | _ + 1, ret _, w => w
  | n + 1, request op next, w => upTo h n (next (h op w).1) (h op w).2

/-- `I` holds at every point of a run. -/
def Throughout (h : (op : Op) → W → Reply op × W) (I : W → Prop) : Prog Reply α → W → Prop
  | ret _, w => I w
  | request op next, w => I w ∧ Throughout h I (next (h op w).1) (h op w).2

theorem Throughout.start (hp : Throughout h I p w) : I w := by
  cases p with
  | ret a => exact hp
  | request op next => exact hp.1

theorem Throughout.upTo (hp : Throughout h I p w) (n : Nat) : I (upTo h n p w) := by
  induction n generalizing p w with
  | zero => exact hp.start
  | succ n ih =>
      cases p with
      | ret a => exact hp
      | request op next => exact ih hp.2

theorem Throughout.bind (hp : Throughout h I p w)
    (hf : Throughout h I (f (Prog.exec h p w).1) (Prog.exec h p w).2) :
    Throughout h I (p >>= f) w := by
  induction p generalizing w with
  | ret a => exact hf
  | request op next ih => exact ⟨hp.1, ih _ hp.2 hf⟩

theorem throughout_call_bind {op : Op} {f : Reply op → Prog Reply β} :
    Throughout h I (call op >>= f) w ↔ I w ∧ Throughout h I (f (h op w).1) (h op w).2 := Iff.rfl

/-- A program that only asks what keeps `I` keeps it throughout. -/
theorem Asks.throughout {P : Op → Prop} (hp : Asks P p) (hw : I w)
    (hkeep : ∀ op w, P op → I w → I (h op w).2) : Throughout h I p w := by
  induction p generalizing w with
  | ret a => exact hw
  | request op next ih => exact ⟨hw, ih _ (hp.2 _) (hkeep op w hp.1 hw)⟩

end Exec

end Prog

/-! ### A part of a larger interface -/

namespace Event

variable {Op' : Type} {Reply' : Op' → Type}

/-- An event of the left half of an interface. -/
def left (Reply' : Op' → Type) (e : Event Reply) : Event (Sum.elim Reply Reply') :=
  ⟨.inl e.op, e.reply⟩

/-- The event, when it is one of the left half. -/
def left? : Event (Sum.elim Reply Reply') → Option (Event Reply)
  | ⟨.inl op, reply⟩ => some ⟨op, reply⟩
  | ⟨.inr _, _⟩ => none

/-- The event, when it is one of the right half. -/
def right? : Event (Sum.elim Reply Reply') → Option (Event Reply')
  | ⟨.inl _, _⟩ => none
  | ⟨.inr op, reply⟩ => some ⟨op, reply⟩

theorem filterMap_left?_left (t : List (Event Reply)) :
    (t.map (left Reply')).filterMap left? = t := by
  rw [List.filterMap_map]
  exact List.filterMap_some

theorem filterMap_right?_left (t : List (Event Reply)) :
    (t.map (left Reply')).filterMap right? = [] := by
  rw [List.filterMap_map]
  exact List.filterMap_eq_nil_iff.mpr fun _ _ => rfl

end Event

namespace Prog

variable {Op' : Type} {Reply' : Op' → Type} {p : Prog Reply α}

/-- `p` over an interface that offers its requests on the left. -/
def left (Reply' : Op' → Type) : Prog Reply α → Prog (Sum.elim Reply Reply') α
  | ret a => ret a
  | request op next => request (.inl op) fun r => (next r).left Reply'

theorem runs_left {t : List (Event (Sum.elim Reply Reply'))} {a : α} :
    Runs (p.left Reply') t a ↔ ∃ t', Runs p t' a ∧ t = t'.map (Event.left Reply') := by
  induction p generalizing t with
  | ret b =>
      constructor
      · intro h
        obtain ⟨rfl, rfl⟩ := h
        exact ⟨[], ⟨rfl, rfl⟩, rfl⟩
      · intro h
        obtain ⟨t', ⟨rfl, rfl⟩, rfl⟩ := h
        exact ⟨rfl, rfl⟩
  | request op next ih =>
      constructor
      · intro h
        obtain ⟨r, t', hrest, rfl⟩ := h
        obtain ⟨rest, hruns, rfl⟩ := (ih r).mp hrest
        exact ⟨⟨op, r⟩ :: rest, ⟨r, rest, hruns, rfl⟩, rfl⟩
      · intro h
        obtain ⟨t', ⟨r, rest, hruns, rfl⟩, rfl⟩ := h
        exact ⟨r, _, (ih r).mpr ⟨rest, hruns, rfl⟩, rfl⟩

end Prog

/-! ### What must come before -/

variable {P : Event Reply → Prop} {Q : List (Event Reply) → Prop}
variable {t t₁ t₂ : List (Event Reply)}

/-- Every event of `t` that `P` picks out comes after a history that `Q` accepts. -/
def Guarded (P : Event Reply → Prop) (Q : List (Event Reply) → Prop)
    (t : List (Event Reply)) : Prop :=
  ∀ pre e post, t = pre ++ e :: post → P e → Q pre

theorem Guarded.of_forall_not (h : ∀ e ∈ t, ¬ P e) : Guarded P Q t := by
  intro pre e post heq he
  subst heq
  exact absurd he (h e (by simp))

theorem Guarded.singleton {e : Event Reply} (h : Q []) : Guarded P Q [e] := by
  intro pre e' post heq _
  cases pre with
  | nil => exact h
  | cons _ pre => simp at heq

/-- The second half of a trace is guarded by what the first half established. -/
theorem Guarded.append (h₁ : Guarded P Q t₁) (h₂ : Guarded P (fun pre => Q (t₁ ++ pre)) t₂) :
    Guarded P Q (t₁ ++ t₂) := by
  intro pre e post heq he
  rcases List.append_eq_append_iff.mp heq with ⟨c, rfl, hc⟩ | ⟨c, rfl, hc⟩
  · -- the event lies in the second half
    exact h₂ c e post hc he
  · cases c with
    | nil => simpa using h₂ [] e post (by simpa using hc.symm) he
    | cons e' c =>
        obtain ⟨rfl, rfl⟩ : e = e' ∧ post = c ++ t₂ := by simpa using hc
        exact h₁ pre e c rfl he

/-- Guarding the part of a trace that `f` keeps, when `f` keeps the guarded events. -/
theorem guarded_filter {f : Event Reply → Bool} (hf : ∀ e, P e → f e = true) :
    Guarded P Q (t.filter f) ↔ Guarded P (fun pre => Q (pre.filter f)) t := by
  constructor
  · intro h pre e post heq he
    subst heq
    exact h (pre.filter f) e (post.filter f) (by simp [hf e he]) he
  · intro h pre e post heq he
    obtain ⟨pre', rest, rfl, hpre, hrest⟩ := List.filter_eq_append_iff.mp heq
    obtain ⟨skipped, post', rfl, hskipped, -, -⟩ := List.filter_eq_cons_iff.mp hrest
    have hQ := h (pre' ++ skipped) e post' (by simp) he
    have hskipped : skipped.filter f = [] := by simpa using hskipped
    simpa [hpre, hskipped] using hQ

end Interaction
