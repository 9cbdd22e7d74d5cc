import Argus.Lib.Interaction

/-!
# Programs that can be cut off

A program is run against an environment that has a state, and that may answer a request in one of
several ways (`Answers`). `Safe` is the triple of such programs: wherever the program can be cut
off `I` holds, and wherever it ends `Q` does.

A machine runs one job after another. A job ends, or the machine goes down during it and comes up
again with its state as `crash` leaves it. `Lives.refines` is the rule for what a machine keeps, and
for how an abstract machine follows it: what each job does is shown once, by a `Safe` triple.
-/

namespace Interaction

variable {Op J : Type} {Reply : Op → Type} {σ τ α β : Type}

/-- The replies an environment may give, and the state that each of them leaves. -/
abbrev Answers (Reply : Op → Type) (σ : Type) := (op : Op) → σ → Reply op → σ → Prop

namespace Prog

variable {answers : Answers Reply σ} {I I' : σ → Prop} {Q Q' : α → σ → Prop} {p : Prog Reply α}
  {s s' : σ}

/-- `I` holds wherever the program is cut off, and `Q` where it ends. -/
def Safe (answers : Answers Reply σ) (I : σ → Prop) (Q : α → σ → Prop) :
    Prog Reply α → σ → Prop
  | ret a, s => I s ∧ Q a s
  | request op next, s => I s ∧ ∀ r s', answers op s r s' → Safe answers I Q (next r) s'

theorem safe_pure {a : α} : Safe answers I Q (pure a) s ↔ I s ∧ Q a s := Iff.rfl

theorem safe_call_bind {op : Op} {f : Reply op → Prog Reply α} :
    Safe answers I Q (call op >>= f) s ↔
      I s ∧ ∀ r s', answers op s r s' → Safe answers I Q (f r) s' := Iff.rfl

theorem Safe.start (h : Safe answers I Q p s) : I s := by
  cases p with
  | ret a => exact h.1
  | request op next => exact h.1

theorem Safe.mono (h : Safe answers I Q p s) (hI : ∀ s, I s → I' s)
    (hQ : ∀ a s, Q a s → Q' a s) : Safe answers I' Q' p s := by
  induction p generalizing s with
  | ret a => exact ⟨hI s h.1, hQ a s h.2⟩
  | request op next ih => exact ⟨hI s h.1, fun r s' hr => ih r (h.2 r s' hr)⟩

theorem Safe.bind {S : β → σ → Prop} {f : α → Prog Reply β} (h : Safe answers I Q p s)
    (hf : ∀ a s, Q a s → Safe answers I S (f a) s) : Safe answers I S (p >>= f) s := by
  induction p generalizing s with
  | ret a => exact hf a s h.2
  | request op next ih => exact ⟨h.1, fun r s' hr => ih r (h.2 r s' hr)⟩

/-- The program comes from `s` to `s'`, and ends there with a result or is cut off there. -/
inductive Reaches (answers : Answers Reply σ) : Prog Reply α → σ → Option α → σ → Prop
  | ended {a : α} {s : σ} : Reaches answers (.ret a) s (some a) s
  | cut {p : Prog Reply α} {s : σ} : Reaches answers p s none s
  | step {op : Op} {next : Reply op → Prog Reply α} {s s' s'' : σ} {r : Reply op}
      {o : Option α} : answers op s r s' → Reaches answers (next r) s' o s'' →
      Reaches answers (.request op next) s o s''

/-- A run against one environment, when that answers as it may. -/
theorem reaches_exec {h : (op : Op) → σ → Reply op × σ}
    (hanswers : ∀ op s, answers op s (h op s).1 (h op s).2) (p : Prog Reply α) (s : σ) :
    Reaches answers p s (some (exec h p s).1) (exec h p s).2 := by
  induction p generalizing s with
  | ret a => exact .ended
  | request op next ih => exact .step (hanswers op s) (ih _ _)

theorem Safe.reaches {o : Option α} (h : Safe answers I Q p s) (hr : Reaches answers p s o s') :
    I s' ∧ ∀ a ∈ o, Q a s' := by
  induction hr with
  | ended =>
      refine ⟨h.1, fun a ha => ?_⟩
      obtain rfl := Option.mem_some_iff.mp ha
      exact h.2
  | cut => exact ⟨h.start, nofun⟩
  | step hanswer _ ih => exact ih (h.2 _ _ hanswer)

end Prog

open Prog

/-- What became of a job. -/
inductive Fate (J α : Type)
  | ended (job : J) (result : α)
  /-- The machine went down. -/
  | down (job : J)

def Fate.job : Fate J α → J
  | .ended job _ | .down job => job

/-- A machine that runs jobs, and may go down during any of them. -/
inductive Lives (answers : Answers Reply σ) (crash : σ → σ → Prop) (jobs : J → Prog Reply α) :
    σ → List (Fate J α) → σ → Prop
  | nil {s : σ} : Lives answers crash jobs s [] s
  | ended {s s' s'' : σ} {job : J} {a : α} {fates : List (Fate J α)} :
      Reaches answers (jobs job) s (some a) s' → Lives answers crash jobs s' fates s'' →
      Lives answers crash jobs s (.ended job a :: fates) s''
  | down {s s' s'' s''' : σ} {job : J} {o : Option α} {fates : List (Fate J α)} :
      Reaches answers (jobs job) s o s' → crash s' s'' → Lives answers crash jobs s'' fates s''' →
      Lives answers crash jobs s (.down job :: fates) s'''

/-- An abstract machine that does the same jobs: how each ends, and where a crash leaves it. -/
inductive Follows (ends : τ → J → α → τ → Prop) (downs : τ → J → τ → Prop) :
    τ → List (Fate J α) → τ → Prop
  | nil {t : τ} : Follows ends downs t [] t
  | ended {t t' t'' : τ} {job : J} {a : α} {fates : List (Fate J α)} :
      ends t job a t' → Follows ends downs t' fates t'' →
      Follows ends downs t (.ended job a :: fates) t''
  | down {t t' t'' : τ} {job : J} {fates : List (Fate J α)} :
      downs t job t' → Follows ends downs t' fates t'' →
      Follows ends downs t (.down job :: fates) t''

section Refinement

variable {answers : Answers Reply σ} {crash : σ → σ → Prop} {jobs : J → Prog Reply α}
  {ends : τ → J → α → τ → Prop} {downs : τ → J → τ → Prop} {R : τ → σ → Prop}
  {C : τ → J → σ → Prop} {s s' : σ} {t : τ} {fates : List (Fate J α)}

/-- Where each job ends as the abstract one does, and a crash at any point of it leaves what the
abstract one may be left with, the abstract machine follows every life. -/
theorem Lives.refines (h : Lives answers crash jobs s fates s') (hR : R t s)
    (hjobs : ∀ t s job, R t s →
      Safe answers (C t job) (fun a s => ∃ t', ends t job a t' ∧ R t' s) (jobs job) s)
    (hcrash : ∀ t job s s', C t job s → crash s s' → ∃ t', downs t job t' ∧ R t' s') :
    ∃ t', Follows ends downs t fates t' ∧ R t' s' := by
  induction h generalizing t with
  | nil => exact ⟨t, .nil, hR⟩
  | ended hreaches _ ih =>
      obtain ⟨t', hends, hR'⟩ := ((hjobs _ _ _ hR).reaches hreaches).2 _ rfl
      obtain ⟨t'', hfollows, hR''⟩ := ih hR'
      exact ⟨t'', .ended hends hfollows, hR''⟩
  | down hreaches hdown _ ih =>
      have hC := ((hjobs _ _ _ hR).reaches hreaches).1
      obtain ⟨t', hdowns, hR'⟩ := hcrash _ _ _ _ hC hdown
      obtain ⟨t'', hfollows, hR''⟩ := ih hR'
      exact ⟨t'', .down hdowns hfollows, hR''⟩

end Refinement

end Interaction
