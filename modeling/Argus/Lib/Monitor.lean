import Argus.Lib.Interaction

/-!
# Monitors

A **monitor** watches the requests of a program and keeps a state of its own: which
requests the state admits, and where a request and its reply lead. It also says which
replies the environment can give, so that a program is judged under that assumption only.

`Obeys mon post p m` says that `p`, watched from the state `m`, never makes a request the
monitor does not admit, and returns in a state and with a value that `post` accepts. It is
a predicate on the *tree* of the program, so it holds of whatever is left of a program
that was stopped or that is half way through (`Obeys.request`), which is what an argument
about crashes needs.
-/

namespace Interaction

variable {Op : Type} {Reply : Op → Type} {α β M : Type}

/-- Admissible requests, the replies assumed, and the state after each. -/
structure Monitor (Reply : Op → Type) (M : Type) where
  allows : M → Op → Prop
  answers : (op : Op) → Reply op → Prop
  next : M → (op : Op) → Reply op → M

namespace Prog

variable {mon : Monitor Reply M} {post post' : M → α → Prop} {p : Prog Reply α} {m : M}

/-- Watched from `m`, the program keeps to the monitor and ends in `post`. -/
def Obeys (mon : Monitor Reply M) (post : M → α → Prop) : Prog Reply α → M → Prop
  | ret a, m => post m a
  | request op next, m =>
      mon.allows m op ∧ ∀ r, mon.answers op r → Obeys mon post (next r) (mon.next m op r)

@[simp] theorem obeys_pure {a : α} : Obeys mon post (pure a) m ↔ post m a := Iff.rfl

@[simp] theorem obeys_call_bind {op : Op} {f : Reply op → Prog Reply α} :
    Obeys mon post (call op >>= f) m ↔
      mon.allows m op ∧ ∀ r, mon.answers op r → Obeys mon post (f r) (mon.next m op r) := Iff.rfl

@[simp] theorem obeys_call {op : Op} {post : M → Reply op → Prop} :
    Obeys mon post (call op) m ↔
      mon.allows m op ∧ ∀ r, mon.answers op r → post (mon.next m op r) r := Iff.rfl

theorem Obeys.mono (h : Obeys mon post p m) (hpost : ∀ m a, post m a → post' m a) :
    Obeys mon post' p m := by
  induction p generalizing m with
  | ret a => exact hpost m a h
  | request op next ih => exact ⟨h.1, fun r hr => ih r (h.2 r hr)⟩

/-- The rule of sequencing. -/
theorem Obeys.bind {f : α → Prog Reply β} {post : M → β → Prop}
    (h : Obeys mon (fun m a => Obeys mon post (f a) m) p m) : Obeys mon post (p >>= f) m := by
  induction p generalizing m with
  | ret a => exact h
  | request op next ih => exact ⟨h.1, fun r hr => ih r (h.2 r hr)⟩

/-- Sequencing over an intermediate condition. -/
theorem Obeys.seq {f : α → Prog Reply β} {mid : M → α → Prop} {post : M → β → Prop}
    (h : Obeys mon mid p m) (hf : ∀ m a, mid m a → Obeys mon post (f a) m) :
    Obeys mon post (p >>= f) m := .bind (h.mono hf)

/-- What is left of a program after a request still keeps to the monitor. -/
theorem Obeys.request {op : Op} {next : Reply op → Prog Reply α} {r : Reply op}
    (h : Obeys mon post (.request op next) m) (hr : mon.answers op r) :
    Obeys mon post (next r) (mon.next m op r) := h.2 r hr

end Prog
end Interaction
