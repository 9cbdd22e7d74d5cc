import Argus.Lib.Interaction

/-!
# Programs in layers

A program over one interface becomes one over a lower interface, when every request of the first
has a program over the second that carries it out. `runs_through` takes a run of the lower program
apart: there is a run of the upper one, and each of its events is a run of the program that carried
it out. What is said of the upper requests and of each of those programs is then said of the lower
requests (`Asks.through` says it for what the programs may ask).
-/

namespace Interaction

variable {Op Op' : Type} {Reply : Op → Type} {Reply' : Op' → Type} {α : Type}

namespace Prog

variable {f : (op : Op) → Prog Reply' (Reply op)} {p : Prog Reply α}

/-- The program, with each request carried out by the program that `f` has for it. -/
def through (f : (op : Op) → Prog Reply' (Reply op)) : Prog Reply α → Prog Reply' α
  | ret a => ret a
  | request op next => (f op).bind fun r => (next r).through f

/-- What the upper program may ask bounds what the lower one may. -/
theorem Asks.through {P : Op → Prop} {Q : Op' → Prop} (h : Asks P p)
    (hf : ∀ op, P op → Asks Q (f op)) : Asks Q (p.through f) := by
  induction p with
  | ret a => trivial
  | request op next ih => exact (hf op h.1).bind fun r => ih r (h.2 r)

/-- The events of the lower interface are those of the programs for the upper ones, in turn. -/
inductive Carried (f : (op : Op) → Prog Reply' (Reply op)) :
    List (Event Reply) → List (Event Reply') → Prop
  | nil : Carried f [] []
  | cons {op : Op} {r : Reply op} {t : List (Event Reply)} {s s' : List (Event Reply')} :
      Runs (f op) s r → Carried f t s' → Carried f (⟨op, r⟩ :: t) (s ++ s')

theorem runs_through {s : List (Event Reply')} {a : α} :
    Runs (p.through f) s a ↔ ∃ t, Runs p t a ∧ Carried f t s := by
  induction p generalizing s with
  | ret b =>
      constructor
      · intro h
        obtain ⟨rfl, rfl⟩ := h
        exact ⟨[], ⟨rfl, rfl⟩, .nil⟩
      · intro h
        obtain ⟨t, ⟨rfl, rfl⟩, hcarried⟩ := h
        cases hcarried
        exact ⟨rfl, rfl⟩
  | request op next ih =>
      constructor
      · intro h
        obtain ⟨s₁, r, s₂, hfirst, hrest, rfl⟩ := runs_bind.mp h
        obtain ⟨t, hruns, hcarried⟩ := (ih r).mp hrest
        exact ⟨⟨op, r⟩ :: t, ⟨r, t, hruns, rfl⟩, .cons hfirst hcarried⟩
      · intro h
        obtain ⟨t, ⟨r, t', hruns, rfl⟩, hcarried⟩ := h
        cases hcarried with
        | cons hfirst hrest =>
            exact runs_bind.mpr ⟨_, r, _, hfirst, (ih r).mpr ⟨t', hruns, hrest⟩, rfl⟩

/-- Each event of the lower interface is one of the program for an upper event. -/
theorem Carried.exists_mem {t : List (Event Reply)} {s : List (Event Reply')}
    (h : Carried f t s) : ∀ e' ∈ s, ∃ e ∈ t, ∃ part, Runs (f e.op) part e.reply ∧ e' ∈ part := by
  induction h with
  | nil => simp
  | cons hfirst _ ih =>
      intro e' he'
      rcases List.mem_append.mp he' with hmem | hmem
      · exact ⟨_, List.mem_cons_self, _, hfirst, hmem⟩
      · obtain ⟨e, he, hpart⟩ := ih e' hmem
        exact ⟨e, List.mem_cons_of_mem _ he, hpart⟩

/-- Each upper event was carried out by events of the lower interface. -/
theorem Carried.exists_part {t : List (Event Reply)} {s : List (Event Reply')}
    (h : Carried f t s) : ∀ e ∈ t, ∃ part, Runs (f e.op) part e.reply ∧ ∀ e' ∈ part, e' ∈ s := by
  induction h with
  | nil => simp
  | cons hfirst _ ih =>
      refine List.forall_mem_cons.mpr ⟨⟨_, hfirst, fun _ => List.mem_append_left _⟩, ?_⟩
      intro e he
      obtain ⟨part, hruns, hpart⟩ := ih e he
      exact ⟨part, hruns, fun e' he' => List.mem_append_right _ (hpart e' he')⟩

end Prog

end Interaction
