import Argus.Lib.Keyed

/-!
# Folds whose steps each touch one key

A state is seen key by key. Where each step of a fold changes what is seen at the key of its own
element, and nothing else, a fold over elements of distinct keys changes each key once.
-/

namespace Scattered

variable {σ κ τ β : Type*} [DecidableEq κ]

/-- The step for an element changes what is seen at its key by `g`, and nothing else. -/
structure Local (view : σ → κ → τ) (key : β → κ) (f : σ → β → σ) (g : β → τ → τ) : Prop where
  own : ∀ s b, view (f s b) (key b) = g b (view s (key b))
  other : ∀ s b k, k ≠ key b → view (f s b) k = view s k

variable {view : σ → κ → τ} {key : β → κ} {f : σ → β → σ} {g : β → τ → τ} {bs : List β}

/-- What is seen at a key after a fold: what the element of the key makes of it, if there is one. -/
theorem Local.view_foldl (h : Local view key f g) (hbs : (bs.map key).Nodup) (s : σ) (k : κ) :
    view (bs.foldl f s) k = (Keyed.lookup key bs k).elim (view s k) fun b => g b (view s k) := by
  induction bs generalizing s with
  | nil => rfl
  | cons b bs ih =>
      rw [List.map_cons, List.nodup_cons] at hbs
      rw [List.foldl_cons, ih hbs.2, Keyed.lookup_cons]
      by_cases hk : key b = k
      · subst hk
        -- no later element has the key
        have hnone : Keyed.lookup key bs (key b) = none :=
          Keyed.lookup_eq_none_iff.mpr fun b' hb' heq => hbs.1 (heq ▸ List.mem_map_of_mem hb')
        rw [hnone, if_pos rfl]
        exact h.own s b
      · rw [if_neg hk, h.other s b k (Ne.symm hk)]

end Scattered
