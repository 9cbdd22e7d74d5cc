import Argus.Domain.CloudCommand
import Argus.Lib.Table

/-!
# What the tables of the repository share

A record is kept as its JSON, in a column of text. A table that is keyed by an id keeps one row of
each, and a row that is put again goes to the end.
-/

namespace Argus

/-- `SqliteRepository::encode`. -/
def encode {α : Type} (codec : Codec α) (value : α) : Except RepositoryError String :=
  (codec.encode value).mapError .failed

/-- `SqliteRepository::decode`. -/
def decode {α : Type} (codec : Codec α) (data : String) : Except RepositoryError α :=
  (codec.decode data).mapError .corrupt

/-- A statement that fails leaves what it found. -/
def kept {σ : Type} (found : σ) : Except RepositoryError σ → σ
  | .ok left => left
  | .error _ => found

/-- The row of a table that is keyed by its id. -/
structure KeyedRow (κ : Type) where
  id : κ
  data : String

section Keyed

variable {κ α : Type} [DecidableEq κ] (codec : Codec α)

/-- `put_json` of an encoded value. -/
def putJson (table : Table (KeyedRow κ)) (id : κ) (value : α) :
    Except RepositoryError (Table (KeyedRow κ)) := do
  let data ← encode codec value
  return table.insertOrReplace KeyedRow.id ⟨id, data⟩

/-- `list_json_ordered`, decoded. -/
def listJsonOrdered (table : Table (KeyedRow κ)) : Except RepositoryError (List (κ × α)) :=
  table.values.mapM fun row => return (row.id, ← decode codec row.data)

end Keyed

variable {κ α : Type} {codec : Codec α} {value : α}

theorem encode_eq (h : codec.ReadsBack value) : encode codec value = .ok (codec.text value) := by
  rw [encode, h.encode]
  rfl

theorem decode_eq (h : codec.ReadsBack value) : decode codec (codec.text value) = .ok value := by
  rw [decode, h.decode]
  rfl

/-- A table of the database after a statement on it. -/
theorem kept_bind {σ τ : Type} (f : σ → τ) (g : τ → σ) (hfg : ∀ left, f (g left) = left)
    {found : σ} {put : Except RepositoryError τ} :
    f (kept found (put.bind fun left => .ok (g left))) = kept (f found) put := by
  cases put with
  | error error => rfl
  | ok left => exact hfg left

end Argus
