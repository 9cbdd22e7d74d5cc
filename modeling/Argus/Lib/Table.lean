import Argus.Lib.Keyed
import Mathlib.Data.List.DropRight
import Mathlib.Data.List.Sort
import Mathlib.Order.Basic

/-!
# Tables of a SQL database

A table is its rows with their rowids, in the order of these. A new row gets the next rowid above
the highest, also where it replaces one. What a table says is the list of its values, and each
statement has its equation, or its order, on that list.

The values are texts that a codec writes and reads. A text that does not read back as what was
written is a text all the same.
-/

/-- The rows, with their rowids. -/
structure Table (ρ : Type*) where
  rows : List (Nat × ρ)
  increasing : (rows.map Prod.fst).Pairwise (· < ·)

namespace Table

variable {ρ κ γ : Type*}

def empty : Table ρ := ⟨[], .nil⟩

/-- The values, in the order of the rowids. -/
def values (table : Table ρ) : List ρ := table.rows.map Prod.snd

def nextRowid (table : Table ρ) : Nat :=
  match table.rows.getLast? with
  | some row => row.1 + 1
  | none => 1

theorem lt_nextRowid (table : Table ρ) {rowid : Nat} (h : rowid ∈ table.rows.map Prod.fst) :
    rowid < table.nextRowid := by
  unfold nextRowid
  rcases List.eq_nil_or_concat' table.rows with hrows | ⟨rows, last, hrows⟩
  · simp [hrows] at h
  · have hincreasing := table.increasing
    rw [hrows, List.map_append, List.pairwise_append] at hincreasing
    rw [hrows, List.map_append, List.mem_append] at h
    rw [hrows, List.getLast?_append]
    rcases h with h | h
    · exact Nat.lt_succ_of_lt (hincreasing.2.2 rowid h last.1 (by simp))
    · obtain rfl : rowid = last.1 := by simpa using h
      exact Nat.lt_succ_self _

/-- The rows, or some of them, and a new one. -/
theorem increasing_snoc (table : Table ρ) {rows : List (Nat × ρ)} (h : rows.Sublist table.rows)
    (row : ρ) : ((rows ++ [(table.nextRowid, row)]).map Prod.fst).Pairwise (· < ·) := by
  rw [List.map_append, List.pairwise_append]
  refine ⟨table.increasing.sublist (h.map _), List.pairwise_singleton _ _, ?_⟩
  intro rowid hrowid last hlast
  obtain rfl : last = table.nextRowid := by simpa using hlast
  exact table.lt_nextRowid ((h.map _).subset hrowid)

/-! ### Statements -/

def insert (table : Table ρ) (row : ρ) : Table ρ :=
  ⟨table.rows ++ [(table.nextRowid, row)], table.increasing_snoc (List.Sublist.refl _) row⟩

def delete (table : Table ρ) (p : ρ → Bool) : Table ρ :=
  ⟨table.rows.filter fun row => !p row.2, table.increasing.sublist (List.filter_sublist.map _)⟩

/-- `SELECT rowid … ORDER BY rowid DESC LIMIT 1 OFFSET n`. -/
def rowidFromEnd (table : Table ρ) (n : Nat) : Option Nat :=
  (table.rows.reverse[n]?).map Prod.fst

/-- `DELETE … WHERE rowid < bound`. No rowid is below a bound that is `NULL`. -/
def deleteBelow (table : Table ρ) (bound : Option Nat) : Table ρ :=
  ⟨table.rows.filter fun row => !bound.any fun rowid => row.1 < rowid,
    table.increasing.sublist (List.filter_sublist.map _)⟩

section Keys

variable [DecidableEq κ] (key : ρ → κ)

/-- `INSERT OR IGNORE`. -/
def insertOrIgnore (table : Table ρ) (row : ρ) : Table ρ :=
  if table.rows.any fun other => key other.2 == key row then table else table.insert row

/-- `INSERT OR REPLACE`. -/
def insertOrReplace (table : Table ρ) (row : ρ) : Table ρ :=
  ⟨(table.rows.filter fun other => key other.2 != key row) ++ [(table.nextRowid, row)],
    table.increasing_snoc List.filter_sublist row⟩

end Keys

/-- `SELECT … ORDER BY column DESC, rowid DESC`. -/
def selectDesc [LinearOrder γ] (table : Table ρ) (column : ρ → γ) (p : ρ → Bool) : List ρ :=
  ((table.rows.filter fun row => p row.2).mergeSort fun a b =>
    decide (column b.2 < column a.2 ∨ column a.2 = column b.2 ∧ b.1 ≤ a.1)).map Prod.snd

/-- Two rows keep their places, unless the second is to stand before the first. -/
theorem mergeSort_pair {α : Type*} (le : α → α → Bool) (a b : α) :
    [a, b].mergeSort le = if le a b then [a, b] else [b, a] := by
  rw [List.mergeSort]
  simp [List.MergeSort.Internal.splitInTwo, List.merge]

/-! ### What the statements leave -/

variable {table : Table ρ} {row : ρ}

@[simp] theorem values_empty : (empty : Table ρ).values = [] := rfl

@[simp] theorem values_insert : (table.insert row).values = table.values ++ [row] := by
  simp [values, insert]

@[simp] theorem values_delete {p : ρ → Bool} :
    (table.delete p).values = table.values.filter fun row => !p row := by
  simp [values, delete, List.filter_map, Function.comp_def]

@[simp] theorem values_insertOrIgnore [DecidableEq κ] {key : ρ → κ} :
    (table.insertOrIgnore key row).values = Keyed.insertNew key table.values row := by
  unfold insertOrIgnore Keyed.insertNew
  have hany : (table.rows.any fun other => key other.2 == key row) =
      table.values.any fun other => key other == key row := by
    simp [values, Function.comp_def]
  rw [hany]
  split_ifs
  · rfl
  · exact values_insert

@[simp] theorem values_insertOrReplace [DecidableEq κ] {key : ρ → κ} :
    (table.insertOrReplace key row).values =
      (table.values.filter fun other => key other != key row) ++ [row] := by
  simp [values, insertOrReplace, List.filter_map, Function.comp_def]

/-- The rows from the one at `k` on are those whose rowid is not below its rowid. -/
theorem filter_rowid_lt {k : Nat} (h : k < table.rows.length) :
    (table.rows.filter fun row => !decide (row.1 < table.rows[k].1)) = table.rows.drop k := by
  have hincreasing := table.increasing
  rw [List.pairwise_map] at hincreasing
  have hbefore : ∀ row ∈ table.rows.take k, row.1 < table.rows[k].1 := by
    intro row hrow
    obtain ⟨i, hi, rfl⟩ := List.mem_take_iff_getElem.mp hrow
    exact List.pairwise_iff_getElem.mp hincreasing i k _ h (by omega)
  have hafter : ∀ row ∈ table.rows.drop k, table.rows[k].1 ≤ row.1 := by
    intro row hrow
    rw [List.drop_eq_getElem_cons h, List.mem_cons] at hrow
    rcases hrow with rfl | hrow
    · exact le_rfl
    · rw [List.mem_drop_iff_getElem] at hrow
      obtain ⟨i, hi, rfl⟩ := hrow
      exact (List.pairwise_iff_getElem.mp hincreasing k _ h _ (by omega)).le
  generalize table.rows[k].1 = bound at hbefore hafter ⊢
  conv_lhs => rw [← List.take_append_drop k table.rows]
  rw [List.filter_append, List.filter_eq_nil_iff.mpr, List.filter_eq_self.mpr, List.nil_append]
  · intro row hrow
    simpa using hafter row hrow
  · intro row hrow
    simpa using hbefore row hrow

/-- A bound that is found `n` rows from the end leaves one row more than `n`. -/
theorem values_deleteBelow {n : Nat} :
    (table.deleteBelow (table.rowidFromEnd n)).values = table.values.rtake (n + 1) := by
  rw [List.rtake, values, values, List.length_map, ← List.map_drop]
  by_cases hn : n < table.rows.length
  · have hbound : table.rowidFromEnd n = some table.rows[table.rows.length - (n + 1)].1 := by
      rw [rowidFromEnd, List.getElem?_reverse hn, List.getElem?_eq_getElem (by omega)]
      simp only [Option.map_some, Option.some.injEq]
      congr 2
      omega
    simp only [deleteBelow, hbound, Option.any_some, filter_rowid_lt]
  · have hbound : table.rowidFromEnd n = none := by
      rw [rowidFromEnd, List.getElem?_eq_none (by simpa using hn), Option.map_none]
    simp [deleteBelow, hbound, Nat.sub_eq_zero_of_le (by omega : table.rows.length ≤ n + 1)]

section Order

variable [LinearOrder γ] {column : ρ → γ} {p : ρ → Bool}

theorem selectDesc_perm : (table.selectDesc column p).Perm (table.values.filter p) := by
  unfold selectDesc values
  rw [List.filter_map]
  exact (List.mergeSort_perm _ _).map _

theorem selectDesc_sorted :
    (table.selectDesc column p).Pairwise fun a b => column b ≤ column a := by
  unfold selectDesc
  rw [List.pairwise_map]
  refine (List.pairwise_mergeSort ?_ ?_ _).imp fun {a b} h => ?_
  · intro a b c hab hbc
    simp only [decide_eq_true_eq] at *
    rcases hab with hab | ⟨hab, hid⟩
    · rcases hbc with hbc | ⟨hbc, -⟩
      · exact .inl (hbc.trans hab)
      · exact .inl (hbc ▸ hab)
    · rcases hbc with hbc | ⟨hbc, hid'⟩
      · exact .inl (hab ▸ hbc)
      · exact .inr ⟨hab.trans hbc, hid'.trans hid⟩
  · intro a b
    simp only [Bool.or_eq_true, decide_eq_true_eq]
    rcases lt_trichotomy (column a.2) (column b.2) with h | h | h
    · exact .inr (.inl h)
    · rcases Nat.le_total a.1 b.1 with hid | hid
      · exact .inr (.inr ⟨h.symm, hid⟩)
      · exact .inl (.inr ⟨h, hid⟩)
    · exact .inl (.inl h)
  · rcases decide_eq_true_eq.mp h with h | ⟨h, -⟩
    · exact h.le
    · exact h.ge

end Order

/-- A reordering of images is the image of a reordering. -/
theorem exists_of_perm_map {α β : Type*} {f : α → β} {xs : List α} {ys : List β}
    (h : ys.Perm (xs.map f)) : ∃ zs : List α, zs.Perm xs ∧ ys = zs.map f := by
  induction xs generalizing ys with
  | nil => exact ⟨[], .refl _, by simpa using h⟩
  | cons x xs ih =>
      have hx : f x ∈ ys := h.mem_iff.mpr List.mem_cons_self
      obtain ⟨before, after, rfl⟩ := List.append_of_mem hx
      obtain ⟨zs, hzs, hsplit⟩ := ih (List.perm_middle.symm.trans h).cons_inv
      obtain ⟨us, vs, rfl, rfl, rfl⟩ := List.append_eq_map_iff.mp hsplit
      exact ⟨us ++ x :: vs, List.perm_middle.trans (hzs.cons x), by simp⟩

end Table

/-! ### Encoded values -/

/-- How values are written as texts and read from them. Both may fail. -/
structure Codec (α : Type*) where
  encode : α → Except String String
  decode : String → Except String α

namespace Codec

variable {α : Type*} (codec : Codec α)

/-- The text that is written for the value reads as the value. -/
def ReadsBack (value : α) : Prop :=
  ∃ data, codec.encode value = .ok data ∧ codec.decode data = .ok value

/-- The text that is written for the value. -/
def text (value : α) : String :=
  match codec.encode value with
  | .ok data => data
  | .error _ => ""

/-- The codec of a few values, by their texts. -/
def ofTexts [DecidableEq α] (texts : List (α × String)) : Codec α where
  encode value :=
    match Keyed.lookup Prod.fst texts value with
    | some entry => .ok entry.2
    | none => .error "unknown value"
  decode data :=
    match Keyed.lookup Prod.snd texts data with
    | some entry => .ok entry.1
    | none => .error "unknown text"

theorem readsBack_ofTexts [DecidableEq α] {texts : List (α × String)} {entry : α × String}
    (hvalues : (texts.map Prod.fst).Nodup) (htexts : (texts.map Prod.snd).Nodup)
    (h : entry ∈ texts) : (ofTexts texts).ReadsBack entry.1 := by
  refine ⟨entry.2, ?_, ?_⟩
  · simp only [ofTexts, Keyed.lookup_of_mem hvalues h]
  · simp only [ofTexts, Keyed.lookup_of_mem htexts h]

variable {codec} {value : α}

theorem ReadsBack.encode (h : codec.ReadsBack value) :
    codec.encode value = .ok (codec.text value) := by
  obtain ⟨data, hencode, -⟩ := h
  simp [text, hencode]

theorem ReadsBack.decode (h : codec.ReadsBack value) :
    codec.decode (codec.text value) = .ok value := by
  obtain ⟨data, hencode, hdecode⟩ := h
  simpa [text, hencode] using hdecode

end Codec

