import Mathlib.Data.List.Basic

/-!
# UTF-8

Decoding takes a character from the front of the bytes, or the bytes that begin none: what could
have been the beginning of a character, up to the byte that does not continue it. The strict
decoding refuses the latter, and the lossy one puts the replacement character in their place.
-/

namespace Utf8

/-- What follows a leading byte: how many bytes, the bounds of the first of them, and the bits of
the character so far. Those bounds rule out overlong forms, surrogates, and what is above the last
code point. -/
def lead (b : UInt8) : Option (Nat × UInt8 × UInt8 × Nat) :=
  if b ≤ 0x7F then some (0, 0x80, 0xBF, b.toNat)
  else if b < 0xC2 then none
  else if b ≤ 0xDF then some (1, 0x80, 0xBF, b.toNat - 0xC0)
  else if b = 0xE0 then some (2, 0xA0, 0xBF, 0)
  else if b = 0xED then some (2, 0x80, 0x9F, 0xD)
  else if b ≤ 0xEF then some (2, 0x80, 0xBF, b.toNat - 0xE0)
  else if b = 0xF0 then some (3, 0x90, 0xBF, 0)
  else if b ≤ 0xF3 then some (3, 0x80, 0xBF, b.toNat - 0xF0)
  else if b = 0xF4 then some (3, 0x80, 0x8F, 4)
  else none

/-- The continuing bytes, the first of them within bounds: the code point, or `none` at the byte
that does not continue it, with the bytes that are left. -/
def tails : Nat → UInt8 → UInt8 → Nat → List UInt8 → Option Nat × List UInt8
  | 0, _, _, bits, rest => (some bits, rest)
  | _ + 1, _, _, _, [] => (none, [])
  | n + 1, low, high, bits, b :: rest =>
      if low ≤ b ∧ b ≤ high then tails n 0x80 0xBF (bits * 64 + (b.toNat - 0x80)) rest
      else (none, b :: rest)

/-- The first character, and the bytes behind it. -/
def next (b : UInt8) (rest : List UInt8) : Option Char × List UInt8 :=
  match lead b with
  | none => (none, rest)
  | some (n, low, high, bits) =>
      let (code, rest) := tails n low high bits rest
      (code.map Char.ofNat, rest)

/-- The characters, with `none` for bytes that are none. `fuel` bounds their number. -/
def piecesUpTo : Nat → List UInt8 → List (Option Char)
  | 0, _ => []
  | _ + 1, [] => []
  | fuel + 1, b :: rest => (next b rest).1 :: piecesUpTo fuel (next b rest).2

def pieces (bytes : List UInt8) : List (Option Char) := piecesUpTo bytes.length bytes

/-- `str::from_utf8`. -/
def fromUtf8 (bytes : List UInt8) : Option (List Char) := (pieces bytes).mapM id

/-- `String::from_utf8_lossy`. -/
def fromUtf8Lossy (bytes : List UInt8) : List Char :=
  (pieces bytes).map fun piece => piece.getD '\uFFFD'

variable {b low high : UInt8} {n bits fuel : Nat} {rest bytes : List UInt8}

theorem tails_length_le : (tails n low high bits rest).2.length ≤ rest.length := by
  induction n generalizing low high bits rest with
  | zero => exact Nat.le_refl _
  | succ n ih =>
      cases rest with
      | nil => exact Nat.le_refl _
      | cons b rest =>
          rw [tails]
          split_ifs
          · exact Nat.le_succ_of_le ih
          · exact Nat.le_refl _

theorem next_length_le (b : UInt8) (rest : List UInt8) :
    (next b rest).2.length ≤ rest.length := by
  unfold next
  split
  · exact Nat.le_refl _
  · exact tails_length_le

/-- Any fuel that is enough gives the same. -/
theorem piecesUpTo_of_le {other : Nat} (h : bytes.length ≤ fuel) (hother : bytes.length ≤ other) :
    piecesUpTo fuel bytes = piecesUpTo other bytes := by
  induction fuel generalizing bytes other with
  | zero =>
      obtain rfl := List.length_eq_zero_iff.mp (Nat.le_zero.mp h)
      cases other <;> rfl
  | succ fuel ih =>
      cases bytes with
      | nil => cases other <;> rfl
      | cons b rest =>
          have hrest := next_length_le b rest
          rw [List.length_cons] at h hother
          obtain ⟨other, rfl⟩ : ∃ n, other = n + 1 := ⟨other - 1, by omega⟩
          rw [piecesUpTo, piecesUpTo, ih (by omega) (by omega : _ ≤ other)]

theorem pieces_cons : pieces (b :: rest) = (next b rest).1 :: pieces (next b rest).2 := by
  have hrest := next_length_le b rest
  rw [pieces, List.length_cons, piecesUpTo, pieces,
    piecesUpTo_of_le hrest (Nat.le_refl _)]

/-! ### ASCII -/

/-- The bytes of ASCII characters. -/
def ascii (chars : List Char) : List UInt8 := chars.map fun c => UInt8.ofNat c.toNat

def IsAscii (c : Char) : Prop := c.toNat < 0x80

instance (c : Char) : Decidable (IsAscii c) := inferInstanceAs (Decidable (_ < _))

theorem next_ascii {c : Char} (h : IsAscii c) :
    next (UInt8.ofNat c.toNat) rest = (some c, rest) := by
  have hnat : (UInt8.ofNat c.toNat).toNat = c.toNat :=
    UInt8.toNat_ofNat_of_lt' (Nat.lt_trans h (by decide))
  have hle : UInt8.ofNat c.toNat ≤ 0x7F := by
    rw [UInt8.le_iff_toNat_le, hnat]
    exact Nat.le_of_lt_succ h
  rw [next, lead, if_pos hle, hnat]
  simp [tails]

theorem fromUtf8_ascii_append {chars : List Char} (h : ∀ c ∈ chars, IsAscii c) :
    fromUtf8 (ascii chars ++ bytes) = (fromUtf8 bytes).map (chars ++ ·) := by
  induction chars with
  | nil => simp [ascii]
  | cons c chars ih =>
      obtain ⟨hc, hrest⟩ := List.forall_mem_cons.mp h
      have hstep : fromUtf8 (ascii (c :: chars) ++ bytes) =
          (fromUtf8 (ascii chars ++ bytes)).map (c :: ·) := by
        rw [fromUtf8, ascii, List.map_cons, List.cons_append, pieces_cons, next_ascii hc,
          List.mapM_cons]
        show (fromUtf8 (ascii chars ++ bytes)).bind (fun chars => some (c :: chars)) = _
        cases fromUtf8 (ascii chars ++ bytes) <;> rfl
      rw [hstep, ih hrest, Option.map_map]
      rfl

/-! ### The bytes of a text -/

/-- `str::as_bytes`. -/
def encode (chars : List Char) : List UInt8 := chars.flatMap String.utf8EncodeChar

@[simp] theorem encode_nil : encode [] = [] := rfl

theorem encode_cons {c : Char} {chars : List Char} :
    encode (c :: chars) = String.utf8EncodeChar c ++ encode chars := rfl

@[simp] theorem encode_append {chars chars' : List Char} :
    encode (chars ++ chars') = encode chars ++ encode chars' := List.flatMap_append

theorem lead_two : ∀ k < 30, lead (UInt8.ofNat (k + 2 + 0xC0)) = some (1, 0x80, 0xBF, k + 2) := by
  decide

theorem lead_three : ∀ k < 16, lead (UInt8.ofNat (k + 0xE0)) =
    some (2, if k = 0 then 0xA0 else 0x80, if k = 0xD then 0x9F else 0xBF, k) := by
  decide

theorem lead_four : ∀ k < 5, lead (UInt8.ofNat (k + 0xF0)) =
    some (3, if k = 0 then 0x90 else 0x80, if k = 4 then 0x8F else 0xBF, k) := by
  decide

theorem toNat_tail {m : Nat} (h : m < 64) : (UInt8.ofNat (m + 0x80)).toNat = m + 0x80 :=
  UInt8.toNat_ofNat_of_lt' (Nat.lt_trans (Nat.add_lt_add_right h _) (by decide))

/-- A byte that continues a character within the bounds it is held to. -/
theorem tails_cons {m : Nat} (h : m < 64) (hlow : low.toNat ≤ m + 0x80)
    (hhigh : m + 0x80 ≤ high.toNat) :
    tails (n + 1) low high bits (UInt8.ofNat (m + 0x80) :: rest) =
      tails n 0x80 0xBF (bits * 64 + m) rest := by
  have hbounds : low ≤ UInt8.ofNat (m + 0x80) ∧ UInt8.ofNat (m + 0x80) ≤ high := by
    simp only [UInt8.le_iff_toNat_le, toNat_tail h]
    exact ⟨hlow, hhigh⟩
  rw [tails, if_pos hbounds, toNat_tail h, Nat.add_sub_cancel]

theorem next_encodeChar {c : Char} {b : UInt8} {tail : List UInt8}
    (h : String.utf8EncodeChar c = b :: tail) : next b (tail ++ rest) = (some c, rest) := by
  have hvalid := c.valid
  have hval : Char.ofNat c.val.toNat = c := Char.ofNat_toNat c
  simp only [UInt32.isValidChar, Nat.isValidChar] at hvalid
  unfold String.utf8EncodeChar at h
  dsimp only at h
  generalize hv : c.val.toNat = v at h hvalid hval
  split_ifs at h with h1 h2 h3
  all_goals obtain ⟨rfl, rfl⟩ := List.cons.inj h
  · have hascii : IsAscii c := by
      show c.val.toNat < 0x80
      omega
    have hnext : next (UInt8.ofNat c.toNat) rest = (some c, rest) := next_ascii hascii
    rwa [show c.toNat = v from hv] at hnext
  · have hk : v / 64 % 32 = v / 64 - 2 + 2 := by omega
    rw [hk, next, lead_two _ (by omega)]
    simp only [List.cons_append, List.nil_append]
    rw [tails_cons (Nat.mod_lt _ (by decide)) (by simp) (by simp; omega), tails]
    rw [show (v / 64 - 2 + 2) * 64 + v % 64 = v by omega]
    simp [hval]
  · have hk : v / 4096 % 16 = v / 4096 := Nat.mod_eq_of_lt (by omega)
    rw [hk, next, lead_three _ (by omega)]
    simp only [List.cons_append, List.nil_append]
    rw [tails_cons (Nat.mod_lt _ (by decide)) (by split_ifs <;> simp; omega)
        (by split_ifs <;> (simp; omega)),
      tails_cons (Nat.mod_lt _ (by decide)) (by simp) (by simp; omega), tails]
    rw [show (v / 4096 * 64 + v / 64 % 64) * 64 + v % 64 = v by omega]
    simp [hval]
  · have hk : v / 262144 % 8 = v / 262144 := Nat.mod_eq_of_lt (by omega)
    rw [hk, next, lead_four _ (by omega)]
    simp only [List.cons_append, List.nil_append]
    rw [tails_cons (Nat.mod_lt _ (by decide)) (by split_ifs <;> simp; omega)
        (by split_ifs <;> (simp; omega)),
      tails_cons (Nat.mod_lt _ (by decide)) (by simp) (by simp; omega),
      tails_cons (Nat.mod_lt _ (by decide)) (by simp) (by simp; omega), tails]
    rw [show ((v / 262144 * 64 + v / 4096 % 64) * 64 + v / 64 % 64) * 64 + v % 64 = v by omega]
    simp [hval]

theorem fromUtf8_encode_append {chars : List Char} :
    fromUtf8 (encode chars ++ bytes) = (fromUtf8 bytes).map (chars ++ ·) := by
  induction chars with
  | nil => simp
  | cons c chars ih =>
      obtain ⟨b, tail, hc⟩ := List.exists_cons_of_ne_nil (String.utf8EncodeChar_ne_nil (c := c))
      have hstep : fromUtf8 (encode (c :: chars) ++ bytes) =
          (fromUtf8 (encode chars ++ bytes)).map (c :: ·) := by
        rw [encode_cons, hc, fromUtf8, List.append_assoc, List.cons_append, pieces_cons,
          next_encodeChar hc, List.mapM_cons]
        show (fromUtf8 (encode chars ++ bytes)).bind (fun chars => some (c :: chars)) = _
        cases fromUtf8 (encode chars ++ bytes) <;> rfl
      rw [hstep, ih, Option.map_map]
      rfl

/-- A text is read back from its bytes. -/
@[simp] theorem fromUtf8_encode {chars : List Char} : fromUtf8 (encode chars) = some chars := by
  have h : fromUtf8 (encode chars ++ []) = (fromUtf8 []).map (chars ++ ·) :=
    fromUtf8_encode_append
  simpa [fromUtf8, pieces, piecesUpTo] using h

/-- The byte of an ASCII character stands for that character alone. -/
theorem mem_of_mem_encode {a : Char} {chars : List Char} (ha : IsAscii a)
    (h : UInt8.ofNat a.toNat ∈ encode chars) : a ∈ chars := by
  obtain ⟨c, hc, hmem⟩ := List.mem_flatMap.mp h
  have hv : (UInt8.ofNat a.toNat).toNat = a.toNat :=
    UInt8.toNat_ofNat_of_lt' (Nat.lt_trans ha (by decide))
  unfold IsAscii at ha
  unfold String.utf8EncodeChar at hmem
  dsimp only at hmem
  have heq : c.toNat = a.toNat := by
    show c.val.toNat = a.toNat
    split_ifs at hmem with h1 h2 h3
    all_goals
      simp only [List.mem_cons, List.not_mem_nil, or_false, ← UInt8.toNat_inj, hv,
        UInt8.toNat_ofNat'] at hmem
      omega
  rwa [← Char.toNat_inj.mp heq]

end Utf8
