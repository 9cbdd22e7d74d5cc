import Mathlib.Data.Nat.Digits.Defs
import Mathlib.Data.String.Basic

/-!
# Timestamps as RFC 3339 texts

An instant is a count of nanoseconds since 1970, in the proleptic Gregorian calendar and in UTC.
Its text has as many digits of the second's fraction as are needed, in groups of three, and a year
that four digits cannot write has a sign.

`write_le_iff` says that the texts compare as the instants do, as long as the years are those that
four digits write.
-/

namespace Rfc3339

/-! ### Texts that compare whatever follows -/

/-- The texts differ, and the first has the smaller character where they do so first. -/
def Precedes (s t : List Char) : Prop :=
  ∃ p c d s' t', s = p ++ c :: s' ∧ t = p ++ d :: t' ∧ c < d

variable {s t : List Char}

theorem Precedes.of_cons {c d : Char} (h : c < d) (s t : List Char) : Precedes (c :: s) (d :: t) :=
  ⟨[], c, d, s, t, rfl, rfl, h⟩

theorem Precedes.append (h : Precedes s t) (s' t' : List Char) : Precedes (s ++ s') (t ++ t') := by
  obtain ⟨p, c, d, u, v, rfl, rfl, hlt⟩ := h
  exact ⟨p, c, d, u ++ s', v ++ t', by simp, by simp, hlt⟩

theorem Precedes.append_left (h : Precedes s t) (p : List Char) : Precedes (p ++ s) (p ++ t) := by
  obtain ⟨q, c, d, u, v, rfl, rfl, hlt⟩ := h
  exact ⟨p ++ q, c, d, u, v, by simp, by simp, hlt⟩

theorem Precedes.cons (h : Precedes s t) (c : Char) : Precedes (c :: s) (c :: t) :=
  h.append_left [c]

theorem Precedes.lt (h : Precedes s t) : s < t := by
  obtain ⟨p, c, d, u, v, rfl, rfl, hlt⟩ := h
  induction p with
  | nil => exact List.Lex.rel hlt
  | cons e p ih => exact List.Lex.cons ih

/-! ### Decimal fields -/

/-- The last `w` decimal digits. -/
def pad : Nat → Nat → List Char
  | 0, _ => []
  | w + 1, n => pad w (n / 10) ++ [Nat.digitChar (n % 10)]

theorem digitChar_lt : ∀ m < 10, ∀ n < m, Nat.digitChar n < Nat.digitChar m := by decide

/-- Fields of one width compare as their numbers. -/
theorem pad_precedes {w n m : Nat} (h : n < m) (hm : m < 10 ^ w) :
    Precedes (pad w n) (pad w m) := by
  induction w generalizing n m with
  | zero => exact absurd h (by simp at hm; omega)
  | succ w ih =>
      by_cases htens : n / 10 = m / 10
      · have hunits := digitChar_lt (m % 10) (Nat.mod_lt _ (by omega)) (n % 10) (by omega)
        simp only [pad, htens]
        exact (Precedes.of_cons hunits [] []).append_left _
      · exact (ih (by omega) (by rw [Nat.pow_succ] at hm; omega)).append _ _

theorem pad_add (w v n : Nat) : pad (w + v) n = pad w (n / 10 ^ v) ++ pad v n := by
  induction v generalizing n with
  | zero => simp [pad]
  | succ v ih =>
      have hdiv : n / 10 / 10 ^ v = n / 10 ^ (v + 1) := by
        rw [Nat.div_div_eq_div_mul, Nat.pow_succ, Nat.mul_comm]
      rw [← Nat.add_assoc, pad, ih, hdiv, pad, List.append_assoc]

theorem pad_succ_eq_cons (v n : Nat) : ∃ k < 10, ∃ rest, pad (v + 1) n = Nat.digitChar k :: rest :=
  ⟨n / 10 ^ v % 10, Nat.mod_lt _ (by omega), pad v n, by
    rw [Nat.add_comm, pad_add, pad, pad, List.nil_append, List.singleton_append]⟩

/-- At least four digits, and as many as there are. -/
def atLeastFour (n : Nat) : List Char := if n < 10000 then pad 4 n else Nat.toDigits 10 n

/-! ### The calendar -/

/-- The days from the start of year 0 to the start of a year. -/
def daysBefore (year : Int) : Int :=
  365 * year + (year + 3) / 4 - (year + 99) / 100 + (year + 399) / 400

/-- The year of a day, which is counted from the start of year 0. The average length of a year
finds it, or one next to it. -/
def yearOf (day : Int) : Int :=
  let year := day * 400 / 146097
  if day < daysBefore year then year - 1
  else if daysBefore (year + 1) ≤ day then year + 1
  else year

def isLeap (year : Int) : Bool := year % 4 == 0 && (year % 100 != 0 || year % 400 == 0)

/-- The lengths of the months; December is the rest. -/
def monthLengths (leap : Bool) : List Nat :=
  [31, if leap then 29 else 28, 31, 30, 31, 30, 31, 31, 30, 31, 30]

/-- The month and the day of the month, both from 1. -/
def monthDay : List Nat → Nat → Nat × Nat
  | [], n => (1, n + 1)
  | length :: lengths, n =>
      if n < length then (1, n + 1)
      else ((monthDay lengths (n - length)).1 + 1, (monthDay lengths (n - length)).2)

theorem daysBefore_yearOf (day : Int) :
    daysBefore (yearOf day) ≤ day ∧ day < daysBefore (yearOf day + 1) := by
  unfold yearOf
  simp only
  split_ifs with hbefore hafter
  · rw [Int.sub_add_cancel]
    refine ⟨?_, hbefore⟩
    unfold daysBefore
    omega
  · refine ⟨hafter, ?_⟩
    unfold daysBefore
    omega
  · omega

theorem daysBefore_mono {year year' : Int} (h : year ≤ year') :
    daysBefore year ≤ daysBefore year' := by
  unfold daysBefore
  omega

theorem daysBefore_succ_le (year : Int) : daysBefore (year + 1) ≤ daysBefore year + 366 := by
  unfold daysBefore
  omega

theorem yearOf_mono {day day' : Int} (h : day ≤ day') : yearOf day ≤ yearOf day' := by
  by_contra hlt
  have hstart := (daysBefore_yearOf day).1
  have hend := (daysBefore_yearOf day').2
  have := daysBefore_mono (show yearOf day' + 1 ≤ yearOf day by omega)
  omega

theorem one_le_month (lengths : List Nat) (n : Nat) : 1 ≤ (monthDay lengths n).1 := by
  cases lengths with
  | nil => exact le_rfl
  | cons length lengths =>
      unfold monthDay
      split_ifs <;> simp

theorem month_le (lengths : List Nat) (n : Nat) :
    (monthDay lengths n).1 ≤ lengths.length + 1 := by
  induction lengths generalizing n with
  | nil => exact le_rfl
  | cons length lengths ih =>
      unfold monthDay
      split_ifs
      · simp
      · simpa using ih (n - length)

theorem dayOfMonth_le {lengths : List Nat} {n : Nat} (hlengths : ∀ length ∈ lengths, length ≤ 31)
    (hn : n < lengths.sum + 32) : (monthDay lengths n).2 ≤ 32 := by
  induction lengths generalizing n with
  | nil => exact Nat.succ_le_of_lt (by simpa using hn)
  | cons length lengths ih =>
      rw [List.forall_mem_cons] at hlengths
      unfold monthDay
      split_ifs
      · have := hlengths.1
        simp only
        omega
      · rw [List.sum_cons] at hn
        exact ih hlengths.2 (by omega)

/-- A later day of a year is in a later month, or later in its month. -/
theorem monthDay_lt (lengths : List Nat) {n m : Nat} (h : n < m) :
    (monthDay lengths n).1 < (monthDay lengths m).1 ∨
      (monthDay lengths n).1 = (monthDay lengths m).1 ∧
        (monthDay lengths n).2 < (monthDay lengths m).2 := by
  induction lengths generalizing n m with
  | nil => exact .inr ⟨rfl, Nat.succ_lt_succ h⟩
  | cons length lengths ih =>
      unfold monthDay
      by_cases hn : n < length
      · by_cases hm : m < length
        · simpa [hn, hm] using h
        · have := one_le_month lengths (m - length)
          simp only [hn, hm, if_true, if_false]
          omega
      · have hm : ¬ m < length := by omega
        simpa [hn, hm] using ih (n := n - length) (m := m - length) (by omega)

/-! ### The text -/

def writeYear (year : Int) : List Char :=
  if 0 ≤ year ∧ year ≤ 9999 then pad 4 year.toNat
  else (if year < 0 then '-' else '+') :: atLeastFour year.natAbs

/-- `-MM-DD` of a day of a year. -/
def writeMonthDay (year : Int) (day : Int) : List Char :=
  let monthDay := monthDay (monthLengths (isLeap year)) (day - daysBefore year).toNat
  '-' :: (pad 2 monthDay.1 ++ '-' :: pad 2 monthDay.2)

/-- `HH:MM:SS` of a second of a day. -/
def writeTime (second : Nat) : List Char :=
  pad 2 (second / 3600) ++ ':' :: (pad 2 (second / 60 % 60) ++ ':' :: pad 2 (second % 60))

/-- The fraction of a second, in as many groups of three digits as it needs. -/
def writeFraction (nano : Nat) : List Char :=
  if nano = 0 then []
  else if nano % 1000000 = 0 then '.' :: pad 3 (nano / 1000000)
  else if nano % 1000 = 0 then '.' :: pad 6 (nano / 1000)
  else '.' :: pad 9 nano

/-- The second of an instant. -/
def second (nanos : Int) : Int := nanos / 1000000000

/-- The day of an instant, counted from the start of year 0. -/
def day (nanos : Int) : Int := second nanos / 86400 + 719528

/-- The year of an instant. -/
def year (nanos : Int) : Int := yearOf (day nanos)

def writeChars (nanos : Int) : List Char :=
  writeYear (year nanos) ++ (writeMonthDay (year nanos) (day nanos) ++ 'T' ::
    (writeTime (second nanos % 86400).toNat ++
      (writeFraction (nanos % 1000000000).toNat ++ "+00:00".toList)))

def write (nanos : Int) : String := String.ofList (writeChars nanos)

example : write 1790769600250000000 = "2026-09-30T12:00:00.250+00:00" := by decide

/-! ### The order of the texts -/

/-- A fraction that needs more digits than another has a digit where the other has its zone. -/
theorem fraction_precedes {w v a b : Nat} (hb : b < 10 ^ v) (h : a * 10 ^ v < b * 10 ^ w) :
    Precedes (pad w a ++ "+00:00".toList) (pad v b ++ "+00:00".toList) := by
  rcases Nat.le_total w v with hle | hle
  · obtain ⟨k, rfl⟩ := Nat.exists_eq_add_of_le hle
    rw [Nat.pow_add] at hb h
    have hlt : a * 10 ^ k < b := by
      refine Nat.lt_of_mul_lt_mul_right (a := 10 ^ w) ?_
      rwa [Nat.mul_assoc, Nat.mul_comm (10 ^ k)]
    have hlow : a ≤ b / 10 ^ k := (Nat.le_div_iff_mul_le (by positivity)).mpr hlt.le
    have hbound : b / 10 ^ k < 10 ^ w := Nat.div_lt_of_lt_mul (by rwa [Nat.mul_comm])
    rw [pad_add]
    rcases hlow.lt_or_eq with hlow | hlow
    · rw [List.append_assoc]
      exact (pad_precedes hlow hbound).append _ _
    · -- the same digits as far as the shorter one goes
      rw [hlow, List.append_assoc]
      refine Precedes.append_left ?_ _
      cases k with
      | zero => simp at hlt hlow; omega
      | succ k =>
          obtain ⟨first, hfirst, rest, hpad⟩ := pad_succ_eq_cons k b
          rw [hpad]
          exact .of_cons ((by decide : ∀ k < 10, '+' < Nat.digitChar k) first hfirst) _ _
  · obtain ⟨k, rfl⟩ := Nat.exists_eq_add_of_le hle
    rw [Nat.pow_add, ← Nat.mul_assoc, Nat.mul_right_comm] at h
    have hlt : a / 10 ^ k < b := Nat.div_lt_of_lt_mul (by
      rw [Nat.mul_comm]
      exact Nat.lt_of_mul_lt_mul_right h)
    rw [pad_add, List.append_assoc]
    exact (pad_precedes hlt hb).append _ _

theorem writeFraction_eq {nano : Nat} (h : nano ≠ 0) :
    ∃ w a, writeFraction nano = '.' :: pad w a ∧ a * 10 ^ 9 = nano * 10 ^ w := by
  unfold writeFraction
  rw [if_neg h]
  split_ifs with hmillis hmicros
  · exact ⟨3, nano / 1000000, rfl, by omega⟩
  · exact ⟨6, nano / 1000, rfl, by omega⟩
  · exact ⟨9, nano, rfl, rfl⟩

theorem writeFraction_precedes {n m : Nat} (h : n < m) (hm : m < 10 ^ 9) :
    Precedes (writeFraction n ++ "+00:00".toList) (writeFraction m ++ "+00:00".toList) := by
  have hpositive : m ≠ 0 := by omega
  obtain ⟨v, b, hwrite, hb⟩ := writeFraction_eq hpositive
  by_cases hzero : n = 0
  · rw [hwrite]
    simpa [hzero, writeFraction] using Precedes.of_cons (by decide : '+' < '.') _ _
  · obtain ⟨w, a, hwrite', ha⟩ := writeFraction_eq hzero
    rw [hwrite, hwrite']
    refine (fraction_precedes ?_ ?_).cons '.'
    · refine Nat.lt_of_mul_lt_mul_right (a := 10 ^ 9) ?_
      rw [hb, Nat.mul_comm]
      exact Nat.mul_lt_mul_of_pos_left hm (by positivity)
    · refine Nat.lt_of_mul_lt_mul_right (a := 10 ^ 9) ?_
      calc a * 10 ^ v * 10 ^ 9 = n * 10 ^ w * 10 ^ v := by rw [Nat.mul_right_comm, ha]
        _ < m * 10 ^ w * 10 ^ v := by gcongr
        _ = b * 10 ^ w * 10 ^ 9 := by rw [Nat.mul_right_comm, ← hb, Nat.mul_right_comm]

theorem writeTime_precedes {n m : Nat} (h : n < m) (hm : m < 86400) :
    Precedes (writeTime n) (writeTime m) := by
  unfold writeTime
  by_cases hhour : n / 3600 = m / 3600
  · rw [hhour]
    refine (Precedes.cons ?_ ':').append_left _
    by_cases hminute : n / 60 % 60 = m / 60 % 60
    · rw [hminute]
      exact ((pad_precedes (by omega) (by omega)).cons ':').append_left _
    · exact (pad_precedes (by omega) (by omega)).append _ _
  · exact (pad_precedes (by omega) (by omega)).append _ _

theorem writeMonthDay_precedes {year first later : Int} (hstart : daysBefore year ≤ first)
    (h : first < later) (hend : later < daysBefore (year + 1)) :
    Precedes (writeMonthDay year first) (writeMonthDay year later) := by
  have hyear := daysBefore_succ_le year
  have hlt : (first - daysBefore year).toNat < (later - daysBefore year).toNat := by omega
  have hmonth (n : Nat) : (monthDay (monthLengths (isLeap year)) n).1 < 10 ^ 2 := by
    have : (monthDay (monthLengths (isLeap year)) n).1 ≤ 11 + 1 := month_le _ n
    omega
  have hday : (monthDay (monthLengths (isLeap year)) (later - daysBefore year).toNat).2 ≤ 32 := by
    apply dayOfMonth_le
    · unfold monthLengths
      cases isLeap year <;> decide
    · have : 334 ≤ (monthLengths (isLeap year)).sum := by
        unfold monthLengths
        cases isLeap year <;> decide
      omega
  unfold writeMonthDay
  refine Precedes.cons ?_ '-'
  rcases monthDay_lt (monthLengths (isLeap year)) hlt with hlt | ⟨heq, hlt⟩
  · exact (pad_precedes hlt (hmonth _)).append _ _
  · simp only [heq]
    exact ((pad_precedes hlt (by omega)).cons '-').append_left _

theorem writeYear_precedes {first later : Int} (h : first < later) (hlater : 0 ≤ later)
    (hwritten : later ≤ 9999) : Precedes (writeYear first) (writeYear later) := by
  unfold writeYear
  rw [if_pos (⟨hlater, hwritten⟩ : 0 ≤ later ∧ later ≤ 9999)]
  by_cases hfirst : 0 ≤ first
  · rw [if_pos ⟨hfirst, by omega⟩]
    exact pad_precedes (by omega) (by omega)
  · rw [if_neg (fun hboth => hfirst hboth.1), if_pos (by omega)]
    obtain ⟨digit, hdigit, rest, hpad⟩ := pad_succ_eq_cons 3 later.toNat
    rw [hpad]
    exact .of_cons ((by decide : ∀ k < 10, '-' < Nat.digitChar k) digit hdigit) _ _

theorem year_mono {a b : Int} (h : a ≤ b) : year a ≤ year b :=
  yearOf_mono (by unfold day second; omega)

theorem write_lt {a b : Int} (h : a < b) (hyear : 0 ≤ year b) (hwritten : year b ≤ 9999) :
    write a < write b := by
  suffices hprecedes : Precedes (writeChars a) (writeChars b) from
    String.lt_iff_toList_lt.mpr (by simpa [write] using hprecedes.lt)
  unfold writeChars
  rcases (year_mono h.le).lt_or_eq with hlt | hsame
  · exact (writeYear_precedes hlt hyear hwritten).append _ _
  rw [hsame]
  refine Precedes.append_left ?_ _
  by_cases hday : day a = day b
  · rw [hday]
    refine Precedes.append_left (Precedes.cons ?_ 'T') _
    by_cases hsecond : second a = second b
    · rw [hsecond]
      refine Precedes.append_left (writeFraction_precedes ?_ ?_) _ <;> unfold second at hsecond <;>
        omega
    · refine (writeTime_precedes ?_ ?_).append _ _ <;> unfold day second at * <;> omega
  · have hlt : day a < day b := by unfold day second at *; omega
    have hspan := daysBefore_yearOf (day a)
    have hspan' := daysBefore_yearOf (day b)
    unfold year at hsame hyear ⊢
    rw [hsame] at hspan
    exact (writeMonthDay_precedes hspan.1 hlt hspan'.2).append _ _

/-- **The order of the texts** is that of the instants, up to the last year that four digits
write. -/
theorem write_le_iff {a b : Int} (ha : year a ≤ 9999) (hb : 0 ≤ year b) (hb' : year b ≤ 9999) :
    write a ≤ write b ↔ a ≤ b := by
  constructor
  · intro hle
    by_contra hlt
    have hyear := year_mono (Int.not_le.mp hlt).le
    exact absurd (write_lt (Int.not_le.mp hlt) (hb.trans hyear) ha) (not_lt.mpr hle)
  · intro hle
    rcases hle.lt_or_eq with hlt | rfl
    · exact (write_lt hlt hb hb').le
    · exact le_rfl

end Rfc3339
