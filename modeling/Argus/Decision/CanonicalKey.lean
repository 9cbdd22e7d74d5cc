import Argus.Decision.ContextMasking
import Mathlib.Data.String.Basic

/-!
# What the key of an observation tells

The key tells the evidence: two builders have one key exactly if their entries are the same, as many
times each, in whatever order they came. A call that was seen before changes neither the key nor the
state. The texts are those of the serialization library, of which is assumed that different entries
have different texts, and different lists of texts too.

Calls are compared with `==`, and the key is made of texts. A zero and the negative zero are equal,
and their texts are not: of the two the builder keeps the one that came first, and the key shows
which one that was.
-/

namespace Argus

/-- A list of texts, as a document. -/
def textList (texts : List String) : Value := .array (texts.map .string)

/-- The writer has different texts for an entry of the one list and a different one of the other,
and for different lists of texts. -/
structure WritesApart (toJson : Value → String) (left right : List EvidenceEntry) : Prop where
  entries : ∀ e ∈ left, ∀ e' ∈ right, toJson e.written = toJson e'.written → e = e'
  texts : ∀ texts texts', toJson (textList texts) = toJson (textList texts') → texts = texts'

/-- Lists whose images agree up to order agree up to order, if the function tells their elements
apart. -/
theorem perm_of_map {α β : Type} [DecidableEq α] {f : α → β} {xs ys : List α}
    (hf : ∀ x ∈ xs, ∀ y ∈ ys, f x = f y → x = y) (h : (xs.map f).Perm (ys.map f)) :
    xs.Perm ys := by
  induction xs generalizing ys with
  | nil =>
      obtain rfl : ys = [] := by simpa using h.symm
      exact .nil
  | cons x xs ih =>
      obtain ⟨y, hy, hxy⟩ := List.mem_map.mp (h.subset List.mem_cons_self)
      obtain rfl := hf x List.mem_cons_self y hy hxy.symm
      have hrest : (xs.map f).Perm ((ys.erase x).map f) :=
        (h.trans ((List.perm_cons_erase hy).map f)).cons_inv
      have hys := ih (fun z hz y' hy' => hf z (List.mem_cons_of_mem x hz) y'
        (List.mem_of_mem_erase hy')) hrest
      exact (hys.cons x).trans (List.perm_cons_erase hy).symm

namespace ContextBuilder

variable {toJson : Value → String} {a b ctx : ContextBuilder} {e call : EvidenceEntry}
  {calls : List EvidenceEntry}

/-! ### The key -/

/-- The texts of the entries. -/
def entryTexts (toJson : Value → String) (ctx : ContextBuilder) : List String :=
  ctx.entries.map fun entry => toJson entry.written

theorem canonicalKey_eq : ctx.canonicalKey toJson =
    toJson (textList ((ctx.entryTexts toJson).insertionSort (· ≤ ·))) := rfl

/-- Sorting forgets the order, and nothing else. -/
theorem sorted_eq_iff {texts texts' : List String} :
    texts.insertionSort (· ≤ ·) = texts'.insertionSort (· ≤ ·) ↔ texts.Perm texts' := by
  have hperm := List.perm_insertionSort (· ≤ · : String → String → Prop)
  constructor
  · intro h
    have hsorted := hperm texts
    rw [h] at hsorted
    exact hsorted.symm.trans (hperm texts')
  · intro h
    exact ((hperm texts).trans (h.trans (hperm texts').symm)).eq_of_sortedLE
      List.sortedLE_insertionSort List.sortedLE_insertionSort

theorem canonicalKey_eq_iff (h : WritesApart toJson a.entries b.entries) :
    a.canonicalKey toJson = b.canonicalKey toJson ↔ a.entries.Perm b.entries := by
  rw [canonicalKey_eq, canonicalKey_eq]
  constructor
  · intro hkeys
    have htexts := sorted_eq_iff.mp (h.texts _ _ hkeys)
    exact perm_of_map h.entries htexts
  · intro hperm
    have htexts : (a.entryTexts toJson).Perm (b.entryTexts toJson) := hperm.map _
    rw [sorted_eq_iff.mpr htexts]

/-! ### Calls that were seen -/

/-- A call equal to this one was added. -/
def Seen (ctx : ContextBuilder) (call : EvidenceEntry) : Prop :=
  ∃ earlier ∈ ctx.seen, earlier.same call = true

theorem seen_iff : (ctx.seen.any (EvidenceEntry.same · call)) = true ↔ ctx.Seen call :=
  List.any_eq_true

theorem evidence_seen (h : ctx.Seen call) :
    (ctx.evidence call.subject call.attr call.value).entries = ctx.entries := by
  rw [evidence_eq, if_pos (seen_iff.mpr h)]
  split_ifs <;> rfl

/-- The builder does not admit the attribute of the call. -/
def Refuses (ctx : ContextBuilder) (call : EvidenceEntry) : Prop :=
  (ctx.allowlist.any fun allowed => !allowed.contains call.attr) = true

theorem evidence_refused (h : ctx.Refuses call) :
    (ctx.evidence call.subject call.attr call.value).entries = ctx.entries := by
  unfold Refuses at h
  rw [evidence_eq, if_pos h]

/-- What one call does to what later calls meet: the allowlist stays, what was seen stays seen, and
the call itself is seen now or refused. -/
theorem evidence_frame (ctx : ContextBuilder) (call : EvidenceEntry) :
    (ctx.evidence call.subject call.attr call.value).allowlist = ctx.allowlist ∧
      ctx.seen ⊆ (ctx.evidence call.subject call.attr call.value).seen ∧
      ((ctx.evidence call.subject call.attr call.value).Seen call ∨ ctx.Refuses call) := by
  rw [evidence_eq]
  split_ifs with hrefused hseen
  · exact ⟨rfl, List.Subset.refl _, .inr hrefused⟩
  · exact ⟨rfl, List.Subset.refl _, .inl (seen_iff.mp hseen)⟩
  · exact ⟨rfl, List.subset_append_left _ _,
      .inl ⟨call, List.mem_append_right _ List.mem_cons_self, call.same_self⟩⟩

theorem gather_frame (ctx : ContextBuilder) (calls : List EvidenceEntry) :
    (ctx.gather calls).allowlist = ctx.allowlist ∧
    ctx.seen ⊆ (ctx.gather calls).seen ∧
    ∀ call ∈ calls, (ctx.gather calls).Seen call ∨ ctx.Refuses call := by
  induction calls generalizing ctx with
  | nil => exact ⟨rfl, List.Subset.refl _, nofun⟩
  | cons first calls ih =>
      obtain ⟨hallowlist, hseen, hfirst⟩ := ctx.evidence_frame first
      obtain ⟨ihallowlist, ihseen, ihcalls⟩ :=
        ih (ctx.evidence first.subject first.attr first.value)
      refine ⟨ihallowlist.trans hallowlist, List.Subset.trans hseen ihseen, ?_⟩
      intro call hcall
      rcases List.mem_cons.mp hcall with rfl | hcall
      · exact hfirst.imp_left fun ⟨earlier, hmem, hsame⟩ => ⟨earlier, ihseen hmem, hsame⟩
      · refine (ihcalls call hcall).imp_right fun hrefused => ?_
        rwa [Refuses, hallowlist] at hrefused

/-- A call of the run comes again, or one that is equal to it: the entries stay. -/
theorem gather_again (ctx : ContextBuilder) {earlier : EvidenceEntry} (h : earlier ∈ calls)
    (hsame : earlier.same call = true) :
    ((ctx.gather calls).evidence call.subject call.attr call.value).entries =
      (ctx.gather calls).entries := by
  obtain ⟨hallowlist, -, hcalls⟩ := ctx.gather_frame calls
  rcases hcalls earlier h with ⟨first, hfirst, hequal⟩ | hrefused
  · exact evidence_seen ⟨first, hfirst, EvidenceEntry.same_iff.mpr
      ((EvidenceEntry.same_iff.mp hequal).trans (EvidenceEntry.same_iff.mp hsame))⟩
  · refine evidence_refused ?_
    have hattr : earlier.attr = call.attr :=
      (EvidenceEntry.mk.inj (EvidenceEntry.same_iff.mp hsame)).2.1
    rwa [Refuses, hallowlist, ← hattr]

/-! ### What the key tells -/

/-- The entries are equal, as the source compares them, up to order. -/
def SameEvidence (entries entries' : List EvidenceEntry) : Prop :=
  (entries.map EvidenceEntry.unsigned).Perm (entries'.map EvidenceEntry.unsigned)

/-- The entries are equal up to order, but for the sign of a zero. -/
def DifferInSign (entries entries' : List EvidenceEntry) : Prop :=
  SameEvidence entries entries' ∧ ¬ entries.Perm entries'

/-- The key tells the evidence, and what comes again changes neither it nor the state. -/
structure KeyTells (toJson : Value → String) (a b : ContextBuilder) : Prop where
  tells : observationDedupKey toJson a = observationDedupKey toJson b ↔
    SameEvidence a.entries b.entries
  seen : ∀ call, a.Seen call →
    observationDedupKey toJson (a.evidence call.subject call.attr call.value) =
        observationDedupKey toJson a ∧
      (a.evidence call.subject call.attr call.value).intoState = a.intoState
  again : ∀ calls, ∀ earlier ∈ calls, ∀ call, earlier.same call = true →
    observationDedupKey toJson ((a.gather calls).evidence call.subject call.attr call.value) =
        observationDedupKey toJson (a.gather calls) ∧
      ((a.gather calls).evidence call.subject call.attr call.value).intoState =
        (a.gather calls).intoState

/-- Builders with the same entries have the same key and the same state. -/
theorem alike_of_entries (h : a.entries = b.entries) :
    observationDedupKey toJson a = observationDedupKey toJson b ∧ a.intoState = b.intoState := by
  rw [observationDedupKey, observationDedupKey, canonicalKey, canonicalKey, intoState, intoState, h]
  exact ⟨rfl, rfl⟩

/-- The key tells the evidence of two builders exactly where their entries do not differ in the sign
of a zero alone. -/
theorem observation_key_tells_evidence (h : WritesApart toJson a.entries b.entries) :
    KeyTells toJson a b ↔ ¬ DifferInSign a.entries b.entries := by
  have hkey : observationDedupKey toJson a = observationDedupKey toJson b ↔
      a.entries.Perm b.entries := canonicalKey_eq_iff h
  constructor
  · rintro ⟨htells, -, -⟩ ⟨hsame, hdiffer⟩
    exact hdiffer (hkey.mp (htells.mpr hsame))
  · intro hsigns
    refine ⟨hkey.trans ⟨fun hperm => hperm.map _, fun hsame => ?_⟩, fun call hcall => ?_,
      fun calls earlier hearlier call hsame => ?_⟩
    · by_contra hdiffer
      exact hsigns ⟨hsame, hdiffer⟩
    · exact alike_of_entries (evidence_seen hcall)
    · exact alike_of_entries (a.gather_again hearlier hsame)

end ContextBuilder

/-! ### A writer -/

/-- A character between quotes. -/
def escaped (c : Char) : List Char := if c = '"' ∨ c = '\\' then ['\\', c] else [c]

def quotedText (text : String) : List Char := '"' :: (text.toList.flatMap escaped ++ ['"'])

mutual

/-- The JSON text of a document whose texts have no control character, and whose doubles are
zeros. -/
def written : Value → List Char
  | .null => "null".toList
  | .bool b => (toString b).toList
  | .number (.posInt n) => (toString n).toList
  | .number (.negInt n) => (toString n).toList
  | .number (.float _) => "0.0".toList
  | .number .negZero => "-0.0".toList
  | .string text => quotedText text
  | .array [] => "[]".toList
  | .array (item :: items) => '[' :: (written item ++ writtenItems items ++ [']'])
  | .object [] => "{}".toList
  | .object ((key, value) :: fields) =>
      '{' :: (quotedText key ++ ':' :: written value ++ writtenFields fields ++ ['}'])

def writtenItems : List Value → List Char
  | [] => []
  | item :: items => ',' :: (written item ++ writtenItems items)

def writtenFields : List (String × Value) → List Char
  | [] => []
  | (key, value) :: fields =>
      ',' :: (quotedText key ++ ':' :: written value ++ writtenFields fields)

end

def writeJson (value : Value) : String := String.ofList (written value)

theorem escaped_append_injective {chars chars' rest rest' : List Char}
    (h : chars.flatMap escaped ++ '"' :: rest = chars'.flatMap escaped ++ '"' :: rest') :
    chars = chars' ∧ rest = rest' := by
  induction chars generalizing chars' with
  | nil =>
      cases chars' with
      | nil => exact ⟨rfl, (List.cons.inj h).2⟩
      | cons c' chars' =>
          -- an escape begins with a backslash, and so it is not the end of the text
          simp only [List.flatMap_cons, escaped] at h
          split_ifs at h with hc <;> grind
  | cons c chars ih =>
      cases chars' with
      | nil =>
          simp only [List.flatMap_cons, escaped] at h
          split_ifs at h with hc <;> simp_all
      | cons c' chars' =>
          have hnext : c = c' ∧ chars.flatMap escaped ++ '"' :: rest =
              chars'.flatMap escaped ++ '"' :: rest' := by
            simp only [List.flatMap_cons, escaped] at h
            split_ifs at h with hc hc' <;> grind
          obtain ⟨hchars, hrest⟩ := ih hnext.2
          exact ⟨by rw [hnext.1, hchars], hrest⟩

theorem quotedText_append_injective {text text' : String} {rest rest' : List Char}
    (h : quotedText text ++ rest = quotedText text' ++ rest') : text = text' ∧ rest = rest' := by
  have hinner : text.toList.flatMap escaped ++ '"' :: rest =
      text'.toList.flatMap escaped ++ '"' :: rest' := by simpa [quotedText] using h
  obtain ⟨htext, hrest⟩ := escaped_append_injective hinner
  exact ⟨String.toList_inj.mp htext, hrest⟩

theorem writtenItems_injective {texts texts' : List String}
    (h : writtenItems (texts.map .string) ++ [']'] = writtenItems (texts'.map .string) ++ [']']) :
    texts = texts' := by
  induction texts generalizing texts' with
  | nil =>
      cases texts' with
      | nil => rfl
      | cons text' texts' => simp [writtenItems] at h
  | cons text texts ih =>
      cases texts' with
      | nil => simp [writtenItems] at h
      | cons text' texts' =>
          simp only [List.map_cons, writtenItems, written, List.cons_append, List.append_assoc,
            List.cons.injEq, true_and] at h
          obtain ⟨htext, hrest⟩ := quotedText_append_injective h
          rw [htext, ih hrest]

/-- The text of a list of texts tells the list. -/
theorem writeJson_textList_injective {texts texts' : List String}
    (h : writeJson (textList texts) = writeJson (textList texts')) : texts = texts' := by
  have hwritten : written (textList texts) = written (textList texts') := String.ofList_inj.mp h
  cases texts with
  | nil =>
      cases texts' with
      | nil => rfl
      | cons text' texts' => simp [textList, written, quotedText] at hwritten
  | cons text texts =>
      cases texts' with
      | nil => simp [textList, written, quotedText] at hwritten
      | cons text' texts' =>
          simp only [textList, List.map_cons, written, List.cons.injEq, true_and,
            List.append_assoc] at hwritten
          obtain ⟨htext, hrest⟩ := quotedText_append_injective hwritten
          rw [htext, writtenItems_injective hrest]

/-- Two pieces of evidence. -/
def pressure : EvidenceEntry := ⟨"host:a", "memory.pressure", .number (.posInt 8)⟩

def unitName : EvidenceEntry := ⟨"host:a", "unit", .string "nginx \"main\""⟩

theorem writes_apart : WritesApart writeJson [pressure, unitName] [unitName, pressure] where
  entries := by decide
  texts := fun _ _ => writeJson_textList_injective

theorem observation_key_orders :
    ContextBuilder.KeyTells writeJson ⟨[pressure, unitName], [pressure, unitName], none, 0⟩
      ⟨[unitName, pressure], [unitName, pressure], none, 0⟩ :=
  (ContextBuilder.observation_key_tells_evidence writes_apart).mpr fun hdiffer =>
    hdiffer.2 (.swap _ _ _)

/-- The two zeros of a reading. -/
def zeroCall : EvidenceEntry := ⟨"host:a", "memory.pressure", .number (.float (.finite 0))⟩

def negZeroCall : EvidenceEntry := ⟨"host:a", "memory.pressure", .number .negZero⟩

/-- The builder of the two readings, in the one order and in the other: each keeps the first. -/
def zeroFirst : ContextBuilder := ContextBuilder.new.gather [zeroCall, negZeroCall]

def negZeroFirst : ContextBuilder := ContextBuilder.new.gather [negZeroCall, zeroCall]

theorem entries_zeroFirst : zeroFirst.entries = [zeroCall] := by decide +kernel

theorem entries_negZeroFirst : negZeroFirst.entries = [negZeroCall] := by decide +kernel

/-- The entries are equal as the source compares them, and the keys are apart. -/
theorem observation_key_shows_order :
    WritesApart writeJson zeroFirst.entries negZeroFirst.entries ∧
      ¬ ContextBuilder.KeyTells writeJson zeroFirst negZeroFirst := by
  have hapart : WritesApart writeJson zeroFirst.entries negZeroFirst.entries := by
    rw [entries_zeroFirst, entries_negZeroFirst]
    exact ⟨by decide +kernel, fun _ _ => writeJson_textList_injective⟩
  refine ⟨hapart, fun htells => ?_⟩
  have hsame : ContextBuilder.SameEvidence zeroFirst.entries negZeroFirst.entries := by
    rw [entries_zeroFirst, entries_negZeroFirst]
    exact .refl _
  have hperm := (ContextBuilder.canonicalKey_eq_iff hapart).mp (htells.tells.mpr hsame)
  rw [entries_zeroFirst, entries_negZeroFirst, List.perm_singleton, List.cons.injEq] at hperm
  exact absurd hperm.1 (by decide)

end Argus
