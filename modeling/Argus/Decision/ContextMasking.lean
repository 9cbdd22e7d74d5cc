import Argus.Decision.HostHealth
import Argus.Domain.Mask

/-!
# What of a secret reaches the decision engine

Two runs of calls that differ only in secrets build the same state, and the same key. A value is a
secret if its attribute is sensitive, and a text if it has the prefix of one. The entries are
deduplicated before they are masked, so that secrets in two calls show whether they are the same.
-/

namespace Argus

open Value (SameBut)

/-- The text is masked wherever it stands. -/
def isSecretText (text : String) : Bool := secretValuePrefixes.any (contains text)

def maskText (text : String) : String := if isSecretText text then redacted else text

mutual

/-- No key is hidden: an object is masked text by text. -/
theorem redactValue_eq_mask : ∀ v : Value,
    redactValue v = Value.mask (fun _ => false) .null maskText v
  | .null => rfl
  | .bool _ => rfl
  | .number _ => rfl
  | .string text => by
      rw [redactValue, Value.mask, maskText, isSecretText]
      split_ifs <;> rfl
  | .array items => by rw [redactValue, Value.mask, redactItems_eq_mask items]
  | .object fields => by rw [redactValue, Value.mask, redactFields_eq_mask fields]

theorem redactItems_eq_mask : ∀ items : List Value,
    redactItems items = Value.maskItems (fun _ => false) .null maskText items
  | [] => rfl
  | item :: items => by
      rw [redactItems, Value.maskItems, redactValue_eq_mask item, redactItems_eq_mask items]

theorem redactFields_eq_mask : ∀ fields : List (String × Value),
    redactFields fields = Value.maskFields (fun _ => false) .null maskText fields
  | [] => rfl
  | (key, inner) :: fields => by
      rw [redactFields, Value.maskFields, redactFields_eq_mask fields, redactValue_eq_mask inner]
      rfl

end

/-- The texts are the same, or both are masked. -/
def SameText (s t : String) : Prop := s = t ∨ isSecretText s = true ∧ isSecretText t = true

theorem maskText_congr (s t : String) (h : SameText s t) : maskText s = maskText t := by
  rcases h with rfl | ⟨hs, ht⟩
  · rfl
  · rw [maskText, maskText, if_pos hs, if_pos ht]

/-- Two calls that differ only in secrets. -/
structure SameCall (a b : EvidenceEntry) : Prop where
  subject : a.subject = b.subject
  attr : a.attr = b.attr
  value : isSensitiveAttribute a.attr = true ∨
    SameBut (fun _ => false) SameText (fun _ _ => True) a.value b.value

/-- Two runs of calls, side by side: they differ only in secrets, and a call of the one run comes up
again where that of the other does. -/
structure SameCalls (calls : List (EvidenceEntry × EvidenceEntry)) : Prop where
  secrets : ∀ call ∈ calls, SameCall call.1 call.2
  repeats : ∀ call ∈ calls, ∀ other ∈ calls, other.1.same call.1 = other.2.same call.2

namespace ContextBuilder

/-- A builder with an allowlist, or with none. -/
def admitting (allowlist : Option (List String)) : ContextBuilder := ⟨[], [], allowlist, 0⟩

/-- The calls, one after the other. -/
def gather (ctx : ContextBuilder) (calls : List EvidenceEntry) : ContextBuilder :=
  calls.foldl (fun ctx call => ctx.evidence call.subject call.attr call.value) ctx

/-- What two builders have in common whose calls differ in secrets: all but what they have seen,
which came of the same calls. -/
structure Matches (seen : List (EvidenceEntry × EvidenceEntry)) (a b : ContextBuilder) : Prop where
  entries : a.entries = b.entries
  allowlist : a.allowlist = b.allowlist
  dropped : a.dropped = b.dropped
  left : a.seen = seen.map Prod.fst
  right : b.seen = seen.map Prod.snd

/-- What is sent for an entry. -/
def masked (attr : String) (value : Value) : Value :=
  if isSensitiveAttribute attr then .string redacted else redactValue value

theorem evidence_eq {ctx : ContextBuilder} {call : EvidenceEntry} :
    ctx.evidence call.subject call.attr call.value =
      if ctx.allowlist.any fun allowed => !allowed.contains call.attr then
        { ctx with dropped := ctx.dropped + 1 }
      else if ctx.seen.any (EvidenceEntry.same · call) then ctx
      else
        { ctx with
          seen := ctx.seen ++ [call],
          entries := ctx.entries ++ [⟨call.subject, call.attr, masked call.attr call.value⟩] } :=
  rfl

theorem masked_congr {a b : EvidenceEntry} (h : SameCall a b) :
    masked a.attr a.value = masked b.attr b.value := by
  rw [masked, masked, ← h.attr]
  split_ifs with hsensitive
  · rfl
  · have hvalue := h.value.resolve_left hsensitive
    rw [redactValue_eq_mask, redactValue_eq_mask,
      Value.mask_eq_of_sameBut maskText_congr _ _ hvalue]

/-- One call keeps the builders together; what they have seen since is that call or nothing. -/
theorem Matches.evidence {seen : List (EvidenceEntry × EvidenceEntry)}
    {call : EvidenceEntry × EvidenceEntry} {a b : ContextBuilder} (h : Matches seen a b)
    (hcall : SameCall call.1 call.2)
    (hrepeats : ∀ other ∈ seen, other.1.same call.1 = other.2.same call.2) :
    ∃ now, (now = seen ∨ now = seen ++ [call]) ∧
      Matches now (a.evidence call.1.subject call.1.attr call.1.value)
        (b.evidence call.2.subject call.2.attr call.2.value) := by
  have hseen : a.seen.any (EvidenceEntry.same · call.1) =
      b.seen.any (EvidenceEntry.same · call.2) := by
    rw [h.left, h.right, List.any_map, List.any_map, Bool.eq_iff_iff, List.any_eq_true,
      List.any_eq_true]
    exact exists_congr fun other => and_congr_right fun hother => by
      rw [Function.comp_apply, Function.comp_apply, hrepeats other hother]
  have hallowed : (a.allowlist.any fun allowed => !allowed.contains call.1.attr) =
      b.allowlist.any fun allowed => !allowed.contains call.2.attr := by
    rw [h.allowlist, hcall.attr]
  rw [evidence_eq, evidence_eq, hallowed, ← hseen]
  by_cases hdropped : (b.allowlist.any fun allowed => !allowed.contains call.2.attr) = true
  · rw [if_pos hdropped, if_pos hdropped]
    exact ⟨seen, .inl rfl, ⟨h.entries, h.allowlist, by rw [h.dropped], h.left, h.right⟩⟩
  · rw [if_neg hdropped, if_neg hdropped]
    by_cases hknown : a.seen.any (EvidenceEntry.same · call.1) = true
    · rw [if_pos hknown, if_pos hknown]
      exact ⟨seen, .inl rfl, h⟩
    · rw [if_neg hknown, if_neg hknown]
      refine ⟨seen ++ [call], .inr rfl, ⟨?_, h.allowlist, h.dropped, ?_, ?_⟩⟩
      · simp only
        rw [h.entries, masked_congr hcall, hcall.subject, hcall.attr]
      · rw [List.map_append, ← h.left]
        rfl
      · rw [List.map_append, ← h.right]
        rfl

theorem Matches.gather {seen calls : List (EvidenceEntry × EvidenceEntry)} {a b : ContextBuilder}
    (h : Matches seen a b) (hcalls : SameCalls (seen ++ calls)) :
    ∃ now, Matches now (a.gather (calls.map Prod.fst)) (b.gather (calls.map Prod.snd)) := by
  induction calls generalizing seen a b with
  | nil => exact ⟨seen, h⟩
  | cons call calls ih =>
      have hmem : call ∈ seen ++ call :: calls := List.mem_append_right _ List.mem_cons_self
      obtain ⟨now, hnow, hmatches⟩ := h.evidence (hcalls.secrets call hmem) fun other hother =>
        hcalls.repeats call hmem other (List.mem_append_left _ hother)
      refine ih hmatches ?_
      have hsub : ∀ x ∈ now ++ calls, x ∈ seen ++ call :: calls := by
        intro x hx
        rcases hnow with rfl | rfl
        · rcases List.mem_append.mp hx with hx | hx
          · exact List.mem_append_left _ hx
          · exact List.mem_append_right _ (List.mem_cons_of_mem _ hx)
        · simpa using hx
      exact ⟨fun x hx => hcalls.secrets x (hsub x hx),
        fun x hx y hy => hcalls.repeats x (hsub x hx) y (hsub y hy)⟩

/-- Two runs of calls that differ only in secrets, repeated alike, come to the same state and the
same key, whatever is allowed. -/
theorem masked_runs {calls : List (EvidenceEntry × EvidenceEntry)} (h : SameCalls calls)
    (allowlist : Option (List String)) :
    ((admitting allowlist).gather (calls.map Prod.fst)).intoState =
        ((admitting allowlist).gather (calls.map Prod.snd)).intoState ∧
      ∀ toJson : Value → String,
        ((admitting allowlist).gather (calls.map Prod.fst)).canonicalKey toJson =
          ((admitting allowlist).gather (calls.map Prod.snd)).canonicalKey toJson := by
  have hstart : Matches [] (admitting allowlist) (admitting allowlist) :=
    ⟨rfl, rfl, rfl, rfl, rfl⟩
  have hcalls : SameCalls ([] ++ calls) := h
  obtain ⟨now, hmatches⟩ := hstart.gather hcalls
  have hentries := hmatches.entries
  constructor
  · rw [intoState, intoState, hentries]
  · intro toJson
    rw [canonicalKey, canonicalKey, hentries]

/-- A call that tells a token. -/
def tokenCall (secret : String) : EvidenceEntry := ⟨"host:a", "cloud.token", .string secret⟩

theorem tokens_same : SameCalls [(tokenCall "one", tokenCall "two"),
    (tokenCall "three", tokenCall "four")] where
  secrets := by
    intro call hcall
    have hsensitive : isSensitiveAttribute "cloud.token" = true := by decide +kernel
    rcases List.mem_pair.mp hcall with rfl | rfl
    · exact ⟨rfl, rfl, .inl hsensitive⟩
    · exact ⟨rfl, rfl, .inl hsensitive⟩
  repeats := by decide

theorem masked_runs_tokens :
    ((admitting none).gather [tokenCall "one", tokenCall "three"]).intoState =
        ((admitting none).gather [tokenCall "two", tokenCall "four"]).intoState ∧
      ∀ toJson : Value → String,
        ((admitting none).gather [tokenCall "one", tokenCall "three"]).canonicalKey toJson =
          ((admitting none).gather [tokenCall "two", tokenCall "four"]).canonicalKey toJson :=
  masked_runs tokens_same none

/-- A call whose value has a password below a key. -/
def settingsCall (secret : String) : EvidenceEntry :=
  ⟨"host:a", "settings", .object [("password", .string secret)]⟩

/-- The same token twice is one entry, and two tokens are two; and a password shows below a key. -/
theorem runs_not_masked :
    ((admitting none).gather [tokenCall "one", tokenCall "one"]).intoState ≠
        ((admitting none).gather [tokenCall "one", tokenCall "two"]).intoState ∧
      ((admitting none).gather [settingsCall "one"]).intoState ≠
        ((admitting none).gather [settingsCall "two"]).intoState := by
  constructor <;> decide +kernel

end ContextBuilder

end Argus
