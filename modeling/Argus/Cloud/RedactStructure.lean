import Argus.Cloud.Redact
import Argus.Domain.Mask
import Mathlib.Data.Int.Log

/-!
# What redaction keeps of a document

A document is redacted by masking it: the fields with a secret-shaped key are covered by the
placeholder, and the texts outside them redacted. So its shape stays, and nothing of a covered
field.
-/

namespace Argus.Redact

open Value (SameBut FieldOf)

def isSecretField (key : String) : Bool := isSecretKey key.toList

/-- The placeholder, as a document. -/
def covered : Value := .string (.ofList placeholder)

variable {log2 : ℚ → ℚ}

mutual

theorem redactValue_eq_mask : ∀ v : Value,
    redactValue log2 v = Value.mask isSecretField covered (redactText log2) v
  | .null => rfl
  | .bool _ => rfl
  | .number _ => rfl
  | .string _ => rfl
  | .array items => by rw [redactValue, Value.mask, redactItems_eq_mask items]
  | .object fields => by rw [redactValue, Value.mask, redactFields_eq_mask fields]

theorem redactItems_eq_mask : ∀ items : List Value,
    redactItems log2 items = Value.maskItems isSecretField covered (redactText log2) items
  | [] => rfl
  | item :: items => by
      rw [redactItems, Value.maskItems, redactValue_eq_mask item, redactItems_eq_mask items]

theorem redactFields_eq_mask : ∀ fields : List (String × Value),
    redactFields log2 fields = Value.maskFields isSecretField covered (redactText log2) fields
  | [] => rfl
  | (key, inner) :: fields => by
      rw [redactFields, Value.maskFields, redactFields_eq_mask fields, redactValue_eq_mask inner,
        isSecretField]
      split_ifs <;> rfl

end

theorem not_fieldOf_covered (name : String) (w : Value) : ¬ FieldOf name w covered := by
  rw [covered]
  intro h
  cases h

variable (log2) in
/-- The shape of a document is kept, up to texts and what is below a secret-shaped key; there is
only the placeholder below such a key, at whatever depth; and what was there makes no difference. -/
theorem redactValue_structure :
    (∀ v : Value, SameBut isSecretField (fun s t => t = redactText log2 s)
      (fun _ w => w = covered) v (redactValue log2 v)) ∧
    (∀ (v : Value) (key : String) (inner : Value), FieldOf key inner (redactValue log2 v) →
      isSecretField key = true → inner = covered) ∧
    ∀ v w : Value, SameBut isSecretField (· = ·) (fun _ _ => True) v w →
      redactValue log2 v = redactValue log2 w := by
  refine ⟨fun v => ?_, fun v key inner h hkey => ?_, fun v w h => ?_⟩
  · rw [redactValue_eq_mask]
    exact Value.sameBut_mask v
  · rw [redactValue_eq_mask] at h
    exact Value.eq_cover_of_fieldOf hkey not_fieldOf_covered h
  · rw [redactValue_eq_mask, redactValue_eq_mask]
    exact Value.mask_eq_of_sameBut (fun _ _ => congrArg _) v w h

/-- A list of objects, one of which holds a secret. -/
def listed (secret : String) : Value :=
  .array [.object [("unit", .string "web.service")], .object [("api_key", .string secret)]]

theorem listed_sameBut : SameBut isSecretField (· = ·) (fun _ _ => True) (listed "one")
    (listed "two") :=
  .array (.cons (.object (.shown (by decide) (.string rfl) .nil))
    (.cons (.object (.hidden (by decide) trivial .nil)) .nil))

theorem redactValue_structure_listed :
    redactValue (fun q => Int.log 2 q) (listed "one") =
      redactValue (fun q => Int.log 2 q) (listed "two") :=
  (redactValue_structure _).2.2 _ _ listed_sameBut

end Argus.Redact
