import Argus.Domain.Value

/-!
# Documents with parts that are masked

A document is masked by covering the fields whose key is hidden and editing the texts outside them.
What a document shares with another, hidden fields and texts apart, is a relation with two
parameters. `mask_eq_iff` says which documents are masked alike, and `mask_mask_iff` when to mask
twice is to mask once.
-/

namespace Argus.Value

section

variable (isHidden : String → Bool) (cover : Value) (edit : String → String)

mutual

/-- Covers the hidden fields, and edits the texts outside them. -/
def mask : Value → Value
  | .object fields => .object (maskFields fields)
  | .array items => .array (maskItems items)
  | .string text => .string (edit text)
  | value => value

def maskItems : List Value → List Value
  | [] => []
  | item :: items => mask item :: maskItems items

def maskFields : List (String × Value) → List (String × Value)
  | [] => []
  | (key, inner) :: fields =>
      (key, if isHidden key then cover else mask inner) :: maskFields fields

end

variable (texts : String → String → Prop) (values : Value → Value → Prop)

mutual

/-- Two documents of the same shape: the same keys, as many items, and the same scalars. Texts are
related by `texts`, and what is below a hidden key by `values`. -/
inductive SameBut : Value → Value → Prop
  | null : SameBut .null .null
  | bool (b : Bool) : SameBut (.bool b) (.bool b)
  | number (n : Number) : SameBut (.number n) (.number n)
  | string {s t : String} (h : texts s t) : SameBut (.string s) (.string t)
  | array {a b : List Value} (h : SameItems a b) : SameBut (.array a) (.array b)
  | object {a b : List (String × Value)} (h : SameFields a b) : SameBut (.object a) (.object b)

inductive SameItems : List Value → List Value → Prop
  | nil : SameItems [] []
  | cons {v w : Value} {a b : List Value} (head : SameBut v w) (tail : SameItems a b) :
      SameItems (v :: a) (w :: b)

inductive SameFields : List (String × Value) → List (String × Value) → Prop
  | nil : SameFields [] []
  | hidden {key : String} {v w : Value} {a b : List (String × Value)} (hkey : isHidden key = true)
      (head : values v w) (tail : SameFields a b) : SameFields ((key, v) :: a) ((key, w) :: b)
  | shown {key : String} {v w : Value} {a b : List (String × Value)} (hkey : isHidden key = false)
      (head : SameBut v w) (tail : SameFields a b) : SameFields ((key, v) :: a) ((key, w) :: b)

end

/-- A field of an object in the document, at any depth. -/
inductive FieldOf (key : String) (inner : Value) : Value → Prop
  | here {fields : List (String × Value)} (h : (key, inner) ∈ fields) :
      FieldOf key inner (.object fields)
  | field {name : String} {v : Value} {fields : List (String × Value)} (h : (name, v) ∈ fields)
      (below : FieldOf key inner v) : FieldOf key inner (.object fields)
  | item {v : Value} {items : List Value} (h : v ∈ items) (below : FieldOf key inner v) :
      FieldOf key inner (.array items)

/-- A text of the document that no hidden field holds. -/
inductive ShownText (text : String) : Value → Prop
  | here : ShownText text (.string text)
  | field {name : String} {v : Value} {fields : List (String × Value)} (h : (name, v) ∈ fields)
      (hname : isHidden name = false) (below : ShownText text v) : ShownText text (.object fields)
  | item {v : Value} {items : List Value} (h : v ∈ items) (below : ShownText text v) :
      ShownText text (.array items)

end

variable {isHidden : String → Bool} {cover : Value} {edit : String → String}

mutual

/-- Masking keeps the shape of a document. -/
theorem sameBut_mask : ∀ v : Value,
    SameBut isHidden (fun s t => t = edit s) (fun _ w => w = cover) v (mask isHidden cover edit v)
  | .null => .null
  | .bool b => .bool b
  | .number n => .number n
  | .string _ => .string rfl
  | .array items => .array (sameItems_mask items)
  | .object fields => .object (sameFields_mask fields)

theorem sameItems_mask : ∀ items : List Value,
    SameItems isHidden (fun s t => t = edit s) (fun _ w => w = cover) items
      (maskItems isHidden cover edit items)
  | [] => .nil
  | item :: items => .cons (sameBut_mask item) (sameItems_mask items)

theorem sameFields_mask : ∀ fields : List (String × Value),
    SameFields isHidden (fun s t => t = edit s) (fun _ w => w = cover) fields
      (maskFields isHidden cover edit fields)
  | [] => .nil
  | (key, inner) :: fields => by
      rw [maskFields]
      cases hkey : isHidden key with
      | true => exact .hidden hkey rfl (sameFields_mask fields)
      | false => exact .shown hkey (sameBut_mask inner) (sameFields_mask fields)

end

theorem maskItems_eq_map {items : List Value} :
    maskItems isHidden cover edit items = items.map (mask isHidden cover edit) := by
  induction items with
  | nil => rfl
  | cons item items ih => rw [maskItems, ih, List.map_cons]

theorem maskFields_eq_map {fields : List (String × Value)} :
    maskFields isHidden cover edit fields = fields.map fun field =>
      (field.1, if isHidden field.1 then cover else mask isHidden cover edit field.2) := by
  induction fields with
  | nil => rfl
  | cons field fields ih => rw [maskFields, ih, List.map_cons]

/-- A hidden field is covered, however deep. -/
theorem eq_cover_of_fieldOf {key inner v} (hkey : isHidden key = true)
    (hcover : ∀ name w, ¬ FieldOf name w cover)
    (h : FieldOf key inner (mask isHidden cover edit v)) : inner = cover := by
  generalize hout : mask isHidden cover edit v = out at h
  induction h generalizing v with
  | here hmem =>
      cases v <;> simp only [mask, reduceCtorEq, Value.object.injEq] at hout
      rw [← hout, maskFields_eq_map] at hmem
      obtain ⟨field, -, hfield⟩ := List.mem_map.mp hmem
      cases hfield
      rw [if_pos hkey]
  | field hmem below ih =>
      cases v <;> simp only [mask, reduceCtorEq, Value.object.injEq] at hout
      rw [← hout, maskFields_eq_map] at hmem
      obtain ⟨field, -, hfield⟩ := List.mem_map.mp hmem
      cases hfield
      split_ifs at below ih
      · exact absurd below (hcover _ _)
      · exact ih rfl
  | item hmem _ ih =>
      cases v <;> simp only [mask, reduceCtorEq, Value.array.injEq] at hout
      rw [← hout, maskItems_eq_map] at hmem
      obtain ⟨w, -, rfl⟩ := List.mem_map.mp hmem
      exact ih rfl

/-! ### Masked alike -/

mutual

theorem mask_eq_of_sameBut {texts : String → String → Prop} {values : Value → Value → Prop}
    (htexts : ∀ s t, texts s t → edit s = edit t) : ∀ v w : Value,
      SameBut isHidden texts values v w →
        mask isHidden cover edit v = mask isHidden cover edit w
  | v, w, h => by
      cases v with
      | null => cases h; rfl
      | bool b => cases h; rfl
      | number n => cases h; rfl
      | string s =>
          cases h with
          | string h => rw [mask, mask, htexts _ _ h]
      | array items =>
          cases h with
          | array h => rw [mask, mask, maskItems_eq_of_sameItems htexts items _ h]
      | object fields =>
          cases h with
          | object h => rw [mask, mask, maskFields_eq_of_sameFields htexts fields _ h]

theorem maskItems_eq_of_sameItems {texts : String → String → Prop}
    {values : Value → Value → Prop} (htexts : ∀ s t, texts s t → edit s = edit t) :
    ∀ a b : List Value, SameItems isHidden texts values a b →
      maskItems isHidden cover edit a = maskItems isHidden cover edit b
  | [], _, .nil => rfl
  | v :: a, _, .cons head tail => by
      rw [maskItems, maskItems, mask_eq_of_sameBut htexts v _ head,
        maskItems_eq_of_sameItems htexts a _ tail]

theorem maskFields_eq_of_sameFields {texts : String → String → Prop}
    {values : Value → Value → Prop} (htexts : ∀ s t, texts s t → edit s = edit t) :
    ∀ a b : List (String × Value), SameFields isHidden texts values a b →
      maskFields isHidden cover edit a = maskFields isHidden cover edit b
  | [], _, .nil => rfl
  | (key, v) :: a, _, .hidden hkey _ tail => by
      rw [maskFields, maskFields, if_pos hkey, if_pos hkey,
        maskFields_eq_of_sameFields htexts a _ tail]
  | (key, v) :: a, _, .shown hkey head tail => by
      rw [maskFields, maskFields, mask_eq_of_sameBut htexts v _ head,
        maskFields_eq_of_sameFields htexts a _ tail]

end

/-! ### Masked twice -/

mutual

theorem mask_mask_iff : ∀ v : Value,
    mask isHidden cover edit (mask isHidden cover edit v) = mask isHidden cover edit v ↔
      ∀ text, ShownText isHidden text v → edit (edit text) = edit text
  | .null => iff_of_true rfl fun _ h => by cases h
  | .bool _ => iff_of_true rfl fun _ h => by cases h
  | .number _ => iff_of_true rfl fun _ h => by cases h
  | .string text => by
      rw [mask, mask, Value.string.injEq]
      constructor
      · rintro h _ ⟨⟩
        exact h
      · exact fun h => h text .here
  | .array items => by
      rw [mask, mask, Value.array.injEq, maskItems_maskItems_iff items]
      constructor
      · rintro h text (_ | _ | ⟨hmem, below⟩)
        exact h _ hmem text below
      · exact fun h v hv text below => h text (.item hv below)
  | .object fields => by
      rw [mask, mask, Value.object.injEq, maskFields_maskFields_iff fields]
      constructor
      · rintro h text (_ | ⟨hmem, hname, below⟩ | _)
        exact h _ hmem hname text below
      · exact fun h field hfield hname text below => h text (.field hfield hname below)

theorem maskItems_maskItems_iff : ∀ items : List Value,
    maskItems isHidden cover edit (maskItems isHidden cover edit items) =
        maskItems isHidden cover edit items ↔
      ∀ v ∈ items, ∀ text, ShownText isHidden text v → edit (edit text) = edit text
  | [] => iff_of_true rfl fun _ h => by cases h
  | item :: items => by
      rw [maskItems, maskItems, List.cons.injEq, mask_mask_iff item,
        maskItems_maskItems_iff items, List.forall_mem_cons]

theorem maskFields_maskFields_iff : ∀ fields : List (String × Value),
    maskFields isHidden cover edit (maskFields isHidden cover edit fields) =
        maskFields isHidden cover edit fields ↔
      ∀ field ∈ fields, isHidden field.1 = false →
        ∀ text, ShownText isHidden text field.2 → edit (edit text) = edit text
  | [] => iff_of_true rfl fun _ h => by cases h
  | (key, inner) :: fields => by
      rw [maskFields, maskFields, List.cons.injEq, maskFields_maskFields_iff fields,
        List.forall_mem_cons, Prod.mk.injEq]
      cases hkey : isHidden key with
      | true => simp
      | false => simp [mask_mask_iff inner]

end

end Argus.Value
