import Argus.Container.HttpParse
import Argus.Lib.Pointwise

/-!
# What a chunked response decodes to

A chunk is a line with its size in hexadecimal, the data, and the end of a line. Behind the size
there may be extensions, which say nothing to the reader; and the data may look like anything.
`decodes_iff` says when the decoder gives the data back: it reads each size line as text, with the
extensions in it. What is cut off before the zero chunk is refused in any case.
-/

namespace Argus

open Utf8 (ascii fromUtf8 fromUtf8Lossy IsAscii)

/-! ### The encoding -/

/-- The line in front of a chunk: its size, and the extensions. -/
structure SizeLine (size : Nat) where
  digits : List Char
  ext : List UInt8
  nonempty : digits ≠ []
  value : hexValue digits = some size
  fits : size ≤ Checked.maxU64
  oneLine : 0x0D ∉ ext ∧ 0x0A ∉ ext
  /-- Extensions begin with a semicolon, perhaps behind blanks. -/
  shape : ext = [] ∨ ∃ blank rest, (∀ c ∈ blank, c = ' ' ∨ c = '\t') ∧
    ext = ascii (blank ++ [';']) ++ rest

def SizeLine.bytes {size : Nat} (line : SizeLine size) : List UInt8 :=
  ascii line.digits ++ line.ext

/-- A chunk of data. -/
structure Chunk where
  data : List UInt8
  nonempty : data ≠ []
  size : SizeLine data.length

def Chunk.bytes (chunk : Chunk) : List UInt8 := chunk.size.bytes ++ crlf ++ chunk.data ++ crlf

/-- A head that declares chunked transfer encoding, in any letter case. -/
structure ChunkedHead where
  bytes : List UInt8
  text : List Char
  isText : fromUtf8 bytes = some text
  status : List Char
  hasStatus : (words text)[1]? = some status
  /-- The head has no blank line, and does not end one itself. -/
  noBlank : position blankLine (bytes ++ crlf) = none
  declares : ∃ line ∈ lines text, ∃ value,
    line.map Char.toLower = "transfer-encoding:".toList ++ value ∧ "chunked".toList <:+: value

/-- The chunks, the zero chunk, and what follows it. -/
def chunkedBody (chunks : List Chunk) (last : SizeLine 0) (trailer : List UInt8) : List UInt8 :=
  chunks.flatMap Chunk.bytes ++ (last.bytes ++ crlf ++ trailer)

def chunkedResponse (head : ChunkedHead) (chunks : List Chunk) (last : SizeLine 0)
    (trailer : List UInt8) : List UInt8 :=
  head.bytes ++ (blankLine ++ chunkedBody chunks last trailer)

/-- All extensions are text. -/
def TextExtensions (chunks : List Chunk) (last : SizeLine 0) : Prop :=
  (∀ chunk ∈ chunks, (fromUtf8 chunk.size.ext).isSome = true) ∧ (fromUtf8 last.ext).isSome = true

instance (chunks : List Chunk) (last : SizeLine 0) : Decidable (TextExtensions chunks last) :=
  inferInstanceAs (Decidable (_ ∧ _))

/-! ### Hexadecimal digits -/

theorem hexDigit_range {c : Char} (h : (hexDigit c).isSome = true) :
    (0x30 ≤ c.toNat ∧ c.toNat ≤ 0x39) ∨ (0x41 ≤ c.toNat ∧ c.toNat ≤ 0x46) ∨
      (0x61 ≤ c.toNat ∧ c.toNat ≤ 0x66) := by
  unfold hexDigit at h
  split_ifs at h with hdigit hlower hupper
  · exact .inl hdigit
  · exact .inr (.inr hlower)
  · exact .inr (.inl hupper)
  · cases h

section Digits

variable {digits : List Char} {size : Nat}

theorem hexDigit_of_hexValue (h : hexValue digits = some size) {c : Char} (hc : c ∈ digits) :
    (hexDigit c).isSome = true := by
  obtain ⟨values, hvalues, -⟩ := Option.map_eq_some_iff.mp h
  exact Pointwise.mapM_isSome_iff.mp (by rw [hvalues]; rfl) c hc

theorem isAscii_of_hexDigit {c : Char} (h : (hexDigit c).isSome = true) : IsAscii c := by
  have hrange := hexDigit_range h
  unfold IsAscii
  omega

theorem not_isWhitespace_of_hexDigit {c : Char} (h : (hexDigit c).isSome = true) :
    isWhitespace c = false := by
  have hrange := hexDigit_range h
  by_contra hspace
  simp only [isWhitespace, Bool.not_eq_false, Bool.or_eq_true, Bool.and_eq_true,
    decide_eq_true_eq, beq_iff_eq] at hspace
  omega

theorem parseHex_of_hexValue (hne : digits ≠ []) (h : hexValue digits = some size)
    (hfits : size ≤ Checked.maxU64) : parseHex digits = some size := by
  have hplus : dropPlus digits = digits := by
    unfold dropPlus
    split
    · rename_i rest
      exact absurd (hexDigit_of_hexValue (c := '+') h List.mem_cons_self) (by decide)
    · rfl
  unfold parseHex
  rw [hplus]
  simp [hne, h, hfits]

/-- A word with blanks behind it. -/
theorem trim_append_blank {text blank : List Char} (hne : text ≠ [])
    (htext : ∀ c ∈ text, isWhitespace c = false) (hblank : ∀ c ∈ blank, isWhitespace c = true) :
    trim (.ofList (text ++ blank)) = .ofList text := by
  have hfront : (text ++ blank).dropWhile isWhitespace = text ++ blank := by
    obtain ⟨c, rest, rfl⟩ := List.exists_cons_of_ne_nil hne
    rw [List.cons_append, List.dropWhile_cons_of_neg (by simp [htext c List.mem_cons_self])]
  have hback : (text ++ blank).reverse.dropWhile isWhitespace = text.reverse := by
    rw [List.reverse_append, List.dropWhile_append_of_pos fun c hc =>
      hblank c (List.mem_reverse.mp hc)]
    obtain ⟨c, rest, hrest⟩ := List.exists_cons_of_ne_nil (List.reverse_ne_nil_iff.mpr hne)
    have hc : c ∈ text := List.mem_reverse.mp (hrest ▸ List.mem_cons_self)
    rw [hrest, List.dropWhile_cons_of_neg (by simp [htext c hc])]
  rw [trim, String.toList_ofList, hfront, hback, List.reverse_reverse]

end Digits

/-! ### Size lines -/

namespace SizeLine

variable {size : Nat} (line : SizeLine size)

theorem isAscii {c : Char} (hc : c ∈ line.digits) : IsAscii c :=
  isAscii_of_hexDigit (hexDigit_of_hexValue line.value hc)

theorem cr_not_mem : 0x0D ∉ line.bytes := by
  intro hmem
  rcases List.mem_append.mp hmem with hmem | hmem
  · obtain ⟨c, hc, hbyte⟩ := List.mem_map.mp hmem
    have hrange := hexDigit_range (hexDigit_of_hexValue line.value hc)
    have hnat := congrArg UInt8.toNat hbyte
    rw [UInt8.toNat_ofNat_of_lt' (show c.toNat < 256 by omega)] at hnat
    have hcr : (0x0D : UInt8).toNat = 13 := rfl
    omega
  · exact line.oneLine.1 hmem

theorem fromUtf8_bytes : fromUtf8 line.bytes = (fromUtf8 line.ext).map (line.digits ++ ·) :=
  Utf8.fromUtf8_ascii_append fun _ => line.isAscii

/-- The size is what stands in front of the extensions. -/
theorem token_eq {chars : List Char} (h : fromUtf8 line.ext = some chars) :
    trim (.ofList ((line.digits ++ chars).takeWhile (· ≠ ';'))) = .ofList line.digits := by
  have hspace : ∀ c ∈ line.digits, isWhitespace c = false := fun c hc =>
    not_isWhitespace_of_hexDigit (hexDigit_of_hexValue line.value hc)
  have hsemicolon : ∀ c ∈ line.digits, decide (c ≠ ';') = true := by
    intro c hc
    refine decide_eq_true fun heq => ?_
    have hdigit := hexDigit_of_hexValue line.value hc
    rw [heq] at hdigit
    cases hdigit
  rw [List.takeWhile_append_of_pos hsemicolon]
  rcases line.shape with hnone | ⟨blank, rest, hblank, hext⟩
  · rw [hnone] at h
    cases h
    exact trim_append_blank line.nonempty hspace nofun
  · have hascii : ∀ c ∈ blank ++ [';'], IsAscii c := by
      intro c hc
      rcases List.mem_append.mp hc with hc | hc
      · rcases hblank c hc with rfl | rfl <;> decide
      · rw [List.mem_singleton.mp hc]
        decide
    rw [hext, Utf8.fromUtf8_ascii_append hascii] at h
    obtain ⟨restChars, -, rfl⟩ := Option.map_eq_some_iff.mp h
    have hnot : ∀ c ∈ blank, decide (c ≠ ';') = true := by
      intro c hc
      rcases hblank c hc with rfl | rfl <;> decide
    rw [List.append_assoc, List.takeWhile_append_of_pos hnot, List.singleton_append,
      List.takeWhile_cons_of_neg (by simp), List.append_nil]
    refine trim_append_blank line.nonempty hspace fun c hc => ?_
    rcases hblank c hc with rfl | rfl <;> decide

end SizeLine

/-- One pass over a whole size line. -/
theorem chunkStep_line {size : Nat} (line : SizeLine size) (rest : List UInt8) :
    chunkStep (line.bytes ++ crlf ++ rest) =
      if (fromUtf8 line.ext).isSome = true then
        if size = 0 then .ok none
        else if rest.length < size then .error (.parse "truncated chunk data")
        else .ok (some (rest.take size, if crlf.isPrefixOf (rest.drop size) then
          (rest.drop size).drop 2 else rest.drop size))
      else .error (.parse "non-UTF-8 chunk size") := by
  have hdrop : (line.bytes ++ crlf ++ rest).drop (line.bytes.length + 2) = rest := by
    rw [List.append_assoc, List.drop_append]
    simp [crlf]
  unfold chunkStep
  rw [position_crlf line.cr_not_mem]
  dsimp only
  rw [hdrop, List.append_assoc, List.take_left, line.fromUtf8_bytes]
  cases hext : fromUtf8 line.ext with
  | none => rfl
  | some chars =>
      rw [Option.map_some, Option.isSome_some, if_pos rfl]
      dsimp only
      rw [line.token_eq hext, String.toList_ofList,
        parseHex_of_hexValue line.nonempty line.value line.fits]

/-! ### The decoder -/

section Decoder

variable {input out data rest : List UInt8} {error : ContainerError}

theorem decodeChunks_of_error (h : chunkStep input = .error error) :
    decodeChunks input out = .error error := by
  rw [decodeChunks]
  split <;> simp_all

theorem decodeChunks_of_none (h : chunkStep input = .ok none) :
    decodeChunks input out = .ok out := by
  rw [decodeChunks]
  split <;> simp_all

theorem decodeChunks_of_some (h : chunkStep input = .ok (some (data, rest))) :
    decodeChunks input out = decodeChunks rest (out ++ data) := by
  rw [decodeChunks]
  split <;> simp_all

theorem decodeChunks_of_no_line (h : position crlf input = none) :
    decodeChunks input out = .error (.parse "truncated chunk header") := by
  refine decodeChunks_of_error ?_
  rw [chunkStep, h]

end Decoder

variable {chunks : List Chunk} {last : SizeLine 0} {trailer out : List UInt8}

/-- One chunk, whole. -/
theorem chunkStep_chunk (chunk : Chunk) (rest : List UInt8) :
    chunkStep (chunk.bytes ++ rest) =
      if (fromUtf8 chunk.size.ext).isSome = true then .ok (some (chunk.data, rest))
      else .error (.parse "non-UTF-8 chunk size") := by
  have hbytes : chunk.bytes ++ rest =
      chunk.size.bytes ++ crlf ++ (chunk.data ++ (crlf ++ rest)) := by
    simp [Chunk.bytes]
  have hsize : chunk.data.length ≠ 0 := fun hzero =>
    chunk.nonempty (List.length_eq_zero_iff.mp hzero)
  have hroom : ¬ (chunk.data ++ (crlf ++ rest)).length < chunk.data.length := by
    rw [List.length_append]
    omega
  have hcrlf : crlf.isPrefixOf (crlf ++ rest) = true :=
    List.isPrefixOf_iff_prefix.mpr (List.prefix_append _ _)
  rw [hbytes, chunkStep_line, if_neg hsize, if_neg hroom, List.take_left, List.drop_left,
    if_pos hcrlf]
  rfl

theorem chunkedBody_cons (chunk : Chunk) : chunkedBody (chunk :: chunks) last trailer =
    chunk.bytes ++ chunkedBody chunks last trailer := by
  simp [chunkedBody]

/-- The decoder gives the data back, or refuses the first size line that is no text. -/
theorem decodeChunks_body : decodeChunks (chunkedBody chunks last trailer) out =
    if TextExtensions chunks last then .ok (out ++ chunks.flatMap Chunk.data)
    else .error (.parse "non-UTF-8 chunk size") := by
  induction chunks generalizing out with
  | nil =>
      have hstep := chunkStep_line last trailer
      rw [if_pos rfl] at hstep
      have htext : TextExtensions [] last ↔ (fromUtf8 last.ext).isSome = true := by
        simp [TextExtensions]
      rw [chunkedBody, List.flatMap_nil, List.nil_append]
      split_ifs with hall
      · rw [if_pos (htext.mp hall)] at hstep
        rw [decodeChunks_of_none hstep, List.flatMap_nil, List.append_nil]
      · rw [if_neg fun hlast => hall (htext.mpr hlast)] at hstep
        exact decodeChunks_of_error hstep
  | cons chunk chunks ih =>
      have hstep := chunkStep_chunk chunk (chunkedBody chunks last trailer)
      have htext : TextExtensions (chunk :: chunks) last ↔
          (fromUtf8 chunk.size.ext).isSome = true ∧ TextExtensions chunks last := by
        simp [TextExtensions, and_assoc]
      rw [chunkedBody_cons]
      -- the first chunk is taken, or its size line refused
      by_cases hchunk : (fromUtf8 chunk.size.ext).isSome = true
      · rw [if_pos hchunk] at hstep
        rw [decodeChunks_of_some hstep, ih, List.flatMap_cons, List.append_assoc]
        exact if_congr (by rw [htext, and_iff_right hchunk]) rfl rfl
      · rw [if_neg hchunk] at hstep
        rw [decodeChunks_of_error hstep, if_neg fun hall => hchunk (htext.mp hall).1]

/-- What is left of the input behind the data of a chunk, when it is cut off there or later. -/
theorem decodeChunks_behind {body : List UInt8} {k : Nat}
    (hlater : ∀ j, k = 2 + j → ∃ error, decodeChunks (body.take j) out = .error error) :
    ∃ error, decodeChunks (if crlf.isPrefixOf ((crlf ++ body).take k) then
      ((crlf ++ body).take k).drop 2 else (crlf ++ body).take k) out = .error error := by
  have hcrlf : crlf.length = 2 := rfl
  by_cases hend : k < 2
  · have hstarts : ¬ crlf.isPrefixOf ((crlf ++ body).take k) = true := by
      intro hstarts
      have hlength := (List.isPrefixOf_iff_prefix.mp hstarts).length_le
      rw [List.length_take] at hlength
      omega
    rw [if_neg hstarts]
    exact ⟨_, decodeChunks_of_no_line (position_crlf_cut List.not_mem_nil hend)⟩
  · obtain ⟨j, rfl⟩ : ∃ j, k = 2 + j := ⟨k - 2, by omega⟩
    have htake : (crlf ++ body).take (2 + j) = crlf ++ body.take j := by
      rw [← hcrlf, List.take_length_add_append]
    rw [htake, if_pos (List.isPrefixOf_iff_prefix.mpr (List.prefix_append _ _)), ← hcrlf,
      List.drop_left]
    exact hlater j rfl

/-- A body that is cut off before the end of the zero chunk's line is refused. The induction is on
the chunks, and what is cut off is a line, the data, or what comes after the chunk. -/
theorem decodeChunks_cut {n : Nat}
    (hn : n < (chunks.flatMap Chunk.bytes).length + last.bytes.length + 2) :
    ∃ error, decodeChunks ((chunkedBody chunks last trailer).take n) out = .error error := by
  induction chunks generalizing n out with
  | nil =>
      refine ⟨_, decodeChunks_of_no_line ?_⟩
      rw [List.flatMap_nil, List.length_nil, Nat.zero_add] at hn
      exact position_crlf_cut last.cr_not_mem hn
  | cons chunk chunks ih =>
      have hcrlf : crlf.length = 2 := rfl
      have hbytes : chunkedBody (chunk :: chunks) last trailer = chunk.size.bytes ++ crlf ++
          (chunk.data ++ (crlf ++ chunkedBody chunks last trailer)) := by
        simp [chunkedBody_cons, Chunk.bytes]
      rw [hbytes]
      -- cut off in the size line
      by_cases hline : n < chunk.size.bytes.length + 2
      · exact ⟨_, decodeChunks_of_no_line (position_crlf_cut chunk.size.cr_not_mem hline)⟩
      obtain ⟨m, rfl⟩ : ∃ m, n = (chunk.size.bytes ++ crlf).length + m :=
        ⟨n - (chunk.size.bytes ++ crlf).length, by rw [List.length_append]; omega⟩
      rw [List.take_length_add_append]
      have hstep := chunkStep_line chunk.size
        ((chunk.data ++ (crlf ++ chunkedBody chunks last trailer)).take m)
      by_cases htext : (fromUtf8 chunk.size.ext).isSome = true
      swap
      · rw [if_neg htext] at hstep
        exact ⟨_, decodeChunks_of_error hstep⟩
      have hsize : chunk.data.length ≠ 0 := fun hzero =>
        chunk.nonempty (List.length_eq_zero_iff.mp hzero)
      rw [if_pos htext, if_neg hsize] at hstep
      -- cut off in the data
      by_cases hdata : m < chunk.data.length
      · rw [if_pos ((List.length_take_le m _).trans_lt hdata)] at hstep
        exact ⟨_, decodeChunks_of_error hstep⟩
      obtain ⟨k, rfl⟩ : ∃ k, m = chunk.data.length + k := ⟨m - chunk.data.length, by omega⟩
      rw [List.take_length_add_append] at hstep ⊢
      rw [List.take_left, List.drop_left,
        if_neg (by rw [List.length_append]; omega)] at hstep
      -- cut off behind the data
      rw [decodeChunks_of_some hstep]
      refine decodeChunks_behind fun j hj => ih ?_
      rw [List.flatMap_cons, List.length_append] at hn
      simp only [Chunk.bytes, List.length_append] at hn
      omega

/-! ### Whole responses -/

namespace ChunkedHead

variable (head : ChunkedHead) {tail : List UInt8} {n : Nat}

/-- No blank line begins in the head. -/
theorem not_blankLine {i : Nat} (hi : i < head.bytes.length) :
    ¬ blankLine <+: (head.bytes ++ (blankLine ++ tail)).drop i := by
  intro hstarts
  have hlength : (head.bytes ++ crlf).length = head.bytes.length + 2 := List.length_append
  by_cases hwithin : i + 4 ≤ head.bytes.length + 2
  · -- the window lies in the head and the end of its last line
    refine position_eq_none_iff.mp head.noBlank i (by omega) ?_
    have hsplit : head.bytes ++ (blankLine ++ tail) = head.bytes ++ crlf ++ (crlf ++ tail) := by
      simp [blankLine]
    rw [hsplit, List.drop_append_of_le_length (by omega)] at hstarts
    refine List.prefix_of_prefix_length_le hstarts (List.prefix_append _ _) ?_
    rw [List.length_drop]
    simp only [blankLine, crlf, List.length_append, List.length_cons, List.length_nil] at hlength ⊢
    omega
  · -- the window begins one byte before the blank line, and that has a carriage return there
    obtain ⟨rest, hrest⟩ := hstarts
    have hsecond := congrArg (fun bytes => bytes[1]?) hrest
    have hi' : i + 1 = head.bytes.length := by omega
    simp only [List.getElem?_drop, hi', List.getElem?_append_right (Nat.le_refl _), Nat.sub_self]
      at hsecond
    simp [blankLine, crlf] at hsecond

theorem position_blankLine :
    position blankLine (head.bytes ++ (blankLine ++ tail)) = some head.bytes.length :=
  position_append (List.prefix_append _ _) (by simp [blankLine, crlf])
    fun _ => head.not_blankLine

/-- A response that is cut off before its body has no blank line. -/
theorem position_blankLine_cut (hn : n < head.bytes.length + 4) :
    position blankLine ((head.bytes ++ (blankLine ++ tail)).take n) = none := by
  rw [position_eq_none_iff]
  intro i hi hstarts
  have hblank : blankLine.length = 4 := rfl
  have hlength := hstarts.length_le
  rw [List.length_drop, List.length_take] at hlength
  rw [List.length_take] at hi
  exact head.not_blankLine (by omega) (hstarts.trans ((List.take_prefix n _).drop i))

theorem isChunked_text : isChunked head.text = true := by
  obtain ⟨line, hline, value, hlower, hchunked⟩ := head.declares
  refine List.any_eq_true.mpr ⟨line, hline, ?_⟩
  rw [Bool.and_eq_true, List.isPrefixOf_iff_prefix, decide_eq_true_eq, hlower]
  exact ⟨List.prefix_append _ _, hchunked.trans (List.suffix_append _ _).isInfix⟩

/-- The response is its body, decoded. -/
theorem parseResponse_eq : parseResponse (head.bytes ++ (blankLine ++ tail)) =
    (decodeChunks tail []).map fun decoded =>
      (.ofList head.status, .ofList (fromUtf8Lossy decoded)) := by
  have hbody : (head.bytes ++ (blankLine ++ tail)).drop (head.bytes.length + 4) = tail := by
    rw [← List.append_assoc, List.drop_left' (by rw [List.length_append]; rfl)]
  unfold parseResponse
  rw [head.position_blankLine]
  dsimp only
  rw [List.take_left, head.isText]
  dsimp only
  rw [head.hasStatus, hbody]
  dsimp only
  rw [if_pos head.isChunked_text]
  cases decodeChunks tail [] <;> rfl

end ChunkedHead

/-- The response gives the status and the data back, as lossy text, and every beginning of it that
ends before the zero chunk's line does is refused. -/
structure Decodes (head : ChunkedHead) (chunks : List Chunk) (last : SizeLine 0)
    (trailer : List UInt8) : Prop where
  exact_ : parseResponse (chunkedResponse head chunks last trailer) =
    .ok (.ofList head.status, .ofList (fromUtf8Lossy (chunks.flatMap Chunk.data)))
  truncated : ∀ n < (head.bytes ++ (blankLine ++
      (chunks.flatMap Chunk.bytes ++ (last.bytes ++ crlf)))).length,
    ∃ error, parseResponse ((chunkedResponse head chunks last trailer).take n) = .error error

theorem parseResponse_cut {head : ChunkedHead} {n : Nat}
    (hn : n < (head.bytes ++ (blankLine ++
      (chunks.flatMap Chunk.bytes ++ (last.bytes ++ crlf)))).length) :
    ∃ error, parseResponse ((chunkedResponse head chunks last trailer).take n) = .error error := by
  rw [chunkedResponse]
  -- without its blank line the response has no head; with it, the body is cut off
  by_cases hhead : n < head.bytes.length + 4
  · refine ⟨.parse "malformed HTTP response", ?_⟩
    rw [parseResponse, head.position_blankLine_cut hhead]
  · have hfront : (head.bytes ++ blankLine).length = head.bytes.length + 4 := List.length_append
    have hcrlf : crlf.length = 2 := rfl
    obtain ⟨m, rfl⟩ : ∃ m, n = (head.bytes ++ blankLine).length + m :=
      ⟨n - (head.bytes ++ blankLine).length, by omega⟩
    rw [← List.append_assoc, List.take_length_add_append, List.append_assoc,
      head.parseResponse_eq]
    rw [← List.append_assoc, List.length_append] at hn
    have hm : m < (chunks.flatMap Chunk.bytes).length + last.bytes.length + 2 := by
      simp only [List.length_append] at hn ⊢
      omega
    obtain ⟨error, herror⟩ := @decodeChunks_cut chunks last trailer [] m hm
    exact ⟨error, by rw [herror]; rfl⟩

/-- A chunked response decodes exactly if its extensions are text. The decoder ends on every input,
since every pass leaves less of it. -/
theorem decodes_iff (head : ChunkedHead) (chunks : List Chunk) (last : SizeLine 0)
    (trailer : List UInt8) :
    (Decodes head chunks last trailer ↔ TextExtensions chunks last) ∧
    ∀ input data rest, chunkStep input = .ok (some (data, rest)) →
      rest.length < input.length := by
  refine ⟨⟨fun h => ?_, fun h => ⟨?_, fun n hn => parseResponse_cut hn⟩⟩,
    fun input data rest => chunkStep_lt⟩
  · have hexact := h.exact_
    rw [chunkedResponse, head.parseResponse_eq, decodeChunks_body] at hexact
    split_ifs at hexact with hall
    · exact hall
    · cases hexact
  · rw [chunkedResponse, head.parseResponse_eq, decodeChunks_body, if_pos h]
    rfl

/-- The head of a chunked response. -/
def inspectHead : ChunkedHead where
  bytes := ascii "HTTP/1.1 200 OK\r\nTransfer-Encoding: chunked".toList
  text := "HTTP/1.1 200 OK\r\nTransfer-Encoding: chunked".toList
  isText := by decide
  status := "200".toList
  hasStatus := by decide
  noBlank := by decide
  declares := ⟨"Transfer-Encoding: chunked".toList, by decide, " chunked".toList, by decide,
    List.suffix_cons _ _ |>.isInfix⟩

/-- A chunk of one brace, with an extension that is a byte of Latin-1. -/
def latinChunk : Chunk where
  data := [0x7B]
  nonempty := by decide
  size := {
    digits := ['1']
    ext := [0x3B, 0xFF]
    nonempty := by decide
    value := by decide
    fits := by decide
    oneLine := by decide
    shape := .inr ⟨[], [0xFF], nofun, by decide⟩ }

def zeroLine : SizeLine 0 where
  digits := ['0']
  ext := []
  nonempty := by decide
  value := by decide
  fits := by decide
  oneLine := by decide
  shape := .inl rfl

/-- The extension refuses the response. -/
theorem not_decodes : ¬ Decodes inspectHead [latinChunk] zeroLine crlf := by
  intro h
  have hexact := h.exact_
  rw [chunkedResponse, inspectHead.parseResponse_eq, decodeChunks_body, if_neg (by decide)]
    at hexact
  cases hexact

end Argus
