import Mathlib.Data.List.Infix
import Mathlib.Data.Nat.Bitwise
import Mathlib.Tactic.IntervalCases

/-!
The text of GUI objects, made well-formed UTF-8 within the limits of one object. A text is a list
of characters and its bytes are their encodings; the decoder of the source, which tests bits, is
proved to find exactly the encodings. A replacement is three bytes long and no character needs more
than four, so the limit on characters always comes before the limit on bytes.
-/
namespace Gargantuan.GuiResources
open List Option Nat UInt8

def maximumTextBytesPerObject : Nat := 16 * 1024
def maximumGlyphsPerTextObject : Nat := 4096

structure SanitizedText where
  bytes : List UInt8 := []
  byteBoundaries : List Nat := [0]
  replacedInvalid : Bool := false
  truncated : Bool := false
  codepoints : Nat := 0

def appendReplacement (result : SanitizedText) : SanitizedText :=
  let bytes := if result.bytes.length + 3 ≤ maximumTextBytesPerObject then result.bytes ++ [0xEF,0xBF,0xBD]
    else result.bytes
  { result with
    bytes, replacedInvalid := true, codepoints := result.codepoints + 1
    byteBoundaries := result.byteBoundaries ++ [bytes.length] }

/-- The length that a first byte announces, zero for none, and its bits of the codepoint. -/
def firstByte (first : Nat) : Nat × Nat :=
  if first < 0x80 then (1,first)
  else if first &&& 0xE0 = 0xC0 then (2,first &&& 0x1F)
  else if first &&& 0xF0 = 0xE0 then (3,first &&& 0x0F)
  else if first &&& 0xF8 = 0xF0 then (4,first &&& 0x07)
  else (0,0)

/-- The codepoint with the bits of the bytes that continue it. -/
def continued (codepoint : Nat) : List UInt8 → Option Nat
  | [] => some codepoint
  | byte :: rest =>
    if byte.toNat &&& 0xC0 = 0x80 then continued (codepoint <<< 6 ||| (byte.toNat &&& 0x3F)) rest else none

def overlong (length codepoint : Nat) : Bool :=
  length = 2 ∧ codepoint < 0x80 ∨ length = 3 ∧ codepoint < 0x800 ∨ length = 4 ∧ codepoint < 0x10000

def validLength : List UInt8 → Option Nat
  | [] => none
  | first :: rest =>
    let length := (firstByte first.toNat).1
    if length ≠ 0 ∧ length ≤ rest.length + 1 then
      match continued (firstByte first.toNat).2 (rest.take (length - 1)) with
      | some codepoint =>
        if ¬ overlong length codepoint ∧ codepoint ≤ 0x10FFFF ∧ ¬ (0xD800 ≤ codepoint ∧ codepoint ≤ 0xDFFF) then
          some length
        else none
      | none => none
    else none

variable {length : Nat} {input : List UInt8}

theorem validLength_pos (valid : validLength input = some length) :
    0 < length ∧ length ≤ input.length := by
  cases input with
  | nil => simp [validLength] at valid
  | cons first rest =>
    rw [validLength] at valid
    split_ifs at valid with fits
    split at valid
    · split_ifs at valid
      cases valid
      exact ⟨pos_of_ne_zero fits.1,fits.2⟩
    · cases valid

def sanitizeLoop (input : List UInt8) (result : SanitizedText) : List UInt8 × SanitizedText :=
  if input ≠ [] ∧ result.bytes.length < maximumTextBytesPerObject ∧ result.codepoints < maximumGlyphsPerTextObject then
    match valid : validLength input with
    | none => sanitizeLoop input.tail (appendReplacement result)
    | some length =>
      have := validLength_pos valid
      if result.bytes.length + length > maximumTextBytesPerObject then (input,result)
      else
        let bytes := result.bytes ++ input.take length
        sanitizeLoop (input.drop length)
          { result with
            bytes, codepoints := result.codepoints + 1, byteBoundaries := result.byteBoundaries ++ [bytes.length] }
  else (input,result)
termination_by input.length
decreasing_by
  · have := List.length_pos_of_ne_nil (by tauto : input ≠ [])
    simp
    omega
  · simp
    omega

def sanitizeUtf8 (input : List UInt8) : SanitizedText :=
  let (rest,result) := sanitizeLoop input {}
  { result with truncated := decide (rest ≠ []) }

theorem and_eq (n : Nat) (byte : n < 256) :
    (n &&& 0xE0 = 0xC0 ↔ 0xC0 ≤ n ∧ n < 0xE0) ∧ (n &&& 0xF0 = 0xE0 ↔ 0xE0 ≤ n ∧ n < 0xF0) ∧
      (n &&& 0xF8 = 0xF0 ↔ 0xF0 ≤ n ∧ n < 0xF8) ∧ (n &&& 0xC0 = 0x80 ↔ 0x80 ≤ n ∧ n < 0xC0) := by
  revert n
  decide +kernel

@[simp] theorem continued_nil (codepoint : Nat) : continued codepoint [] = some codepoint := rfl

theorem continued_cons (codepoint : Nat) (byte : UInt8) (rest : List UInt8) :
    continued codepoint (byte :: rest) =
      if 0x80 ≤ byte.toNat ∧ byte.toNat < 0xC0 then continued (codepoint * 64 + byte.toNat % 64) rest else none := by
  have bits : byte.toNat &&& 0x3F = byte.toNat % 64 := and_two_pow_sub_one_eq_mod _ 6
  rw [continued,bits,← shiftLeft_add_eq_or_of_lt (b := byte.toNat % 64) (i := 6) (by omega),shiftLeft_eq]
  simp only [(and_eq _ byte.toNat_lt).2.2.2]

variable {n : Nat}

theorem firstByte_eq (byte : n < 256) :
    firstByte n = if n < 0x80 then (1,n) else if 0xC0 ≤ n ∧ n < 0xE0 then (2,n % 32)
      else if 0xE0 ≤ n ∧ n < 0xF0 then (3,n % 16) else if 0xF0 ≤ n ∧ n < 0xF8 then (4,n % 8) else (0,0) := by
  have five : n &&& 0x1F = n % 32 := and_two_pow_sub_one_eq_mod _ 5
  have four : n &&& 0x0F = n % 16 := and_two_pow_sub_one_eq_mod _ 4
  have three : n &&& 0x07 = n % 8 := and_two_pow_sub_one_eq_mod _ 3
  obtain ⟨two,third,fourth,-⟩ := and_eq n byte
  simp only [firstByte,two,third,fourth,five,four,three]

theorem toNat_ofNat (byte : n < 256) : (ofNat n).toNat = n := by
  rw [toNat_ofNat',mod_eq_of_lt byte]

theorem continued_tail (codepoint n : Nat) (rest : List UInt8) :
    continued codepoint (ofNat (n % 64 + 128) :: rest) = continued (codepoint * 64 + n % 64) rest := by
  rw [continued_cons,toNat_ofNat (by omega),if_pos (by omega)]
  congr 2
  omega

theorem validLength_of {first : UInt8} {rest : List UInt8} (bits codepoint : Nat)
    (lead : firstByte first.toNat = (length,bits)) (fits : length ≠ 0 ∧ length ≤ rest.length + 1)
    (more : continued bits (rest.take (length - 1)) = some codepoint) (minimal : overlong length codepoint = false)
    (scalar : codepoint < 0xD800 ∨ 0xDFFF < codepoint ∧ codepoint < 0x110000) :
    validLength (first :: rest) = some length := by
  rw [validLength,lead,if_pos fits]
  simp only [more,minimal]
  rw [if_pos ⟨nofun,by omega,by omega⟩]

theorem validLength_utf8EncodeChar (c : Char) (rest : List UInt8) :
    validLength (String.utf8EncodeChar c ++ rest) = some (String.utf8EncodeChar c).length := by
  have scalar : c.val.toNat < 0xD800 ∨ 0xDFFF < c.val.toNat ∧ c.val.toNat < 0x110000 := c.valid
  unfold String.utf8EncodeChar
  generalize c.val.toNat = v at scalar ⊢
  dsimp only
  split_ifs with one two three
  · refine validLength_of v v ?_ (by simp) rfl (by simp [overlong]) scalar
    rw [toNat_ofNat (by omega),firstByte_eq (by omega),if_pos (by omega)]
    rfl
  · refine validLength_of (v / 64) v ?_ (by simp) ?_ (by simp [overlong]; omega) scalar
    · rw [toNat_ofNat (by omega),firstByte_eq (by omega),if_neg (by omega),if_pos (by omega)]
      simp
      omega
    · change continued (v / 64) [ofNat (v % 64 + 128)] = some v
      rw [continued_tail,continued_nil]
      exact congrArg some (by omega)
  · refine validLength_of (v / 4096) v ?_ (by simp) ?_ (by simp [overlong]; omega) scalar
    · rw [toNat_ofNat (by omega),firstByte_eq (by omega),if_neg (by omega),if_neg (by omega),if_pos (by omega)]
      simp
      omega
    · change continued (v / 4096) [ofNat (v / 64 % 64 + 128),.ofNat (v % 64 + 128)] = some v
      rw [continued_tail,continued_tail,continued_nil]
      exact congrArg some (by omega)
  · refine validLength_of (v / 262144) v ?_ (by simp) ?_ (by simp [overlong]; omega) scalar
    · rw [toNat_ofNat (by omega),firstByte_eq (by omega),if_neg (by omega),if_neg (by omega),
        if_neg (by omega),if_pos (by omega)]
      simp
      omega
    · change continued (v / 262144)
        [ofNat (v / 4096 % 64 + 128),.ofNat (v / 64 % 64 + 128),.ofNat (v % 64 + 128)] = some v
      rw [continued_tail,continued_tail,continued_tail,continued_nil]
      exact congrArg some (by omega)

theorem continued_inv {codepoint full : Nat} {byte : UInt8} {l : List UInt8}
    (more : continued codepoint (byte :: l) = some full) :
    (0x80 ≤ byte.toNat ∧ byte.toNat < 0xC0) ∧ continued (codepoint * 64 + byte.toNat % 64) l = some full := by
  rw [continued_cons] at more
  split_ifs at more with tail
  exact ⟨tail,more⟩

theorem exists_char {v : Nat} (scalar : v < 0xD800 ∨ 0xDFFF < v ∧ v < 0x110000) : ∃ c : Char, c.val.toNat = v :=
  ⟨⟨⟨v,by omega⟩,scalar⟩,rfl⟩

theorem ofNat_eq {b : UInt8} (same : n = b.toNat) : UInt8.ofNat n = b := by
  rw [same,UInt8.ofNat_toNat]

/-- What the decoder accepts starts with the encoding of a character. -/
theorem utf8EncodeChar_of_validLength (valid : validLength input = some length) :
    ∃ c, String.utf8EncodeChar c = input.take length := by
  cases input with
  | nil => simp [validLength] at valid
  | cons first rest =>
    have small := first.toNat_lt
    rw [validLength] at valid
    split_ifs at valid with fits
    split at valid
    case h_2 => cases valid
    case h_1 codepoint more =>
    split_ifs at valid with scalar
    cases valid
    obtain ⟨minimal,bound,gap⟩ := scalar
    rw [firstByte_eq small] at fits more minimal ⊢
    obtain ⟨c,value⟩ := exists_char (v := codepoint) (by omega)
    refine ⟨c,?_⟩
    unfold String.utf8EncodeChar
    rw [value]
    split_ifs at fits more minimal ⊢ with one two three four
    · obtain rfl : first.toNat = codepoint := some.inj more
      exact (if_pos (by omega)).trans (congrArg (· :: []) (ofNat_eq rfl))
    · rcases rest with _ | ⟨b,rest⟩
      · simp at fits
      obtain ⟨tail,more⟩ := continued_inv (l := []) more
      obtain rfl := some.inj more
      simp [overlong] at minimal
      dsimp only
      rw [if_neg (by omega),if_pos (by omega),ofNat_eq (n := _ + 192) (b := first) (by omega),
        ofNat_eq (b := b) (by omega)]
      rfl
    · rcases rest with _ | ⟨b,_ | ⟨b',rest⟩⟩
      · simp at fits
      · simp at fits
      obtain ⟨tail,more⟩ := continued_inv (l := [b']) more
      obtain ⟨tail',more⟩ := continued_inv (l := []) more
      obtain rfl := some.inj more
      simp [overlong] at minimal
      dsimp only
      rw [if_neg (by omega),if_neg (by omega),if_pos (by omega),ofNat_eq (n := _ + 224) (b := first) (by omega),
        ofNat_eq (b := b) (by omega),ofNat_eq (b := b') (by omega)]
      rfl
    · rcases rest with _ | ⟨b,_ | ⟨b',_ | ⟨b'',rest⟩⟩⟩
      · simp at fits
      · simp at fits
      · simp at fits
      obtain ⟨tail,more⟩ := continued_inv (l := [b',b'']) more
      obtain ⟨tail',more⟩ := continued_inv (l := [b'']) more
      obtain ⟨tail'',more⟩ := continued_inv (l := []) more
      obtain rfl := some.inj more
      simp [overlong] at minimal
      dsimp only
      rw [if_neg (by omega),if_neg (by omega),if_neg (by omega),ofNat_eq (n := _ + 240) (b := first) (by omega),
        ofNat_eq (b := b) (by omega),ofNat_eq (b := b') (by omega),ofNat_eq (b := b'') (by omega)]
      rfl
    · exact absurd rfl fits.1

def encoded (text : List Char) : List UInt8 := text.flatMap String.utf8EncodeChar

/-- The character that stands for a byte at which no character starts. -/
def replacement : Char := Char.ofNat 0xFFFD

/-- What there is to read in bytes: the characters, and a replacement for each byte at which none starts. -/
inductive Reads : List UInt8 → List Char → Prop where
  | done : Reads [] []
  | character (c : Char) {rest : List UInt8} {text : List Char} :
      Reads rest text → Reads (String.utf8EncodeChar c ++ rest) (c :: text)
  | other {byte : UInt8} {rest : List UInt8} {text : List Char} :
      (∀ c, ¬ String.utf8EncodeChar c <+: byte :: rest) → Reads rest text → Reads (byte :: rest) (replacement :: text)

/-- The sizes of the prefixes of a text, the empty one first. -/
def boundaries (text : List Char) : List Nat := text.inits.map fun before => (encoded before).length

structure Represents (result : SanitizedText) (text : List Char) : Prop where
  bytes : result.bytes = encoded text
  byteBoundaries : result.byteBoundaries = boundaries text
  codepoints : result.codepoints = text.length

variable {input : List UInt8} {text whole : List Char} {result : SanitizedText}

theorem encoded_append (c : Char) : encoded (text ++ [c]) = encoded text ++ String.utf8EncodeChar c := by
  simp [encoded]

theorem boundaries_append (c : Char) :
    boundaries (text ++ [c]) = boundaries text ++ [(encoded text ++ String.utf8EncodeChar c).length] := by
  simp [boundaries,inits_append,encoded]

theorem length_encoded_le (text : List Char) : (encoded text).length ≤ 4 * text.length := by
  induction text with
  | nil => rfl
  | cons c text ih =>
    have size := c.utf8Size_le_four
    simp only [encoded,flatMap_cons,length_append,String.length_utf8EncodeChar,length_cons] at ih ⊢
    omega

theorem boundaries_increase (text : List Char) : (boundaries text).Pairwise (· < ·) := by
  induction text using reverseRecOn with
  | nil => simp [boundaries]
  | append_singleton text c ih =>
    rw [boundaries_append,pairwise_append]
    refine ⟨ih,pairwise_singleton _ _,fun size member last there => ?_⟩
    obtain ⟨before,prior,rfl⟩ := mem_map.mp member
    obtain ⟨after,rfl⟩ := (mem_inits _ _).mp prior
    obtain rfl := mem_singleton.mp there
    have size := c.utf8Size_pos
    simp only [encoded,flatMap_append,length_append,String.length_utf8EncodeChar]
    omega

theorem reads_encoded (text : List Char) : Reads (encoded text) text := by
  induction text with
  | nil => exact .done
  | cons c text ih => exact .character c ih

theorem exists_reads (input : List UInt8) : ∃ whole, Reads input whole := by
  induction size : input.length using Nat.strong_induction_on generalizing input with
  | _ n ih =>
  subst size
  by_cases starts : ∃ c, String.utf8EncodeChar c <+: input
  · obtain ⟨c,rest,rfl⟩ := starts
    have size := c.utf8Size_pos
    obtain ⟨whole,reads⟩ := ih _ (by simp; omega) rest rfl
    exact ⟨_,.character c reads⟩
  · cases input with
    | nil => exact ⟨_,.done⟩
    | cons byte rest =>
      obtain ⟨whole,reads⟩ := ih _ (by simp) rest rfl
      exact ⟨_,.other (not_exists.mp starts) reads⟩

section
variable (represents : Represents result text)
include represents

theorem Represents.append (c : Char) (replaced : Bool) :
    Represents
      { result with
        bytes := result.bytes ++ String.utf8EncodeChar c, codepoints := result.codepoints + 1
        byteBoundaries := result.byteBoundaries ++ [(result.bytes ++ String.utf8EncodeChar c).length]
        replacedInvalid := replaced } (text ++ [c]) where
  bytes := by rw [encoded_append,represents.bytes]
  byteBoundaries := by rw [boundaries_append,represents.byteBoundaries,represents.bytes]
  codepoints := by simp [represents.codepoints]

theorem Represents.room (more : text.length < maximumGlyphsPerTextObject) :
    result.bytes.length + 4 ≤ maximumTextBytesPerObject := by
  have size := length_encoded_le text
  rw [represents.bytes]
  unfold maximumGlyphsPerTextObject at more
  unfold maximumTextBytesPerObject
  omega

theorem sanitizeLoop_stop (full : ¬ text.length < maximumGlyphsPerTextObject) :
    sanitizeLoop input result = (input,result) := by
  rw [sanitizeLoop,if_neg fun more => full (represents.codepoints ▸ more.2.2)]

end

theorem sanitizeLoop_character (c : Char) (represents : Represents result text)
    (more : text.length < maximumGlyphsPerTextObject) :
    sanitizeLoop (String.utf8EncodeChar c ++ input) result = sanitizeLoop input
      { result with
        bytes := result.bytes ++ String.utf8EncodeChar c, codepoints := result.codepoints + 1
        byteBoundaries := result.byteBoundaries ++ [(result.bytes ++ String.utf8EncodeChar c).length] } := by
  have room := represents.room more
  have size : (String.utf8EncodeChar c).length ≤ 4 := by simpa using c.utf8Size_le_four
  rw [sanitizeLoop,if_pos ⟨by simp [String.utf8EncodeChar_ne_nil],by omega,represents.codepoints ▸ more⟩]
  split
  next none => cases none.symm.trans (validLength_utf8EncodeChar c input)
  next length valid =>
    obtain rfl := some.inj (valid.symm.trans (validLength_utf8EncodeChar c input))
    rw [if_neg (by omega),take_left,drop_left]

theorem sanitizeLoop_other {byte : UInt8} (none : ∀ c, ¬ String.utf8EncodeChar c <+: byte :: input)
    (represents : Represents result text) (more : text.length < maximumGlyphsPerTextObject) :
    sanitizeLoop (byte :: input) result = sanitizeLoop input
      { result with
        bytes := result.bytes ++ String.utf8EncodeChar replacement, codepoints := result.codepoints + 1
        byteBoundaries := result.byteBoundaries ++ [(result.bytes ++ String.utf8EncodeChar replacement).length]
        replacedInvalid := true } := by
  have room := represents.room more
  have three : String.utf8EncodeChar replacement = [0xEF,0xBF,0xBD] := by decide
  rw [sanitizeLoop,if_pos ⟨by simp,by omega,represents.codepoints ▸ more⟩]
  split
  next =>
    have fits : result.bytes.length + 3 ≤ maximumTextBytesPerObject := by omega
    simp only [appendReplacement,if_pos fits,three,tail_cons]
  next length valid =>
    obtain ⟨c,starts⟩ := utf8EncodeChar_of_validLength valid
    exact absurd (starts ▸ take_prefix _ _) (none c)

theorem sanitizeLoop_reads (reads : Reads input whole) (represents : Represents result text) :
    Represents (sanitizeLoop input result).2 (text ++ whole.take (maximumGlyphsPerTextObject - text.length)) ∧
      ((sanitizeLoop input result).1 = [] ↔ whole.length ≤ maximumGlyphsPerTextObject - text.length) := by
  induction reads generalizing text result with
  | done =>
    rw [sanitizeLoop,if_neg nofun]
    simp [represents]
  | @character c rest whole _ ih =>
    by_cases more : text.length < maximumGlyphsPerTextObject
    · have next : maximumGlyphsPerTextObject - text.length =
          maximumGlyphsPerTextObject - (text ++ [c]).length + 1 := by simp; omega
      rw [sanitizeLoop_character c represents more,next]
      simpa using ih (represents.append c result.replacedInvalid)
    · rw [sanitizeLoop_stop represents more,Nat.sub_eq_zero_of_le (by omega)]
      simp [represents,String.utf8EncodeChar_ne_nil]
  | @other byte rest whole none _ ih =>
    by_cases more : text.length < maximumGlyphsPerTextObject
    · have next : maximumGlyphsPerTextObject - text.length =
          maximumGlyphsPerTextObject - (text ++ [replacement]).length + 1 := by simp; omega
      rw [sanitizeLoop_other none represents more,next]
      simpa using ih (represents.append replacement true)
    · rw [sanitizeLoop_stop represents more,Nat.sub_eq_zero_of_le (by omega)]
      simp [represents]

theorem sanitizeUtf8_take (reads : Reads input whole) :
    Represents (sanitizeUtf8 input) (whole.take maximumGlyphsPerTextObject) ∧
      ((sanitizeUtf8 input).truncated = true ↔ maximumGlyphsPerTextObject < whole.length) := by
  obtain ⟨⟨bytes,byteBoundaries,codepoints⟩,all⟩ :=
    sanitizeLoop_reads reads (show Represents {} [] from ⟨rfl,rfl,rfl⟩)
  exact ⟨⟨bytes,byteBoundaries,codepoints⟩,decide_eq_true_iff.trans (all.not.trans not_le)⟩

/-- What sanitizing gives is well-formed and within the limits; it is the input where that is so, and it is
    marked as truncated when something that there is to read is missing from it. -/
theorem sanitizeUtf8_reads (input : List UInt8) :
    (∀ text, input = encoded text → text.length ≤ maximumGlyphsPerTextObject →
      (sanitizeUtf8 input).bytes = input ∧ (sanitizeUtf8 input).truncated = false) ∧
    (∃ whole, Reads input whole) ∧ ∀ whole, Reads input whole → ∃ text,
      (sanitizeUtf8 input).bytes = encoded text ∧ (sanitizeUtf8 input).bytes.length ≤ maximumTextBytesPerObject ∧
      text.length ≤ maximumGlyphsPerTextObject ∧ (sanitizeUtf8 input).codepoints = text.length ∧
      (sanitizeUtf8 input).byteBoundaries = boundaries text ∧
      (sanitizeUtf8 input).byteBoundaries.head? = some 0 ∧ (sanitizeUtf8 input).byteBoundaries.Pairwise (· < ·) ∧
      (sanitizeUtf8 input).codepoints = (sanitizeUtf8 input).byteBoundaries.length - 1 ∧
      text <+: whole ∧ ((sanitizeUtf8 input).truncated = true ↔ text ≠ whole) := by
  refine ⟨fun text same short => ?_,exists_reads input,fun whole reads => ?_⟩
  · subst same
    obtain ⟨represents,truncated⟩ := sanitizeUtf8_take (reads_encoded text)
    rw [represents.bytes,List.take_of_length_le short]
    exact ⟨rfl,Bool.eq_false_iff.mpr fun cut => absurd (truncated.mp cut) (by omega)⟩
  · obtain ⟨represents,truncated⟩ := sanitizeUtf8_take reads
    have short : (whole.take maximumGlyphsPerTextObject).length ≤ maximumGlyphsPerTextObject := by simp
    refine ⟨_,represents.bytes,?_,short,represents.codepoints,represents.byteBoundaries,?_,?_,?_,
      List.take_prefix _ _,truncated.trans (by rw [ne_eq,List.take_eq_self_iff,Nat.not_le])⟩
    · have size := length_encoded_le (whole.take maximumGlyphsPerTextObject)
      rw [represents.bytes]
      unfold maximumGlyphsPerTextObject at short size ⊢
      unfold maximumTextBytesPerObject
      omega
    · rw [represents.byteBoundaries]
      cases whole.take maximumGlyphsPerTextObject <;> rfl
    · rw [represents.byteBoundaries]
      exact boundaries_increase _
    · rw [represents.byteBoundaries,represents.codepoints]
      simp [boundaries]

/-- What was sanitized is sanitized to itself, and nothing is missing from it. -/
theorem sanitizeUtf8_sanitized (input : List UInt8) :
    (sanitizeUtf8 (sanitizeUtf8 input).bytes).bytes = (sanitizeUtf8 input).bytes ∧
      (sanitizeUtf8 (sanitizeUtf8 input).bytes).byteBoundaries = (sanitizeUtf8 input).byteBoundaries ∧
      (sanitizeUtf8 (sanitizeUtf8 input).bytes).codepoints = (sanitizeUtf8 input).codepoints ∧
      (sanitizeUtf8 (sanitizeUtf8 input).bytes).truncated = false := by
  obtain ⟨whole,reads⟩ := exists_reads input
  obtain ⟨once,-⟩ := sanitizeUtf8_take reads
  have again := sanitizeUtf8_take (reads_encoded (whole.take maximumGlyphsPerTextObject))
  rw [← once.bytes,List.take_take,min_self] at again
  obtain ⟨twice,truncated⟩ := again
  have short : (whole.take maximumGlyphsPerTextObject).length ≤ maximumGlyphsPerTextObject := by simp
  exact ⟨twice.bytes.trans once.bytes.symm,twice.byteBoundaries.trans once.byteBoundaries.symm,
    twice.codepoints.trans once.codepoints.symm,Bool.eq_false_iff.mpr fun cut => absurd (truncated.mp cut) (by omega)⟩

end Gargantuan.GuiResources
