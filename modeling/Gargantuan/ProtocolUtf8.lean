import Gargantuan.GuiResources

/-!
The check that strings from outside are well-formed UTF-8. Words of eight ASCII bytes are skipped
by one test; the decoder of single sequences makes the same tests as the one of GUI texts.
-/
namespace Gargantuan.ProtocolInput
open GuiResources List

def word (bytes : List UInt8) : Nat := bytes.foldr (fun byte high => high <<< 8 ||| byte.toNat) 0

def skipWords (input : List UInt8) : List UInt8 :=
  if 8 ≤ input.length ∧ word (input.take 8) &&& 0x8080808080808080 = 0 then skipWords (input.drop 8) else input
termination_by input.length

theorem skipWords_le (input : List UInt8) : (skipWords input).length ≤ input.length := by
  fun_induction skipWords input with
  | case1 input _ ih => exact ih.trans (by simp)
  | case2 => rfl

def isValidProtocolUtf8 (input : List UInt8) : Bool :=
  if skipWords input = [] then true
  else
    match _valid : validLength (skipWords input) with
    | none => false
    | some length => isValidProtocolUtf8 ((skipWords input).drop length)
termination_by input.length
decreasing_by
  have := validLength_pos _valid
  have := skipWords_le input
  simp
  omega

theorem and_eq_zero (a b : Nat) : a &&& b = 0 ↔ a / 256 &&& b / 256 = 0 ∧ a % 256 &&& b % 256 = 0 := by
  have high : (a &&& b) / 256 = a / 256 &&& b / 256 := Nat.and_div_two_pow (n := 8)
  have low : (a &&& b) % 256 = a % 256 &&& b % 256 := Nat.and_mod_two_pow (n := 8)
  rw [← high,← low]
  omega

theorem byte_and (n : Nat) (byte : n < 256) : n &&& 0x80 = 0 ↔ n < 0x80 := by
  revert n
  decide +kernel

theorem word_and (bytes : List UInt8) :
    word bytes &&& bytes.foldr (fun _ high => high <<< 8 ||| 0x80) 0 = 0 ↔ ∀ b ∈ bytes, b.toNat < 0x80 := by
  induction bytes with
  | nil => simp [word]
  | cons b rest ih =>
    have small := b.toNat_lt
    have first : word (b :: rest) = word rest * 256 + b.toNat := by
      rw [word,foldr_cons,← Nat.shiftLeft_add_eq_or_of_lt (i := 8) small,Nat.shiftLeft_eq,word]
    rw [first,foldr_cons,← Nat.shiftLeft_add_eq_or_of_lt (b := 0x80) (i := 8) (by decide),Nat.shiftLeft_eq,
      and_eq_zero]
    have shift (x y : Nat) (less : y < 256) : (x * 256 + y) / 256 = x ∧ (x * 256 + y) % 256 = y := by omega
    change (word rest * 256 + _) / 256 &&& (_ * 256 + _) / 256 = 0 ∧
      (word rest * 256 + _) % 256 &&& (_ * 256 + _) % 256 = 0 ↔ _
    rw [(shift _ _ small).1,(shift _ _ small).2,(shift _ 0x80 (by decide)).1,(shift _ 0x80 (by decide)).2,ih,
      byte_and _ small,and_comm,forall_mem_cons]

theorem skipWords_ascii (input : List UInt8) :
    ∃ ascii : List UInt8, input = ascii ++ skipWords input ∧ ∀ b ∈ ascii, b.toNat < 0x80 := by
  fun_induction skipWords input with
  | case1 input skips ih =>
    obtain ⟨ascii,same,small⟩ := ih
    refine ⟨input.take 8 ++ ascii,?_,?_⟩
    · rw [append_assoc,← same,take_append_drop]
    · have eight : (input.take 8).foldr (fun _ high => high <<< 8 ||| 0x80) 0 = 0x8080808080808080 := by
        rw [foldr_const,length_take,Nat.min_eq_left skips.1]
        rfl
      have first := (word_and (input.take 8)).mp (eight ▸ skips.2)
      exact forall_mem_append.mpr ⟨first,small⟩
  | case2 input => exact ⟨[],rfl,by simp⟩

theorem encoded_iff {input : List UInt8} {length : Nat} (valid : validLength input = some length) :
    (∃ text, input = encoded text) ↔ ∃ text, input.drop length = encoded text := by
  constructor
  · rintro ⟨_ | ⟨c,text⟩,rfl⟩
    · simp [encoded,validLength] at valid
    · change validLength (String.utf8EncodeChar c ++ encoded text) = _ at valid
      obtain rfl := Option.some.inj ((validLength_utf8EncodeChar c _).symm.trans valid)
      exact ⟨text,drop_left⟩
  · rintro ⟨text,same⟩
    obtain ⟨c,first⟩ := utf8EncodeChar_of_validLength valid
    refine ⟨c :: text,?_⟩
    change _ = String.utf8EncodeChar c ++ encoded text
    rw [first,← same,take_append_drop]

theorem encoded_append_iff {ascii : List UInt8} (small : ∀ b ∈ ascii, b.toNat < 0x80) (rest : List UInt8) :
    (∃ text, ascii ++ rest = encoded text) ↔ ∃ text, rest = encoded text := by
  induction ascii with
  | nil => rfl
  | cons b ascii ih =>
    have less := small b mem_cons_self
    have one : validLength (b :: (ascii ++ rest)) = some 1 :=
      validLength_of b.toNat b.toNat (by simp [firstByte,less]) (by simp) rfl (by simp [overlong]) (by omega)
    exact (encoded_iff one).trans (ih fun b mem => small b (mem_cons_of_mem _ mem))

/-- The check accepts exactly the encodings of characters. -/
theorem isValidProtocolUtf8_iff (input : List UInt8) :
    isValidProtocolUtf8 input = true ↔ ∃ text, input = encoded text := by
  fun_induction isValidProtocolUtf8 input with
  | case1 input all =>
    obtain ⟨ascii,same,small⟩ := skipWords_ascii input
    rw [same,all,encoded_append_iff small]
    exact ⟨fun _ => ⟨[],rfl⟩,fun _ => rfl⟩
  | case2 input some none =>
    obtain ⟨ascii,same,small⟩ := skipWords_ascii input
    rw [same,encoded_append_iff small]
    refine ⟨fun accepted => absurd accepted Bool.false_ne_true,?_⟩
    rintro ⟨_ | ⟨c,text⟩,rest⟩
    · exact absurd rest some
    · rw [rest] at none
      cases none.symm.trans (validLength_utf8EncodeChar c _)
  | case3 input some length valid ih =>
    obtain ⟨ascii,same,small⟩ := skipWords_ascii input
    rw [ih,← encoded_iff valid,← encoded_append_iff small,← same]

end Gargantuan.ProtocolInput
