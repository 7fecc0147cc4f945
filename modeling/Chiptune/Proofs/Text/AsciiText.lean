import Chiptune.Text.Ascii
import Mathlib.Algebra.Group.Nat.Defs
import Mathlib.Data.List.Basic

/-! ASCII text as bytes, and numbers as digits. Both can be undone: the bytes of an ASCII text
give it back, and the digits of a number are read as the number.
-/

namespace Chiptune.Ascii

-----------------------------------------------------------------------------------------
-- Digits
-----------------------------------------------------------------------------------------

/-- The text of a number consists of its decimal digits. -/
theorem toList_toString (value : Nat) : (toString value).toList = Nat.toDigits 10 value :=
  Nat.toList_repr

theorem toList_toString_uint32 (value : UInt32)
    : (toString value).toList = Nat.toDigits 10 value.toNat :=
  Nat.toList_repr

theorem length_toString (value : Nat)
    : (toString value).length = (Nat.toDigits 10 value).length := by
  rw [← String.length_toList, toList_toString]

theorem length_toString_uint32 (value : UInt32)
    : (toString value).length = (Nat.toDigits 10 value.toNat).length :=
  length_toString value.toNat

theorem isDigit_of_mem {value : Nat} {c : Char} (member : c ∈ Nat.toDigits 10 value)
    : c.isDigit :=
  Nat.isDigit_of_mem_toDigits (by decide) (by decide) member

theorem isDigits_toDigits (value : Nat) : isDigits (Nat.toDigits 10 value) := by
  simp only [isDigits, Bool.and_eq_true, Bool.not_eq_true', List.isEmpty_eq_false_iff,
    List.all_eq_true]
  exact ⟨Nat.toDigits_ne_nil, fun c member => isDigit_of_mem member⟩

/-- The digits of a number below the bound are read as the number. -/
theorem number?_toDigits {bound value : Nat} (small : value < bound)
    : number? bound (Nat.toDigits 10 value) = some value :=
  number?_eq_some_iff.mpr ⟨isDigits_toDigits value, Nat.ofDigitChars_ten_toDigits, small⟩

/-- The value of digits after others that have the value `before`, by induction on the digits. -/
theorem ofDigitChars_lt {digits : List Char} (all : digits.all Char.isDigit) (before : Nat)
    : Nat.ofDigitChars 10 digits before < (before + 1) * 10 ^ digits.length := by
  induction digits generalizing before with
  | nil => simp
  | cons digit later ih =>
      simp only [List.all_cons, Bool.and_eq_true] at all
      have range := Char.isDigit_iff_toNat.mp all.1
      have least : '0'.toNat = 48 := rfl
      have greatest : '9'.toNat = 57 := rfl
      have next := ih all.2 (10 * before + (digit.toNat - '0'.toNat))
      rw [Nat.ofDigitChars_cons, List.length_cons, Nat.pow_succ']
      apply Nat.lt_of_lt_of_le next
      rw [← Nat.mul_assoc]
      apply Nat.mul_le_mul_right
      omega

/-- A number is written with the fewest digits: leading zeros only make a word longer. -/
theorem length_toDigits_le {digits : List Char} {value : Nat} (areDigits : isDigits digits)
    (atMost : value ≤ digitsValue digits)
    : (Nat.toDigits 10 value).length ≤ digits.length := by
  simp only [isDigits, Bool.and_eq_true, Bool.not_eq_true', List.isEmpty_eq_false_iff]
    at areDigits
  obtain ⟨nonempty, all⟩ := areDigits
  have bound := ofDigitChars_lt all 0
  rw [Nat.zero_add, Nat.one_mul] at bound
  apply (Nat.length_toDigits_le_iff (by decide) (List.length_pos_iff.mpr nonempty)).mpr
  exact Nat.lt_of_le_of_lt atMost bound

theorem notMem_of_isDigits {digits : List Char} (areDigits : isDigits digits) {c : Char}
    (other : c.isDigit = false)
    : c ∉ digits := by
  intro member
  simp only [isDigits, Bool.and_eq_true, List.all_eq_true] at areDigits
  exact Bool.false_ne_true (other.symm.trans (areDigits.2 c member))

theorem toUpper_of_isDigit {c : Char} (digit : c.isDigit) : c.toUpper = c := by
  have range := Char.isDigit_iff_toNat.mp digit
  refine dif_neg fun lower => ?_
  have least : 'a'.toNat ≤ c.toNat := UInt32.le_iff_toNat_le.mp lower.1
  have digits : '9'.toNat < 'a'.toNat := by decide
  omega

@[simp] theorem upper_toDigits (value : Nat)
    : upper (Nat.toDigits 10 value) = Nat.toDigits 10 value := by
  simpa [upper] using
    List.map_congr_left fun c member => toUpper_of_isDigit (isDigit_of_mem member)

@[simp] theorem upper_append (first second : List Char)
    : upper (first ++ second) = upper first ++ upper second :=
  List.map_append

@[simp] theorem length_upper (word : List Char) : (upper word).length = word.length :=
  List.length_map _

-----------------------------------------------------------------------------------------
-- Bytes
-----------------------------------------------------------------------------------------

def IsAscii (c : Char) : Prop :=
  c.toNat < 128

instance (c : Char) : Decidable (IsAscii c) :=
  inferInstanceAs (Decidable (c.toNat < 128))

def encode (text : List Char) : List UInt8 :=
  text.map fun c => UInt8.ofNat c.toNat

@[simp] theorem encode_append (first second : List Char)
    : encode (first ++ second) = encode first ++ encode second :=
  List.map_append

@[simp] theorem encode_cons (c : Char) (rest : List Char)
    : encode (c :: rest) = UInt8.ofNat c.toNat :: encode rest := rfl

@[simp] theorem encode_nil : encode [] = [] := rfl

/-- An ASCII text is given back by its bytes, character by character. -/
theorem text_encode {word : List Char} (ascii : ∀ c ∈ word, IsAscii c)
    : text (encode word) = String.ofList word := by
  have same : word.map ((fun byte : UInt8 => Char.ofNat byte.toNat)
      ∘ fun c : Char => UInt8.ofNat c.toNat) = word.map id := by
    refine List.map_congr_left fun c member => ?_
    have small : c.toNat < UInt8.size := Nat.lt_of_lt_of_le (ascii c member) (by decide)
    simp [UInt8.toNat_ofNat_of_lt' small]
  rw [text, encode, List.map_map, same, List.map_id]

theorem utf8EncodeChar_of_isAscii {c : Char} (ascii : IsAscii c)
    : String.utf8EncodeChar c = [UInt8.ofNat c.toNat] :=
  if_pos (Nat.le_of_lt_succ ascii)

/-- A byte array listed from the end of what has been read, by induction on the rest. -/
theorem toList_loop (bytes : ByteArray) (index : Nat) (read : List UInt8)
    : ByteArray.toList.loop bytes index read
      = read.reverse ++ bytes.data.toList.drop index := by
  have length : bytes.data.toList.length = bytes.size := rfl
  induction remaining : bytes.size - index generalizing index read with
  | zero =>
      rw [ByteArray.toList.loop, if_neg (by omega), List.drop_eq_nil_of_le (by omega),
        List.append_nil]
  | succ count ih =>
      have inside : index < bytes.data.toList.length := by omega
      have next : bytes.get! index = bytes.data.toList[index] := by
        simp only [ByteArray.get!, Array.getElem_toList]
        exact getElem!_pos bytes.data index inside
      rw [ByteArray.toList.loop, if_pos (by omega), ih (index + 1) _ (by omega),
        List.drop_eq_getElem_cons inside, next]
      simp

/-- The UTF-8 bytes of an ASCII text are the codes of its characters. -/
theorem toUTF8_of_isAscii {text : String} (ascii : ∀ c ∈ text.toList, IsAscii c)
    : text.toUTF8.toList = encode text.toList := by
  have bytes : text.toList.flatMap String.utf8EncodeChar = encode text.toList := by
    rw [encode, ← List.flatMap_pure_eq_map]
    exact List.flatMap_congr fun c member => utf8EncodeChar_of_isAscii (ascii c member)
  rw [ByteArray.toList, toList_loop, List.reverse_nil, List.nil_append, List.drop_zero]
  have encoded : text.toUTF8 = text.toList.utf8Encode := String.utf8Encode_toList.symm
  rw [encoded, List.utf8Encode, bytes]
  simp

end Chiptune.Ascii
