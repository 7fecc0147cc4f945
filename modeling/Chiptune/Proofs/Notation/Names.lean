import Chiptune.Notation
import Chiptune.Proofs.Arithmetic
import Chiptune.Proofs.Scanning
import Chiptune.Statement

/-! The words that notation uses for numbers, pitches, lengths and labels. Each is one token, and
reading it gives back what it was written for.
-/

namespace Chiptune

open IntegerType
open Token (Lexeme)

-----------------------------------------------------------------------------------------
-- Words
-----------------------------------------------------------------------------------------

/-- Being a lexeme can be checked character by character. -/
theorem lexeme_iff {word : List Char}
    : Lexeme word
      ↔ word ≠ []
        ∧ (word.all fun c => 0x21 ≤ c.toNat && c.toNat ≤ 0x7e)
        ∧ word.count '/' ≤ 1 := by
  simp only [List.all_eq_true, Bool.and_eq_true, decide_eq_true_eq]
  exact ⟨fun ⟨nonempty, graphic, slashes⟩ => ⟨nonempty, graphic, slashes⟩,
    fun ⟨nonempty, graphic, slashes⟩ => ⟨nonempty, graphic, slashes⟩⟩

instance (word : List Char) : Decidable (Lexeme word) :=
  decidable_of_iff _ lexeme_iff.symm

/-- A text that is scanned as a word, and as no reserved word and no number. -/
structure IsWord (text : String) : Prop where
  lexeme : Lexeme text.toList
  kind : TokenKind.ofWord text = .word text

instance (text : String) : Decidable (IsWord text) :=
  decidable_of_iff (Lexeme text.toList ∧ TokenKind.ofWord text = .word text)
    ⟨fun ⟨lexeme, kind⟩ => ⟨lexeme, kind⟩, fun ⟨lexeme, kind⟩ => ⟨lexeme, kind⟩⟩

/-- A word with a digit in it is not reserved, because no reserved word has one. -/
theorem Keyword.ofWord?_of_isDigit {word : String} {digit : Char}
    (member : digit ∈ word.toList) (isDigit : digit.isDigit)
    : Keyword.ofWord? word = none := by
  refine List.find?_eq_none.mpr fun keyword _ same => ?_
  have raised : digit ∈ Ascii.upper word.toList :=
    Ascii.toUpper_of_isDigit isDigit ▸ List.mem_map_of_mem member
  rw [← beq_iff_eq.mp same] at raised
  have letters : keyword.spelling.toList.all (!·.isDigit) := by cases keyword <;> decide
  have letter := List.all_eq_true.mp letters digit raised
  simp [isDigit] at letter

theorem Ascii.number?_of_not_isDigit {bound : Nat} {word : List Char} {other : Char}
    (member : other ∈ word) (noDigit : other.isDigit = false)
    : number? bound word = none := by
  have : isDigits word = false := by
    rw [isDigits, Bool.and_eq_false_iff]
    exact .inr (List.all_eq_false.mpr ⟨other, member, by simp [noDigit]⟩)
  simp [number?, this]

/-- A lexeme with a digit and another character is a word. -/
theorem IsWord.of_mixed {text : String} {digit other : Char} (lexeme : Lexeme text.toList)
    (member : digit ∈ text.toList) (isDigit : digit.isDigit) (memberOther : other ∈ text.toList)
    (noDigit : other.isDigit = false)
    : IsWord text := by
  refine ⟨lexeme, ?_⟩
  simp only [TokenKind.ofWord, Keyword.ofWord?_of_isDigit member isDigit,
    Ascii.number?_of_not_isDigit memberOther noDigit]

-----------------------------------------------------------------------------------------
-- Numbers
-----------------------------------------------------------------------------------------

/-- Digits are printable, and none of them is a slash. -/
theorem printable_of_isDigit {c : Char} (isDigit : c.isDigit)
    : (0x21 ≤ c.toNat ∧ c.toNat ≤ 0x7e) ∧ c ≠ '/' := by
  have range := Char.isDigit_iff_toNat.mp isDigit
  have least : '0'.toNat = 48 := rfl
  have greatest : '9'.toNat = 57 := rfl
  refine ⟨by omega, ?_⟩
  rintro rfl
  exact absurd isDigit (by decide)

theorem exists_digit (value : Nat) : ∃ digit ∈ Nat.toDigits 10 value, digit.isDigit := by
  obtain ⟨digit, member⟩ := List.exists_mem_of_ne_nil _ (Nat.toDigits_ne_nil (n := value) (b := 10))
  exact ⟨digit, member, Ascii.isDigit_of_mem member⟩

@[simp] theorem count_slash_toDigits (value : Nat)
    : (Nat.toDigits 10 value).count '/' = 0 :=
  List.count_eq_zero.mpr fun member =>
    (printable_of_isDigit (Ascii.isDigit_of_mem member)).2 rfl

theorem Lexeme.of_digits {first last : List Char} (value : Nat)
    (printable : ∀ c ∈ first ++ last, 0x21 ≤ c.toNat ∧ c.toNat ≤ 0x7e)
    (slashes : (first ++ last).count '/' ≤ 1)
    : Lexeme (first ++ Nat.toDigits 10 value ++ last) where
  nonempty := by simp [Nat.toDigits_ne_nil]
  graphic c member := by
    simp only [List.mem_append] at member printable
    rcases member with (inFirst | digit) | inLast
    · exact printable c (.inl inFirst)
    · exact (printable_of_isDigit (Ascii.isDigit_of_mem digit)).1
    · exact printable c (.inr inLast)
  slashes := by simpa using slashes

theorem TokenKind.ofWord_toString (value : UInt32)
    : TokenKind.ofWord (toString value) = .number value := by
  obtain ⟨digit, member, isDigit⟩ := exists_digit value.toNat
  rw [← Ascii.toList_toString_uint32] at member
  simp only [TokenKind.ofWord, Keyword.ofWord?_of_isDigit member isDigit,
    Ascii.toList_toString_uint32, Ascii.number?_toDigits value.toNat_lt, UInt32.ofNat_toNat]

theorem lexeme_toString (value : UInt32) : Lexeme (toString value).toList := by
  rw [Ascii.toList_toString_uint32]
  have digits : Lexeme ([] ++ Nat.toDigits 10 value.toNat ++ []) :=
    Lexeme.of_digits value.toNat (by simp) (by simp)
  simpa using digits

-----------------------------------------------------------------------------------------
-- Pitches, lengths and labels
-----------------------------------------------------------------------------------------

/-- Each of the names of the ten octaves is a word that is read as its frequency, by evaluation. -/
theorem Pitch.table
    : ∀ semitone < 12, ∀ octave < maxOctave + 1,
        let name := semitoneNames.getD semitone "" ++ toString octave
        IsWord name ∧ parse? name = (frequency semitone octave).map some := by
  decide +kernel

theorem Pitch.parse?_of_name? {hertz : UInt32} {name : String} (named : name? hertz = some name)
    : IsWord name ∧ parse? name = .ok (some hertz) := by
  obtain ⟨octave, inTable, found⟩ := List.exists_of_findSome?_eq_some named
  obtain ⟨semitone, search, rfl⟩ := Option.map_eq_some_iff.mp found
  have same : (frequency semitone octave).toOption = some hertz := by
    simpa using List.find?_some search
  obtain ⟨isWord, read⟩ := table semitone (List.mem_range.mp (List.mem_of_find?_eq_some search))
    octave (List.mem_range.mp inTable)
  refine ⟨isWord, ?_⟩
  rw [read, Trap.toOption_eq_some_iff.mp same]
  rfl

theorem Length.dropEnd?_append (word ending : List Char)
    : dropEnd? ending (word ++ ending) = some word := by
  simp [dropEnd?]

theorem Length.dropEnd?_eq_some_iff {ending word rest : List Char}
    : dropEnd? ending word = some rest ↔ word = rest ++ ending := by
  constructor
  · intro dropped
    obtain ⟨suffix, same⟩ := Option.ite_none_right_eq_some.mp dropped
    obtain ⟨front, rfl⟩ := List.isSuffixOf_iff_suffix.mp suffix
    rw [← Option.some.inj same]
    simp
  · rintro rfl
    exact dropEnd?_append rest ending

/-- An ending with a character that a word lacks cannot be taken off it. -/
theorem Length.dropEnd?_eq_none {word ending : List Char} {c : Char} (member : c ∈ ending)
    (absent : c ∉ word)
    : dropEnd? ending word = none := by
  have noSuffix : ¬ending <:+ word := fun suffix => absent (suffix.subset member)
  simp [dropEnd?, noSuffix]

theorem Length.parse?_millis (count : UInt32)
    : IsWord (name (.millis count))
      ∧ parse? (name (.millis count)) = .ok (some (.millis count)) := by
  have text : (name (.millis count)).toList
      = [] ++ Nat.toDigits 10 count.toNat ++ ['m', 's'] := by
    simp [name, String.toList_append, Ascii.toList_toString_uint32]
  obtain ⟨digit, member, isDigit⟩ := exists_digit count.toNat
  have raised : Ascii.upper (name (.millis count)).toList
      = Nat.toDigits 10 count.toNat ++ ['M', 'S'] := by
    rw [text, List.nil_append, Ascii.upper_append, Ascii.upper_toDigits]
    rfl
  constructor
  · exact .of_mixed (text ▸ Lexeme.of_digits count.toNat (by simp) (by decide))
      (text ▸ by simp [member]) isDigit (text ▸ by simp) (by decide : 'm'.isDigit = false)
  · simp only [parse?, raised, dropEnd?_append, Ascii.number?_toDigits count.toNat_lt,
      Option.map_some, UInt32.ofNat_toNat]

/-- The length of the fraction `numerator / denominator`, without regard to types of integers. -/
def Length.fraction? (numerator denominator : Nat) : Option Length :=
  let scaled := numerator * ticksPerWhole
  if denominator = 0 || UInt64.size ≤ scaled || scaled % denominator ≠ 0
      || UInt32.size ≤ scaled / denominator then none
  else some (.ticks (UInt32.ofNat (scaled / denominator)))

theorem Length.quotient?_eq {scaled parts : Nat} (positive : 0 < parts)
    (scaledFits : scaled < UInt64.size) (partsFit : parts < UInt64.size)
    : quotient? scaled parts
      = .ok
        (if scaled % parts ≠ 0 || UInt32.size ≤ scaled / parts then none
        else some (.ticks (UInt32.ofNat (scaled / parts)))) := by
  have leftFits : scaled % parts < UInt64.size := Nat.lt_trans (Nat.mod_lt _ positive) partsFit
  have wholeFits : scaled / parts < UInt64.size :=
    Nat.lt_of_le_of_lt (Nat.div_le_self _ _) scaledFits
  rw [quotient?, rem_eq_ok positive ((holds_u64_iff _).mpr leftFits),
    div_eq_ok positive ((holds_u64_iff _).mpr wholeFits)]
  simp only [Trap.ok_bind]
  generalize scaled % parts = left, scaled / parts = whole
  rcases Nat.eq_zero_or_pos left with rfl | inexact
  · rcases Nat.lt_or_ge whole UInt32.size with few | many
    · simp [holds_u32_iff, few, pure, Except.pure]
    · simp [holds_u32_iff, many, pure, Except.pure]
  · simp [Nat.ne_of_gt inexact, pure, Except.pure]

/-- The divisor is not zero and the product is one that its type holds, where it is divided. -/
theorem Length.parseFraction?_eq (numerator denominator : List Char)
    : parseFraction? numerator denominator
      = .ok
        ((Ascii.number? UInt64.size numerator).bind fun count =>
          (Ascii.number? UInt64.size denominator).bind fun parts => fraction? count parts) := by
  unfold parseFraction?
  cases Ascii.number? UInt64.size numerator with
  | none => rfl
  | some count =>
      cases read : Ascii.number? UInt64.size denominator with
      | none => rfl
      | some parts =>
          obtain ⟨-, -, small⟩ := Ascii.number?_eq_some_iff.mp read
          simp only [Option.bind_some, fraction?]
          rcases Nat.eq_zero_or_pos parts with rfl | positive
          · rfl
          have nonzero : parts ≠ 0 := Nat.ne_of_gt positive
          rw [if_neg nonzero]
          rcases Nat.lt_or_ge (count * ticksPerWhole) UInt64.size with fits | tooGreat
          · rw [mul_eq_ok ((holds_u64_iff _).mpr fits)]
            dsimp only [Except.toOption]
            rw [quotient?_eq positive fits small]
            simp [nonzero, Nat.not_le.mpr fits]
          · have trapped : u64.mul count ticksPerWhole
                = .error (.outOfRange .u64 (count * ticksPerWhole)) := by
              apply if_neg
              rw [← Int.natCast_mul, holds_u64_iff]
              exact Nat.not_lt.mpr tooGreat
            rw [trapped]
            simp [tooGreat, Except.toOption]

/-- What a fraction has to satisfy to stand for a number of ticks. -/
theorem Length.parseFraction?_eq_some_iff {numerator denominator : List Char} {length : Length}
    : parseFraction? numerator denominator = .ok (some length)
      ↔ ∃ count : UInt32,
          length = .ticks count
          ∧ Ascii.isDigits numerator
          ∧ Ascii.isDigits denominator
          ∧ 0 < Ascii.digitsValue denominator
          ∧ Ascii.digitsValue denominator < UInt64.size
          ∧ Ascii.digitsValue numerator * ticksPerWhole < UInt64.size
          ∧ count.toNat * Ascii.digitsValue denominator
            = Ascii.digitsValue numerator * ticksPerWhole := by
  rw [parseFraction?_eq, Except.ok.injEq]
  constructor
  · intro parsed
    simp only [Option.bind_eq_some_iff] at parsed
    obtain ⟨count, number, parts, numberToo, result⟩ := parsed
    obtain ⟨isDigits, rfl, -⟩ := Ascii.number?_eq_some_iff.mp number
    obtain ⟨areDigits, rfl, small⟩ := Ascii.number?_eq_some_iff.mp numberToo
    obtain ⟨fits, same⟩ := Option.ite_none_left_eq_some.mp result
    simp only [Bool.or_eq_true, decide_eq_true_eq, not_or, Nat.not_le, Decidable.not_not]
      at fits
    obtain ⟨⟨⟨nonzero, scaledSmall⟩, divides⟩, ticksSmall⟩ := fits
    refine ⟨_, (Option.some.inj same).symm, isDigits, areDigits, Nat.pos_of_ne_zero nonzero,
      small, scaledSmall, ?_⟩
    rw [UInt32.toNat_ofNat_of_lt' ticksSmall]
    exact Nat.div_mul_cancel (Nat.dvd_of_mod_eq_zero divides)
  · rintro ⟨count, rfl, isDigits, areDigits, positive, small, scaledSmall, same⟩
    have numberSmall : Ascii.digitsValue numerator < UInt64.size :=
      Nat.lt_of_le_of_lt (Nat.le_mul_of_pos_right _ (by decide)) scaledSmall
    have number := Ascii.number?_eq_some_iff.mpr ⟨isDigits, rfl, numberSmall⟩
    have numberToo := Ascii.number?_eq_some_iff.mpr ⟨areDigits, rfl, small⟩
    have quotient
        : Ascii.digitsValue numerator * ticksPerWhole / Ascii.digitsValue denominator
          = count.toNat := by
      rw [← same, Nat.mul_div_cancel _ positive]
    have remainder
        : Ascii.digitsValue numerator * ticksPerWhole % Ascii.digitsValue denominator = 0 := by
      rw [← same, Nat.mul_mod_left]
    simp only [fraction?, number, numberToo, Option.bind_some, quotient, remainder,
      UInt32.ofNat_toNat]
    apply if_neg
    simp [Nat.ne_of_gt positive, scaledSmall, count.toNat_lt]

/-- A fraction in lowest terms of a whole note stands for the ticks that it was made from. -/
theorem Length.parseFraction?_reduced (count : UInt32)
    : parseFraction? (Nat.toDigits 10 (count.toNat / count.toNat.gcd ticksPerWhole))
        (Nat.toDigits 10 (ticksPerWhole / count.toNat.gcd ticksPerWhole))
      = .ok (some (.ticks count)) := by
  have bound : count.toNat < UInt32.size := count.toNat_lt
  have positive : 0 < count.toNat.gcd ticksPerWhole := Nat.gcd_pos_of_pos_right _ (by decide)
  have countEq := Nat.div_mul_cancel (Nat.gcd_dvd_left count.toNat ticksPerWhole)
  have wholeEq := Nat.div_mul_cancel (Nat.gcd_dvd_right count.toNat ticksPerWhole)
  have lowerPositive : 0 < ticksPerWhole / count.toNat.gcd ticksPerWhole :=
    Nat.div_pos (Nat.gcd_le_right _ (by decide)) positive
  generalize count.toNat.gcd ticksPerWhole = divisor at *
  generalize count.toNat / divisor = upper at *
  generalize ticksPerWhole / divisor = lower at *
  have upperLe : upper ≤ count.toNat := countEq ▸ Nat.le_mul_of_pos_right _ positive
  have lowerLe : lower ≤ ticksPerWhole := wholeEq ▸ Nat.le_mul_of_pos_right _ positive
  have whole : ticksPerWhole = 3840 := rfl
  -- The product is taken in 64 bits, which is enough for a word times the ticks of a whole note.
  have sizes : UInt32.size * 3840 < UInt64.size := by decide
  have scaledSmall : upper * ticksPerWhole < UInt64.size :=
    Nat.lt_of_le_of_lt
      (Nat.mul_le_mul (Nat.le_trans upperLe (Nat.le_of_lt bound)) (Nat.le_of_eq whole)) sizes
  have value (number : Nat) : Ascii.digitsValue (Nat.toDigits 10 number) = number :=
    Nat.ofDigitChars_ten_toDigits
  apply parseFraction?_eq_some_iff.mpr
  refine ⟨count, rfl, Ascii.isDigits_toDigits _, Ascii.isDigits_toDigits _, ?_⟩
  rw [value, value]
  refine ⟨lowerPositive, by omega, scaledSmall, ?_⟩
  rw [← countEq, ← wholeEq]
  ac_rfl

/-- Each of the six letters, with and without a dot, is a word that is read as its ticks, by
evaluation.
-/
theorem Length.letterTable
    : ∀ entry ∈ letters,
        let plain := String.singleton entry.1
        let withDot := String.ofList [entry.1, '.']
        (IsWord plain ∧ parse? plain = .ok (some (.ticks (UInt32.ofNat entry.2))))
        ∧ (IsWord withDot
          ∧ parse? withDot = .ok (some (.ticks (UInt32.ofNat (dotted entry.2))))) := by
  decide +kernel

theorem Length.parse?_letterName? {count : UInt32} {word : String}
    (named : letterName? count.toNat = some word)
    : IsWord word ∧ parse? word = .ok (some (.ticks count)) := by
  obtain ⟨⟨letter, whole⟩, inTable, found⟩ := List.exists_of_findSome?_eq_some named
  obtain ⟨plain, withDot⟩ := letterTable (letter, whole) inTable
  dsimp only at found plain withDot
  split at found
  · next same =>
      rw [← same, UInt32.ofNat_toNat] at plain
      exact Option.some.inj found ▸ plain
  · split at found
    · next same =>
        rw [← same, UInt32.ofNat_toNat] at withDot
        exact Option.some.inj found ▸ withDot
    · cases found

/-- A word with one slash between digits is read as a fraction, because it does not end with the
unit of milliseconds.
-/
theorem Length.parse?_of_fraction {word : String} {numerator denominator : List Char}
    (text : Ascii.upper word.toList = numerator ++ '/' :: denominator)
    (isDigits : Ascii.isDigits numerator) (areDigits : Ascii.isDigits denominator)
    : parse? word = parseFraction? numerator denominator := by
  have noMillis : dropEnd? ['M', 'S'] (numerator ++ '/' :: denominator) = none := by
    refine dropEnd?_eq_none (c := 'S') (by simp) fun member => ?_
    rcases List.mem_append.mp member with first | later
    · exact Ascii.notMem_of_isDigits isDigits rfl first
    · rcases List.mem_cons.mp later with slash | second
      · exact absurd slash (by decide)
      · exact Ascii.notMem_of_isDigits areDigits rfl second
  have noSlash : ∀ c ∈ numerator, (c != '/') = true := by
    intro c member
    refine bne_iff_ne.mpr ?_
    rintro rfl
    exact Ascii.notMem_of_isDigits isDigits rfl member
  simp only [parse?, text, noMillis, List.dropWhile_append_of_pos noSlash,
    List.takeWhile_append_of_pos noSlash]
  simp

theorem Length.parse?_fraction (numerator denominator : Nat)
    : parse? (toString numerator ++ "/" ++ toString denominator)
      = parseFraction? (Nat.toDigits 10 numerator) (Nat.toDigits 10 denominator) := by
  apply parse?_of_fraction
  · simp only [String.toList_append, Ascii.toList_toString, Ascii.upper_append,
      Ascii.upper_toDigits, List.append_assoc]
    rfl
  · exact Ascii.isDigits_toDigits numerator
  · exact Ascii.isDigits_toDigits denominator

theorem Length.isWord_fraction (numerator denominator : Nat)
    : IsWord (toString numerator ++ "/" ++ toString denominator) := by
  have text : (toString numerator ++ "/" ++ toString denominator).toList
      = Nat.toDigits 10 numerator ++ '/' :: Nat.toDigits 10 denominator := by
    simp [String.toList_append]
  have printable {value : Nat} {c : Char} (member : c ∈ Nat.toDigits 10 value) :=
    (printable_of_isDigit (Ascii.isDigit_of_mem member)).1
  obtain ⟨digit, member, isDigit⟩ := exists_digit numerator
  refine .of_mixed ⟨text ▸ by simp, fun c inText => ?_, text ▸ by simp⟩ (text ▸ by simp [member])
    isDigit (text ▸ by simp) (by decide : '/'.isDigit = false)
  simp only [text, List.mem_append, List.mem_cons] at inText
  rcases inText with first | rfl | second
  · exact printable first
  · decide
  · exact printable second

/-- The name of a length is a word that is read as the length. -/
theorem Length.parse?_name (length : Length)
    : IsWord length.name ∧ parse? length.name = .ok (some length) := by
  cases length with
  | millis count => exact parse?_millis count
  | ticks count =>
      cases named : letterName? count.toNat with
      | some word => simpa only [name, named] using parse?_letterName? named
      | none =>
          simp only [name, named, parse?_fraction, parseFraction?_reduced, and_true]
          exact isWord_fraction _ _

/-- The name of a label is a word that can name a label. -/
theorem Notation.labelName_isWord (target : Nat)
    : IsWord (labelName target) ∧ Statement.isLabelName (labelName target) := by
  have text : (labelName target).toList = ['L'] ++ Nat.toDigits 10 target ++ [] := by
    simp [labelName, String.toList_append]
  obtain ⟨digit, member, isDigit⟩ := exists_digit target
  constructor
  · refine .of_mixed (text ▸ Lexeme.of_digits target (by simp) (by decide))
      (text ▸ by simp [member]) isDigit (text ▸ by simp) (by decide : 'L'.isDigit = false)
  · have digits : ∀ c ∈ Nat.toDigits 10 target, c.isDigit := fun c => Ascii.isDigit_of_mem
    simp only [Statement.isLabelName, text, List.append_nil, List.singleton_append,
      Bool.and_eq_true, List.all_eq_true, Bool.or_eq_true]
    exact ⟨by decide, fun c member => .inl (.inl (by simp [Char.isAlphanum, digits c member]))⟩

/-- Labels with different targets have different names. -/
theorem Notation.labelName_injective {first second : Nat}
    (same : labelName first = labelName second)
    : first = second := by
  have texts := congrArg String.toList same
  simp only [labelName, String.toList_append, Ascii.toList_toString, List.append_cancel_left_eq]
    at texts
  rw [← Nat.ofDigitChars_ten_toDigits (n := first), texts, Nat.ofDigitChars_ten_toDigits]

end Chiptune
