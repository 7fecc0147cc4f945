import Chiptune.Proofs.Notation.Names

/-! The words that stand for lengths. A word is a number of milliseconds, a letter for a part of a
whole note, which a dot makes half as long again, or a fraction of a whole note. Each length has a
name that is read as it, and no word for it is shorter than its name.
-/

namespace Chiptune.Length

-----------------------------------------------------------------------------------------
-- Spellings
-----------------------------------------------------------------------------------------

/-- The letters of lengths, and the ticks that they stand for. -/
def noteValues : List (Char × Nat) :=
  [('W', 3840), ('H', 1920), ('Q', 960), ('E', 480), ('S', 240), ('T', 120)]

/-- The word, with its letters raised, is written like this for the length. -/
inductive Spells (word : String) : Length → Prop
  | millis {digits : List Char} {count : UInt32}
    (text : Ascii.upper word.toList = digits ++ ['M', 'S']) (isDigits : Ascii.isDigits digits)
    (value : Ascii.digitsValue digits = count.toNat)
    : Spells word (.millis count)
  | letter {letter : Char} {count : UInt32} (text : Ascii.upper word.toList = [letter])
    (inTable : (letter, count.toNat) ∈ noteValues)
    : Spells word (.ticks count)
  | dotted {letter : Char} {plain : Nat} {count : UInt32}
    (text : Ascii.upper word.toList = [letter, '.']) (inTable : (letter, plain) ∈ noteValues)
    (longer : 2 * count.toNat = 3 * plain)
    : Spells word (.ticks count)
  /-- The part of a whole note is a whole number of ticks, and the product that is divided fits in
  64 bits.
  -/
  | fraction {numerator denominator : List Char} {count : UInt32}
    (text : Ascii.upper word.toList = numerator ++ '/' :: denominator)
    (isDigits : Ascii.isDigits numerator) (areDigits : Ascii.isDigits denominator)
    (positive : 0 < Ascii.digitsValue denominator)
    (small : Ascii.digitsValue denominator < UInt64.size)
    (scaledSmall : Ascii.digitsValue numerator * 3840 < UInt64.size)
    (same : count.toNat * Ascii.digitsValue denominator = Ascii.digitsValue numerator * 3840)
    : Spells word (.ticks count)

/-- Each letter is a capital, and its ticks are even and few, by evaluation. -/
theorem letters_spec
    : ∀ entry ∈ letters,
        entry.1.toUpper = entry.1
        ∧ 2 * dotted entry.2 = 3 * entry.2
        ∧ entry.2 ≤ ticksPerWhole := by
  decide

theorem eq_of_dotted {plain count : Nat} (longer : 2 * count = 3 * plain)
    : dotted plain = count := by
  unfold dotted
  omega

theorem parseLetter?_eq_some_iff {word : List Char} {ticks : Nat}
    : parseLetter? word = some ticks ↔ ∃ letter, word = [letter] ∧ (letter, ticks) ∈ letters := by
  constructor
  · intro parsed
    unfold parseLetter? at parsed
    split at parsed
    · next letter =>
      obtain ⟨before, after, table, -⟩ := List.lookup_eq_some_iff.mp parsed
      exact ⟨letter, rfl, table ▸ List.mem_append_right before List.mem_cons_self⟩
    · cases parsed
  · rintro ⟨letter, rfl, inTable⟩
    have table : ∀ entry ∈ letters, letters.lookup entry.1 = some entry.2 := by decide
    exact table (letter, ticks) inTable

theorem eq_append_of_dropWhile {word rest : List Char} {first : Char}
    (dropped : word.dropWhile (· != '/') = first :: rest)
    : word = word.takeWhile (· != '/') ++ '/' :: rest := by
  have stops := List.head?_dropWhile_not (· != '/') word
  simp only [dropped, List.head?_cons] at stops
  obtain rfl : first = '/' := by simpa using stops
  rw [← dropped, List.takeWhile_append_dropWhile]

/-- The ticks of the letters are small enough to be dotted, by a look at each of them. -/
theorem lengthen_eq {word : List Char} {whole : Nat} (letter : parseLetter? word = some whole)
    : lengthen whole = .ok (.ticks (UInt32.ofNat (dotted whole))) := by
  obtain ⟨name, -, inTable⟩ := parseLetter?_eq_some_iff.mp letter
  have table
      : ∀ entry ∈ letters, lengthen entry.2 = .ok (.ticks (UInt32.ofNat (dotted entry.2))) := by
    decide +kernel
  exact table (name, whole) inTable

/-- Reading a length comes to no operation without a result, by cases on the form that is tried. -/
theorem exists_parse?_eq (word : String) : ∃ length?, parse? word = .ok length? := by
  unfold parse?
  dsimp only
  split
  · exact ⟨_, rfl⟩
  · split
    · exact ⟨_, parseFraction?_eq _ _⟩
    · split
      · split
        · exact ⟨none, rfl⟩
        · next whole letter =>
          rw [lengthen_eq letter]
          exact ⟨_, rfl⟩
      · exact ⟨_, rfl⟩

/-- A word that is read as a length spells it, by cases on the form that is tried. -/
theorem spells_of_parse? {word : String} {length : Length}
    (parsed : parse? word = .ok (some length))
    : Spells word length := by
  have fits {ticks : Nat} (few : ticks ≤ ticksPerWhole + ticksPerWhole)
      : (UInt32.ofNat ticks).toNat = ticks :=
    UInt32.toNat_ofNat_of_lt' (Nat.lt_of_le_of_lt few (by decide))
  simp only [parse?] at parsed
  split at parsed
  · next digits unit =>
    obtain ⟨value, number, rfl⟩ := Option.map_eq_some_iff.mp (Except.ok.inj parsed)
    obtain ⟨isDigits, same, small⟩ := Ascii.number?_eq_some_iff.mp number
    apply Spells.millis (dropEnd?_eq_some_iff.mp unit) isDigits
    rw [same, UInt32.toNat_ofNat_of_lt' small]
  · split at parsed
    · next first denominator rest =>
      obtain ⟨count, rfl, isDigits, areDigits, positive, small, scaledSmall, same⟩ :=
        parseFraction?_eq_some_iff.mp parsed
      exact .fraction (eq_append_of_dropWhile rest) isDigits areDigits positive small scaledSmall
        same
    · split at parsed
      · next name dot =>
        split at parsed
        · cases parsed
        · next plain found =>
          rw [lengthen_eq found] at parsed
          cases parsed
          obtain ⟨letter, rfl, inTable⟩ := parseLetter?_eq_some_iff.mp found
          obtain ⟨-, longer, few⟩ := letters_spec _ inTable
          dsimp only at longer few
          apply Spells.dotted (dropEnd?_eq_some_iff.mp dot) inTable
          rw [fits (by omega)]
          exact longer
      · next =>
        obtain ⟨plain, found, rfl⟩ := Option.map_eq_some_iff.mp (Except.ok.inj parsed)
        obtain ⟨letter, text, inTable⟩ := parseLetter?_eq_some_iff.mp found
        obtain ⟨-, -, few⟩ := letters_spec _ inTable
        apply Spells.letter text
        rw [fits (Nat.le_add_right_of_le few)]
        exact inTable

/-- The case of letters does not matter. -/
theorem parse?_congr {word other : String}
    (same : Ascii.upper word.toList = Ascii.upper other.toList)
    : parse? word = parse? other := by
  simp only [parse?, same]

/-- No form of a length is taken for another one, by cases on the form. -/
theorem Spells.parse? {word : String} {length : Length} (spells : Spells word length)
    : parse? word = .ok (some length) := by
  cases spells with
  | @millis digits count text isDigits value =>
      have number := Ascii.number?_eq_some_iff.mpr ⟨isDigits, value, count.toNat_lt⟩
      simp only [Length.parse?, text, dropEnd?_append]
      rw [number, Option.map_some, UInt32.ofNat_toNat]
  | @letter letter count text inTable =>
      obtain ⟨capital, -⟩ := letters_spec (letter, _) inTable
      obtain ⟨⟨-, parsed⟩, -⟩ := letterTable (letter, _) inTable
      have same : Ascii.upper word.toList = Ascii.upper (String.singleton letter).toList := by
        rw [text]
        simp [Ascii.upper, capital]
      rw [parse?_congr same, parsed, UInt32.ofNat_toNat]
  | @dotted letter plain count text inTable longer =>
      obtain ⟨capital, -⟩ := letters_spec (letter, _) inTable
      obtain ⟨-, -, parsed⟩ := letterTable (letter, _) inTable
      have same : Ascii.upper word.toList = Ascii.upper (String.ofList [letter, '.']).toList := by
        rw [text]
        simp [Ascii.upper, capital]
      rw [parse?_congr same, parsed, eq_of_dotted longer, UInt32.ofNat_toNat]
  | fraction text isDigits areDigits positive small scaledSmall same =>
      rw [parse?_of_fraction text isDigits areDigits]
      exact parseFraction?_eq_some_iff.mpr
        ⟨_, rfl, isDigits, areDigits, positive, small, scaledSmall, same⟩

/-- A word is read as the length that it spells, and as none if it spells none. -/
theorem parse?_iff_spells (word : String) (length : Length)
    : (parse? word = .ok (some length) ↔ Spells word length)
      ∧ (parse? word = .ok none ↔ ∀ other, ¬Spells word other) := by
  have reads (other : Length) : parse? word = .ok (some other) ↔ Spells word other :=
    ⟨spells_of_parse?, Spells.parse?⟩
  refine ⟨reads length, ?_⟩
  obtain ⟨length?, parsed⟩ := exists_parse?_eq word
  simp only [← reads, parsed, Except.ok.injEq]
  exact Option.eq_none_iff_forall_ne_some

-----------------------------------------------------------------------------------------
-- The shortest spelling
-----------------------------------------------------------------------------------------

/-- A fraction has no smaller parts than the equal one in lowest terms. -/
theorem reduced_le {count whole numerator denominator : Nat} (nonempty : 0 < whole)
    (positive : 0 < denominator) (same : count * denominator = numerator * whole)
    : count / count.gcd whole ≤ numerator ∧ whole / count.gcd whole ≤ denominator := by
  have divisorPositive : 0 < count.gcd whole := Nat.gcd_pos_of_pos_right _ nonempty
  have coprime := Nat.coprime_div_gcd_div_gcd divisorPositive
  have countEq := Nat.div_mul_cancel (Nat.gcd_dvd_left count whole)
  have wholeEq := Nat.div_mul_cancel (Nat.gcd_dvd_right count whole)
  generalize count.gcd whole = divisor at *
  generalize count / divisor = upper at *
  generalize whole / divisor = lower at *
  have cross : upper * denominator = numerator * lower := by
    apply Nat.eq_of_mul_eq_mul_right divisorPositive
    calc
      upper * denominator * divisor = upper * divisor * denominator := by ac_rfl
      _ = numerator * whole := by rw [countEq, same]
      _ = numerator * lower * divisor := by rw [← wholeEq, Nat.mul_assoc]
  have lowerLe : lower ≤ denominator := by
    apply Nat.le_of_dvd positive
    apply coprime.symm.dvd_of_dvd_mul_left
    exact ⟨numerator, by rw [cross, Nat.mul_comm]⟩
  refine ⟨?_, lowerLe⟩
  apply Nat.le_of_mul_le_mul_right _ positive
  rw [cross]
  exact Nat.mul_le_mul_left numerator lowerLe

/-- The names of the ticks of each letter, without and with a dot, by evaluation. -/
theorem letterName?_letters
    : ∀ entry ∈ letters,
        letterName? entry.2 = some (String.singleton entry.1)
        ∧ letterName? (dotted entry.2) = some (String.ofList [entry.1, '.']) := by
  decide

theorem length_letterName?_le {ticks : Nat} {word : String}
    (named : letterName? ticks = some word)
    : word.length ≤ 2 := by
  obtain ⟨⟨letter, whole⟩, -, found⟩ := List.exists_of_findSome?_eq_some named
  dsimp only at found
  split at found
  · cases found
    simp
  · obtain ⟨-, same⟩ := Option.ite_none_right_eq_some.mp found
    cases same
    exact Nat.le_of_eq String.length_ofList

/-- The name of ticks is a letter, or else the fraction in lowest terms. -/
theorem length_name_ticks_le {count : UInt32} {numerator denominator : List Char}
    (isDigits : Ascii.isDigits numerator) (areDigits : Ascii.isDigits denominator)
    (positive : 0 < Ascii.digitsValue denominator)
    (same
      : count.toNat * Ascii.digitsValue denominator
        = Ascii.digitsValue numerator * ticksPerWhole)
    : (name (.ticks count)).length ≤ numerator.length + 1 + denominator.length := by
  have nonempty {digits : List Char} (only : Ascii.isDigits digits) : 1 ≤ digits.length := by
    apply List.length_pos_iff.mpr
    rintro rfl
    cases only
  cases named : letterName? count.toNat with
  | some word =>
      have short := length_letterName?_le named
      have first := nonempty isDigits
      have second := nonempty areDigits
      simp only [name, named]
      omega
  | none =>
      obtain ⟨upper, lower⟩ := reduced_le (by decide) positive same
      have first := Ascii.length_toDigits_le isDigits upper
      have second := Ascii.length_toDigits_le areDigits lower
      simp only [name, named, String.length_append, Ascii.length_toString]
      exact Nat.add_le_add (Nat.add_le_add_right first 1) second

/-- No word for a length is shorter than its name, by cases on the form of the word. -/
theorem Spells.length_name_le {word : String} {length : Length} (spells : Spells word length)
    : length.name.length ≤ word.length := by
  rw [← String.length_toList (s := word), ← Ascii.length_upper]
  cases spells with
  | millis text isDigits value =>
      have short := Ascii.length_toDigits_le isDigits (Nat.le_of_eq value.symm)
      rw [text, List.length_append, name, String.length_append, Ascii.length_toString_uint32]
      exact Nat.add_le_add_right short 2
  | @letter letter _ text inTable =>
      obtain ⟨named, -⟩ := letterName?_letters (letter, _) inTable
      simp only [text, name, named]
      exact Nat.le_of_eq String.length_singleton
  | @dotted letter _ _ text inTable longer =>
      obtain ⟨-, named⟩ := letterName?_letters (letter, _) inTable
      rw [eq_of_dotted longer] at named
      simp only [text, name, named]
      exact Nat.le_of_eq String.length_ofList
  | fraction text isDigits areDigits positive _ _ same =>
      have short := length_name_ticks_le isDigits areDigits positive same
      rw [text, List.length_append, List.length_cons]
      omega

/-- The name of a length is read as it, and so is no shorter word. -/
theorem name_shortest (length : Length)
    : parse? length.name = .ok (some length)
      ∧ ∀ word, parse? word = .ok (some length) → length.name.length ≤ word.length := by
  refine ⟨(parse?_name length).2, ?_⟩
  intro word parsed
  exact (spells_of_parse? parsed).length_name_le

/-- The twelfth part of a whole note has a longer word than its name. -/
theorem name_shortest_fraction
    : let length : Length := .ticks 320
      length.name = "1/12"
      ∧ parse? "004/48" = .ok (some length)
      ∧ length.name.length ≤ "004/48".length := by
  intro length
  have parsed : parse? "004/48" = .ok (some length) := by decide +kernel
  obtain ⟨-, shortest⟩ := name_shortest length
  exact ⟨by decide +kernel, parsed, shortest "004/48" parsed⟩

end Chiptune.Length
