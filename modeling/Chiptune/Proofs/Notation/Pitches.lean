import Chiptune.Proofs.Notation.Names
import Mathlib.Algebra.Group.Nat.Defs

/-! The words that name pitches. A word is spelled with a letter, an accidental and the digits of an
octave, and the spelling means a semitone in one of the ten octaves. The octave is not limited as it
is written but as it is meant, so that one semitone has a spelling with an octave above the highest.
-/

namespace Chiptune.Pitch

open IntegerType

-----------------------------------------------------------------------------------------
-- Letters
-----------------------------------------------------------------------------------------

/-- The letters of notes in either case, with the semitones from C up to them. -/
def letters : List (Char × Nat) :=
  [('C', 0), ('c', 0), ('D', 2), ('d', 2), ('E', 4), ('e', 4), ('F', 5), ('f', 5), ('G', 7),
    ('g', 7), ('A', 9), ('a', 9), ('B', 11), ('b', 11)]

/-- A character that is raised to a letter is that letter or the small one of it. -/
theorem eq_or_eq_of_toUpper {c letter : Char} (raised : c.toUpper = letter)
    : c = letter ∨ c = Char.ofNat (letter.toNat + 32) := by
  unfold Char.toUpper at raised
  split at raised
  · next small =>
    have least : 97 ≤ c.val.toNat := UInt32.le_iff_toNat_le.mp small.1
    have greatest : c.val.toNat ≤ 122 := UInt32.le_iff_toNat_le.mp small.2
    have distance : ('A'.val - 'a'.val).toNat = UInt32.size - 32 := rfl
    have lowered : (c.val + ('A'.val - 'a'.val)).toNat + 32 = c.val.toNat := by
      rw [UInt32.toNat_add, distance, UInt32.size]
      omega
    right
    rw [← raised]
    exact ((congrArg Char.ofNat lowered).trans (Char.ofNat_toNat c)).symm
  · exact .inl raised

theorem letterSemitone?_eq_some_iff {letter : Char} {semitone : Nat}
    : letterSemitone? letter = some semitone ↔ (letter, semitone) ∈ letters := by
  constructor
  · intro named
    unfold letterSemitone? at named
    split at named <;> cases named
    all_goals
      next raised => rcases eq_or_eq_of_toUpper raised with rfl | rfl <;> decide
  · have table : ∀ entry ∈ letters, letterSemitone? entry.1 = some entry.2 := by decide
    exact table (letter, semitone)

-----------------------------------------------------------------------------------------
-- Spellings
-----------------------------------------------------------------------------------------

/-- How an accidental is written. -/
def Accidental.mark : Accidental → List Char
  | .natural => []
  | .sharp => ['#']
  | .flat => ['b']

/-- The word consists of the letter, the mark of the accidental and the digits of the octave. -/
def Spells (word : String) (spelling : Spelling) : Prop :=
  ∃ letter digits,
    (letter, spelling.letter) ∈ letters
    ∧ word.toList = letter :: (spelling.accidental.mark ++ digits)
    ∧ Ascii.isDigits digits
    ∧ Ascii.digitsValue digits = spelling.octave

namespace Spelling

theorem mark_accidentalOf (rest : List Char)
    : (accidentalOf rest).1.mark ++ (accidentalOf rest).2 = rest := by
  unfold accidentalOf
  split <;> rfl

/-- Digits begin with no mark, so the mark in front of them is found, by cases on the accidental. -/
theorem accidentalOf_mark (accidental : Accidental) {digits : List Char}
    (isDigits : Ascii.isDigits digits)
    : accidentalOf (accidental.mark ++ digits) = (accidental, digits) := by
  cases accidental with
  | sharp | flat => rfl
  | natural =>
      cases digits with
      | nil => cases isDigits
      | cons first others =>
          have isDigit : first.isDigit := by
            simp only [Ascii.isDigits, List.all_cons, Bool.and_eq_true] at isDigits
            exact isDigits.2.1
          rw [Accidental.mark, List.nil_append]
          unfold accidentalOf
          split
          · next same => cases same; cases isDigit
          · next same => cases same; cases isDigit
          · rfl

theorem ofWord?_eq_some_iff {word : String} {spelling : Spelling}
    : ofWord? word = some spelling ↔ Spells word spelling ∧ spelling.octave < octaveBound := by
  constructor
  · intro parsed
    unfold ofWord? at parsed
    split at parsed
    · cases parsed
    · next letter rest text =>
      split at parsed
      · cases parsed
      · next semitone named =>
        obtain ⟨octave, number, rfl⟩ := Option.map_eq_some_iff.mp parsed
        obtain ⟨isDigits, value, small⟩ := Ascii.number?_eq_some_iff.mp number
        refine ⟨⟨letter, _, letterSemitone?_eq_some_iff.mp named, ?_, isDigits, value⟩, small⟩
        exact text.trans (congrArg (letter :: ·) (mark_accidentalOf rest).symm)
  · rintro ⟨⟨letter, digits, named, text, isDigits, value⟩, small⟩
    have number : Ascii.number? octaveBound digits = some spelling.octave :=
      Ascii.number?_eq_some_iff.mpr ⟨isDigits, value, small⟩
    simp only [ofWord?, text, letterSemitone?_eq_some_iff.mpr named,
      accidentalOf_mark _ isDigits, number, Option.map_some]

end Spelling

/-- A word has one spelling, because it is read as it. -/
theorem Spells.unique {word : String} {first second : Spelling} (spells : Spells word first)
    (spellsToo : Spells word second) (small : first.octave < Spelling.octaveBound)
    (smallToo : second.octave < Spelling.octaveBound)
    : first = second :=
  Option.some.inj ((Spelling.ofWord?_eq_some_iff.mpr ⟨spells, small⟩).symm.trans
    (Spelling.ofWord?_eq_some_iff.mpr ⟨spellsToo, smallToo⟩))

-----------------------------------------------------------------------------------------
-- Frequencies
-----------------------------------------------------------------------------------------

/-- The spelling means a semitone of an octave: from C of the lowest octave it is as far up as the
octave that is written, the letter and the accidental lead together.
-/
def Spelling.Means (spelling : Spelling) (semitone octave : Nat) : Prop :=
  semitone < 12
  ∧ (12 * octave + semitone : Int)
    = 12 * spelling.octave + spelling.letter + spelling.accidental.shift

/-- A semitone of the fourth octave, doubled for every octave above it, or halved for every octave
below it and rounded to the nearest number, has this frequency. Halves are rounded up.
-/
def Sounds (semitone octave hertz : Nat) : Prop :=
  let base := octaveFour.getD semitone 0
  if 4 ≤ octave then hertz = base * 2 ^ (octave - 4)
  else
    let parts := 2 ^ (4 - octave)
    (2 * hertz - 1) * parts ≤ 2 * base ∧ 2 * base < (2 * hertz + 1) * parts

instance (semitone octave hertz : Nat) : Decidable (Sounds semitone octave hertz) :=
  inferInstanceAs (Decidable (if 4 ≤ octave then _ else _))

theorem Sounds.unique {semitone octave first second : Nat} (sounds : Sounds semitone octave first)
    (soundsToo : Sounds semitone octave second)
    : first = second := by
  have least {hertz other parts base : Nat} (low : (2 * hertz - 1) * parts ≤ 2 * base)
      (high : 2 * base < (2 * other + 1) * parts)
      : hertz ≤ other := by
    have between : 2 * hertz - 1 < 2 * other + 1 :=
      Nat.lt_of_mul_lt_mul_right (Nat.lt_of_le_of_lt low high)
    omega
  simp only [Sounds] at sounds soundsToo
  split at sounds
  · next above =>
    rw [if_pos above] at soundsToo
    exact sounds.trans soundsToo.symm
  · next below =>
    rw [if_neg below] at soundsToo
    exact Nat.le_antisymm (least sounds.1 soundsToo.2) (least soundsToo.1 sounds.2)

/-- Each of the semitones of the ten octaves has its frequency, by evaluation. -/
theorem frequency_spec {semitone octave : Nat} (inScale : semitone < 12)
    (inRange : octave ≤ maxOctave)
    : ∃ hertz, frequency semitone octave = .ok hertz ∧ Sounds semitone octave hertz.toNat := by
  have table
      : ∀ semitone < 12, ∀ octave < maxOctave + 1,
          (frequency (semitone : Nat) (octave : Nat)).toOption.any fun hertz =>
            Sounds semitone octave hertz.toNat := by
    decide +kernel
  obtain ⟨hertz, computed, sounds⟩ :=
    (Option.any_eq_true _ _).mp (table semitone inScale octave (Nat.lt_succ_of_le inRange))
  exact ⟨hertz, Trap.toOption_eq_some_iff.mp computed, of_decide_eq_true sounds⟩

theorem sounds_iff {semitone octave : Nat} (inScale : semitone < 12) (inRange : octave ≤ maxOctave)
    {hertz : UInt32}
    : Sounds semitone octave hertz.toNat ↔ frequency semitone octave = .ok hertz := by
  obtain ⟨computed, same, sounds⟩ := frequency_spec inScale inRange
  rw [same, Except.ok.injEq]
  exact ⟨fun soundsToo => UInt32.toNat_inj.mp (sounds.unique soundsToo), fun same => same ▸ sounds⟩

namespace Spelling

/-- B sharp of the highest octave that can be written. It is a C of the octave above that. -/
def overflowing : Spelling :=
  ⟨11, .sharp, octaveBound - 1⟩

/-- The octave above the highest that can be written is one too many. -/
def octaveTrap : Trap :=
  .outOfRange .i32 octaveBound

/-- An accidental leads at most one semitone out of the octave, by cases on it. -/
theorem semitone_near {letter : Nat} (inScale : letter < 12) (accidental : Accidental)
    : -1 ≤ letter + accidental.shift ∧ letter + accidental.shift ≤ 12 := by
  cases accidental <;> simp only [Accidental.shift] <;> omega

/-- Only a sharp leads from the highest letter into the octave above, by cases on the accidental. -/
theorem sharp_of_above {letter : Nat} {accidental : Accidental} (inScale : letter < 12)
    (above : 11 < letter + accidental.shift)
    : letter = 11 ∧ accidental = .sharp := by
  cases accidental <;> simp only [Accidental.shift] at above <;> grind

/-- The octave above the one that is written can be held, but for the spelling that overflows. -/
theorem octave_room {spelling : Spelling} (inScale : spelling.letter < 12)
    (small : spelling.octave < octaveBound) (other : spelling ≠ overflowing)
    (above : 11 < spelling.letter + spelling.accidental.shift)
    : spelling.octave + 1 < octaveBound := by
  apply Nat.lt_of_le_of_ne small
  intro last
  apply other
  obtain ⟨letter, accidental, octave⟩ := spelling
  obtain ⟨rfl, rfl⟩ := sharp_of_above inScale above
  exact congrArg (Spelling.mk 11 .sharp) (Nat.eq_sub_of_add_eq last)

theorem place_overflowing : overflowing.place = .error octaveTrap := by
  decide +kernel

/-- An accidental can lead to the next octave or to the one before. The octave that is meant is held
by its type, but for the spelling that overflows.
-/
theorem place_spec {spelling : Spelling} (inScale : spelling.letter < 12)
    (small : spelling.octave < octaveBound) (other : spelling ≠ overflowing)
    : ∃ semitone octave : Int,
        spelling.place = .ok (semitone, octave)
        ∧ 0 ≤ semitone
        ∧ semitone < 12
        ∧ 12 * octave + semitone
          = 12 * spelling.octave + spelling.letter + spelling.accidental.shift := by
  have near := semitone_near inScale spelling.accidental
  have room := octave_room inScale small other
  have bound : octaveBound = 2147483648 := rfl
  rw [bound] at small room
  simp only [place, IntegerType.add, IntegerType.sub, Int.add_assoc]
  generalize (spelling.letter : Int) + spelling.accidental.shift = semitone at *
  have inside : i32.Holds semitone := by rw [holds_i32_iff]; omega
  rw [hold_eq_ok inside]
  simp only [Trap.ok_bind]
  split
  · have sum : i32.Holds (semitone + 12) := by rw [holds_i32_iff]; omega
    have down : i32.Holds ((spelling.octave : Int) - 1) := by rw [holds_i32_iff]; omega
    rw [hold_eq_ok sum, hold_eq_ok down]
    exact ⟨_, _, rfl, by omega, by omega, by omega⟩
  · split
    · next above =>
      have less : i32.Holds (semitone - 12) := by rw [holds_i32_iff]; omega
      have higher := room above
      have up : i32.Holds ((spelling.octave : Int) + 1) := by rw [holds_i32_iff]; omega
      rw [hold_eq_ok less, hold_eq_ok up]
      exact ⟨_, _, rfl, by omega, by omega, by omega⟩
    · exact ⟨_, _, rfl, by omega, by omega, by omega⟩

theorem frequency?_overflowing : overflowing.frequency? = .error octaveTrap := by
  rw [frequency?, place_overflowing]
  rfl

/-- The frequency of a spelling is that of the semitone that it means, if this is one of the ten
octaves.
-/
theorem frequency?_spec {spelling : Spelling} (inScale : spelling.letter < 12)
    (small : spelling.octave < octaveBound) (other : spelling ≠ overflowing)
    : ∃ hertz?,
        spelling.frequency? = .ok hertz?
        ∧ ∀ hertz,
            hertz? = some hertz
              ↔ ∃ semitone octave,
                  spelling.Means semitone octave
                  ∧ octave ≤ maxOctave
                  ∧ Sounds semitone octave hertz.toNat := by
  obtain ⟨semitone, octave, placed, nonnegative, inOctave, same⟩ := place_spec inScale small other
  rw [frequency?, placed, Trap.ok_bind]
  dsimp only
  split
  · next inTable =>
    obtain ⟨semitone, rfl⟩ := Int.eq_ofNat_of_zero_le nonnegative
    obtain ⟨octave, rfl⟩ := Int.eq_ofNat_of_zero_le inTable.1
    have inRange : octave ≤ maxOctave := Int.ofNat_le.mp inTable.2
    obtain ⟨found, computed, sounds⟩ := frequency_spec (Int.ofNat_lt.mp inOctave) inRange
    refine ⟨some found, by rw [computed]; rfl, fun hertz => ⟨?_, ?_⟩⟩
    · rintro ⟨⟩
      exact ⟨semitone, octave, ⟨Int.ofNat_lt.mp inOctave, same⟩, inRange, sounds⟩
    · rintro ⟨semitone', octave', ⟨inScale', same'⟩, -, soundsToo⟩
      obtain rfl : semitone = semitone' := by omega
      obtain rfl : octave = octave' := by omega
      exact congrArg some (UInt32.toNat_inj.mp (sounds.unique soundsToo))
  · next outside =>
    refine ⟨none, rfl, fun hertz => ⟨nofun, ?_⟩⟩
    rintro ⟨semitone', octave', ⟨inScale', same'⟩, inRange, -⟩
    exact absurd ⟨by omega, by omega⟩ outside

/-- Only C flat of the octave above all others is written with too great an octave, by cases on the
accidental.
-/
theorem Means.octave_le {spelling : Spelling} {semitone octave : Nat}
    (means : spelling.Means semitone octave) (inRange : octave ≤ maxOctave)
    : spelling.octave ≤ maxOctave
      ∨ (spelling = ⟨0, .flat, maxOctave + 1⟩ ∧ semitone = 11 ∧ octave = maxOctave) := by
  obtain ⟨letter, accidental, written⟩ := spelling
  obtain ⟨inScale, same⟩ := means
  cases accidental <;> simp only [Accidental.shift] at same <;> grind [maxOctave]

theorem Means.octave_lt {spelling : Spelling} {semitone octave : Nat}
    (means : spelling.Means semitone octave) (inRange : octave ≤ maxOctave)
    : spelling.octave < octaveBound := by
  rcases means.octave_le inRange with within | ⟨rfl, -⟩
  · exact Nat.lt_of_le_of_lt within (by decide)
  · decide

end Spelling

theorem Spells.letter_lt {word : String} {spelling : Spelling} (spells : Spells word spelling)
    : spelling.letter < 12 := by
  obtain ⟨letter, -, named, -⟩ := spells
  have table : ∀ entry ∈ letters, entry.2 < 12 := by decide
  exact table (letter, spelling.letter) named

-----------------------------------------------------------------------------------------
-- Words and frequencies
-----------------------------------------------------------------------------------------

/-- A word that does not spell the overflowing pitch is read. It has a frequency if it spells a
semitone of one of the ten octaves.
-/
theorem parse?_spec {word : String} (regular : ¬Spells word .overflowing)
    : ∃ hertz?,
        parse? word = .ok hertz?
        ∧ ∀ hertz,
            hertz? = some hertz
              ↔ ∃ spelling semitone octave,
                  Spells word spelling
                  ∧ spelling.Means semitone octave
                  ∧ octave ≤ maxOctave
                  ∧ Sounds semitone octave hertz.toNat := by
  unfold parse?
  cases parsed : Spelling.ofWord? word with
  | none =>
      refine ⟨none, rfl, fun hertz => ⟨nofun, ?_⟩⟩
      rintro ⟨spelling, semitone, octave, spells, means, inRange, -⟩
      cases parsed.symm.trans (Spelling.ofWord?_eq_some_iff.mpr ⟨spells, means.octave_lt inRange⟩)
  | some spelling =>
      obtain ⟨spells, written⟩ := Spelling.ofWord?_eq_some_iff.mp parsed
      have other : spelling ≠ .overflowing := fun same => regular (same ▸ spells)
      obtain ⟨hertz?, read, means⟩ := Spelling.frequency?_spec spells.letter_lt written other
      refine ⟨hertz?, read, fun hertz => (means hertz).trans ⟨?_, ?_⟩⟩
      · rintro ⟨semitone, octave, found⟩
        exact ⟨spelling, semitone, octave, spells, found⟩
      · rintro ⟨spellingToo, semitone, octave, spellsToo, meansToo, inRange, sounds⟩
        obtain rfl := spells.unique spellsToo written (meansToo.octave_lt inRange)
        exact ⟨semitone, octave, meansToo, inRange, sounds⟩

theorem parse?_overflowing {word : String} (spells : Spells word .overflowing)
    : parse? word = .error Spelling.octaveTrap := by
  have parsed : Spelling.ofWord? word = some .overflowing :=
    Spelling.ofWord?_eq_some_iff.mpr ⟨spells, by decide⟩
  rw [parse?, parsed]
  exact Spelling.frequency?_overflowing

/-- Reading a pitch comes to an operation without a result for one spelling only. -/
theorem parse?_eq_error_iff {word : String} {trap : Trap}
    : parse? word = .error trap ↔ Spells word .overflowing ∧ trap = Spelling.octaveTrap := by
  constructor
  · intro trapped
    by_cases spells : Spells word .overflowing
    · exact ⟨spells, Except.error.inj (trapped.symm.trans (parse?_overflowing spells))⟩
    · obtain ⟨hertz?, read, -⟩ := parse?_spec spells
      cases trapped.symm.trans read
  · rintro ⟨spells, rfl⟩
    exact parse?_overflowing spells

/-- A word has a frequency if it spells a semitone of one of the ten octaves. -/
theorem parse?_eq_some_iff {word : String} {hertz : UInt32}
    : parse? word = .ok (some hertz)
      ↔ ∃ spelling semitone octave,
          Spells word spelling
          ∧ spelling.Means semitone octave
          ∧ octave ≤ maxOctave
          ∧ Sounds semitone octave hertz.toNat := by
  by_cases overflows : Spells word .overflowing
  · rw [parse?_overflowing overflows]
    refine ⟨nofun, ?_⟩
    rintro ⟨spelling, semitone, octave, spells, means, inRange, -⟩
    obtain rfl := spells.unique overflows (means.octave_lt inRange) (by decide)
    rcases means.octave_le inRange with within | ⟨flat, -⟩
    · exact absurd within (by decide)
    · exact absurd flat (by decide)
  · obtain ⟨hertz?, read, means⟩ := parse?_spec overflows
    rw [read, Except.ok.injEq]
    exact means hertz

/-- Each of the semitones of the ten octaves has a name. -/
theorem exists_name? {semitone octave : Nat} (inScale : semitone < 12)
    (inRange : octave ≤ maxOctave)
    {hertz : UInt32} (computed : frequency semitone octave = .ok hertz)
    : ∃ name, name? hertz = some name := by
  have found : (name? hertz).isSome := by
    refine List.findSome?_isSome_iff.mpr
      ⟨octave, List.mem_range.mpr (Nat.lt_succ_of_le inRange), ?_⟩
    rw [Option.isSome_map, List.find?_isSome]
    refine ⟨semitone, List.mem_range.mpr inScale, ?_⟩
    rw [computed]
    exact beq_self_eq_true _
  exact Option.isSome_iff_exists.mp found

/-- The word is a pitch of this frequency by the grammar of notation: the octave that is written and
the one that is meant are both among the ten octaves.
-/
def Documented (word : String) (hertz : UInt32) : Prop :=
  ∃ spelling semitone octave,
    Spells word spelling
    ∧ spelling.octave ≤ maxOctave
    ∧ spelling.Means semitone octave
    ∧ octave ≤ maxOctave
    ∧ Sounds semitone octave hertz.toNat

/-- C flat of the octave above all others is no pitch of the grammar: a word has one spelling. -/
theorem not_documented {word : String} (spells : Spells word ⟨0, .flat, maxOctave + 1⟩)
    (hertz : UInt32)
    : ¬Documented word hertz := by
  rintro ⟨spelling, semitone, octave, spellsToo, within, -⟩
  obtain rfl : spelling = ⟨0, .flat, maxOctave + 1⟩ :=
    spellsToo.unique spells (Nat.lt_of_le_of_lt within (by decide)) (by decide)
  exact absurd within (by decide)

/-- The words with a frequency are those of the grammar, but for C flat of the octave above all
others: it is B of the highest octave. Every other word has none, except that reading B sharp of the
highest octave that can be written comes to no result. A frequency with a word has a name, which has
that frequency, and one without a word has no name.
-/
theorem parse?_iff_documented (word : String) (hertz : UInt32)
    : (¬Spells word ⟨0, .flat, maxOctave + 1⟩
        → (parse? word = .ok (some hertz) ↔ Documented word hertz))
      ∧ (Spells word ⟨0, .flat, maxOctave + 1⟩
        → parse? word = .ok (some 15808) ∧ ¬Documented word hertz)
      ∧ (¬Spells word .overflowing
        → (parse? word = .ok none ↔ ∀ other, parse? word ≠ .ok (some other)))
      ∧ (parse? word = .ok (some hertz)
        → ∃ name, name? hertz = some name ∧ parse? name = .ok (some hertz))
      ∧ ((∀ other, parse? other ≠ .ok (some hertz)) → name? hertz = none) := by
  refine ⟨fun regular => ⟨fun parsed => ?_, ?_⟩, fun flatC => ⟨?_, not_documented flatC hertz⟩,
    fun regular => ?_, fun parsed => ?_, fun unheard => ?_⟩
  · obtain ⟨spelling, semitone, octave, spells, means, inRange, sounds⟩ :=
      parse?_eq_some_iff.mp parsed
    rcases means.octave_le inRange with within | ⟨rfl, -⟩
    · exact ⟨spelling, semitone, octave, spells, within, means, inRange, sounds⟩
    · exact absurd spells regular
  · rintro ⟨spelling, semitone, octave, spells, -, documented⟩
    exact parse?_eq_some_iff.mpr ⟨spelling, semitone, octave, spells, documented⟩
  · exact parse?_eq_some_iff.mpr
      ⟨_, 11, maxOctave, flatC, ⟨by decide, by decide⟩, Nat.le_refl _, by decide⟩
  · obtain ⟨hertz?, read, -⟩ := parse?_spec regular
    simp only [read, ne_eq, Except.ok.injEq]
    exact Option.eq_none_iff_forall_ne_some
  · obtain ⟨spelling, semitone, octave, -, means, inRange, sounds⟩ :=
      parse?_eq_some_iff.mp parsed
    obtain ⟨name, named⟩ := exists_name? means.1 inRange ((sounds_iff means.1 inRange).mp sounds)
    exact ⟨name, named, (parse?_of_name? named).2⟩
  · refine Option.eq_none_iff_forall_ne_some.mpr fun name named => ?_
    exact unheard name (parse?_of_name? named).2

/-- B sharp of the fourth octave is C of the fifth. -/
theorem parse?_iff_documented_sharp
    : Documented "b#4" 522 ∧ name? 522 = some "C5" ∧ parse? "C5" = .ok (some 522) := by
  have parsed : parse? "b#4" = .ok (some 522) := by decide +kernel
  have named : name? 522 = some "C5" := by decide +kernel
  obtain ⟨regular, flatC, -, names, -⟩ := parse?_iff_documented "b#4" 522
  have other : ¬Spells "b#4" ⟨0, .flat, maxOctave + 1⟩ := by
    intro spells
    have frequency := parsed.symm.trans (flatC spells).1
    exact absurd frequency (by decide)
  obtain ⟨name, namedToo, parsedToo⟩ := names parsed
  obtain rfl := Option.some.inj (named.symm.trans namedToo)
  exact ⟨(regular other).mp parsed, named, parsedToo⟩

/-- The octave that is written here is none of the ten. -/
theorem parse?_flatC_ten
    : parse? "Cb10" = .ok (some 15808) ∧ ∀ hertz, ¬Documented "Cb10" hertz := by
  have flatC : Spells "Cb10" ⟨0, .flat, maxOctave + 1⟩ :=
    ⟨'C', ['1', '0'], by decide, by decide +kernel, by decide, by decide⟩
  exact ⟨by decide +kernel, not_documented flatC⟩

end Chiptune.Pitch
