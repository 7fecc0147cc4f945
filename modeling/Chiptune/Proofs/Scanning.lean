import Chiptune.Proofs.Text.AsciiText
import Chiptune.Token.Scan

/-! Scanning a text from its front: what it starts with, where a word ends, and which tokens a text
has that is put together from words, blanks and line breaks. The kinds of the tokens do not depend
on where the text stands, nor on what follows a separator.
-/

namespace Chiptune.Token

open Ascii

-----------------------------------------------------------------------------------------
-- The front of a text
-----------------------------------------------------------------------------------------

theorem isBlank_of_isGraphic {byte : UInt8} (graphic : isGraphic byte)
    : isBlank byte = false := by
  by_contra blank
  simp only [isBlank, Bool.not_eq_false, Bool.or_eq_true, beq_iff_eq] at blank
  rcases blank with (rfl | rfl) | rfl <;> exact absurd graphic (by decide)

theorem isGraphic_of_isBlank {byte : UInt8} (blank : isBlank byte) : isGraphic byte = false := by
  rw [Bool.eq_false_iff]
  intro graphic
  cases blank.symm.trans (isBlank_of_isGraphic graphic)

theorem ne_newline_of_isGraphic {byte : UInt8} (graphic : isGraphic byte) : byte ≠ newline := by
  rintro rfl
  exact absurd graphic (by decide)

theorem ne_newline_of_isBlank {byte : UInt8} (blank : isBlank byte) : byte ≠ newline := by
  rintro rfl
  exact absurd blank (by decide)

/-- What follows the current line: its break and all that comes after that. -/
def below (bytes : List UInt8) : List UInt8 :=
  bytes.dropWhile (· != newline)

theorem below_append_of_notMem {line : List UInt8} (noBreak : newline ∉ line) (rest : List UInt8)
    : below (line ++ rest) = below rest :=
  List.dropWhile_append_of_pos fun _ member =>
    bne_iff_ne.mpr fun same => noBreak (same ▸ member)

theorem below_append_of_mem {line : List UInt8} (broken : newline ∈ line) (rest : List UInt8)
    : below (line ++ rest) = below line ++ rest := by
  obtain ⟨front, back, rfl, noBreak⟩ := List.eq_append_cons_of_mem broken
  rw [List.append_assoc, below_append_of_notMem noBreak, below_append_of_notMem noBreak]
  rfl

theorem startsComment_cons_iff {byte : UInt8} {rest : List UInt8}
    : startsComment (byte :: rest) ↔ byte = slash ∧ [slash] <+: rest := by
  cases rest with
  | nil => simp [startsComment]
  | cons second rest =>
      simp only [startsComment, Bool.and_eq_true, beq_iff_eq, List.cons_prefix_cons,
        List.nil_prefix, and_true]
      exact and_congr_right fun _ => eq_comm

/-- A word at the front of a text is what the text starts with, by induction on the text. -/
theorem wordAt_prefix (bytes : List UInt8) : wordAt bytes <+: bytes := by
  induction bytes with
  | nil => exact List.prefix_refl []
  | cons byte rest ih =>
      rw [wordAt]
      split
      · exact List.cons_prefix_cons.mpr ⟨rfl, ih⟩
      · exact List.nil_prefix

theorem wordAt_eq_cons_iff {byte : UInt8} {rest word : List UInt8}
    : wordAt (byte :: rest) = byte :: word
      ↔ isGraphic byte ∧ startsComment (byte :: rest) = false ∧ wordAt rest = word := by
  rw [wordAt]
  cases graphic : isGraphic byte <;> cases starts : startsComment (byte :: rest) <;> simp

/-- What a text starts with: a line break, a blank, a comment, a word or an unexpected byte. -/
inductive Front : List UInt8 → Prop
  | newline (rest : List UInt8) : Front (newline :: rest)
  | blank {byte : UInt8} (blank : isBlank byte) (rest : List UInt8) : Front (byte :: rest)
  | comment {byte : UInt8} {rest : List UInt8} (starts : startsComment (byte :: rest))
    : Front (byte :: rest)
  | word {byte : UInt8} {word rest : List UInt8}
    (atFront : wordAt (byte :: (word ++ rest)) = byte :: word)
    : Front (byte :: (word ++ rest))
  | stray {byte : UInt8} {rest : List UInt8} (notBreak : byte ≠ Ascii.newline)
    (notBlank : isBlank byte = false) (noComment : startsComment (byte :: rest) = false)
    (notGraphic : isGraphic byte = false)
    : Front (byte :: rest)

theorem front (byte : UInt8) (rest : List UInt8) : Front (byte :: rest) := by
  by_cases broken : byte = newline
  · exact broken ▸ .newline rest
  cases blank : isBlank byte with
  | true => exact .blank blank rest
  | false =>
  cases starts : startsComment (byte :: rest) with
  | true => exact .comment starts
  | false =>
  cases graphic : isGraphic byte with
  | false => exact .stray broken blank starts graphic
  | true =>
      obtain ⟨later, split⟩ := wordAt_prefix rest
      generalize same : wordAt rest = word at split
      subst split
      exact .word (wordAt_eq_cons_iff.mpr ⟨graphic, starts, same⟩)

section

variable (here : Position)

theorem scanFrom_newline (rest : List UInt8)
    : scanFrom 0 here (newline :: rest)
      = (scanFrom 0 here.nextLine rest).map (⟨.newline, here⟩ :: ·) := rfl

theorem scanFrom_blank {byte : UInt8} (blank : isBlank byte) (rest : List UInt8)
    : scanFrom 0 here (byte :: rest) = scanFrom 0 (here.right 1) rest := by
  rw [scanFrom, if_neg (ne_newline_of_isBlank blank), if_pos blank]

/-- Skipped bytes only move the place, by induction on them. -/
theorem scanFrom_skip (skipped : List UInt8) (here : Position) (rest : List UInt8)
    : scanFrom skipped.length here (skipped ++ rest)
      = scanFrom 0 (here.right skipped.length) rest := by
  induction skipped generalizing here with
  | nil => rfl
  | cons byte skipped ih =>
      rw [List.length_cons, List.cons_append, scanFrom, ih, Position.right_right, Nat.add_comm]

theorem scanFrom_comment {byte : UInt8} {rest : List UInt8} (starts : startsComment (byte :: rest))
    : scanFrom 0 here (byte :: rest)
      = scanFrom 0 (here.right ((lineAt rest).length + 1)) (below rest) := by
  obtain ⟨rfl, -⟩ := startsComment_cons_iff.mp starts
  have skipped := scanFrom_skip (lineAt rest) (here.right 1) (below rest)
  rw [lineAt, below, List.takeWhile_append_dropWhile, Position.right_right, Nat.add_comm] at skipped
  rw [scanFrom, if_neg (by decide), if_neg (by decide), if_pos starts]
  exact skipped

theorem scanFrom_word {byte : UInt8} {word rest : List UInt8}
    (atFront : wordAt (byte :: (word ++ rest)) = byte :: word)
    : scanFrom 0 here (byte :: (word ++ rest))
      = (scanFrom 0 (here.right (word.length + 1)) rest).map
          (⟨.ofWord (text (byte :: word)), here⟩ :: ·) := by
  obtain ⟨graphic, noComment, same⟩ := wordAt_eq_cons_iff.mp atFront
  rw [scanFrom, if_neg (ne_newline_of_isGraphic graphic), isBlank_of_isGraphic graphic, noComment,
    same, if_neg Bool.false_ne_true, if_neg Bool.false_ne_true, if_pos graphic, scanFrom_skip,
    Position.right_right, Nat.add_comm]

theorem scanFrom_stray {byte : UInt8} {rest : List UInt8} (notBreak : byte ≠ newline)
    (notBlank : isBlank byte = false) (noComment : startsComment (byte :: rest) = false)
    (notGraphic : isGraphic byte = false)
    : scanFrom 0 here (byte :: rest) = .error ⟨.strayByte byte, here⟩ := by
  rw [scanFrom, if_neg notBreak, notBlank, noComment, notGraphic]
  rfl

end

-----------------------------------------------------------------------------------------
-- The ends of words and comments
-----------------------------------------------------------------------------------------

/-- No word of the bytes before goes on in a text, and no comment starts with their last byte. -/
structure Apart (before text : List UInt8) : Prop where
  noWord : wordAt text = []
  slashes : [slash] <+: text → ¬ [slash] <:+ before

namespace Apart

variable {before text run : List UInt8} {byte : UInt8}

theorem of_suffix (apart : Apart before text) (suffix : run <:+ before) : Apart run text :=
  ⟨apart.noWord, fun slashes atEnd => apart.slashes slashes (atEnd.trans suffix)⟩

theorem of_not_slash (noWord : wordAt text = []) (noSlash : ¬ [slash] <+: text)
    : Apart before text :=
  ⟨noWord, fun slashes => absurd slashes noSlash⟩

theorem nil : Apart before [] :=
  .of_not_slash rfl (by simp)

theorem cons_newline : Apart before (newline :: text) :=
  .of_not_slash rfl (by simp [List.cons_prefix_cons, slash, newline])

theorem cons_blank (blank : isBlank byte) : Apart before (byte :: text) := by
  refine .of_not_slash (by rw [wordAt, isGraphic_of_isBlank blank]; rfl) fun slashes => ?_
  obtain ⟨rfl, -⟩ := List.cons_prefix_cons.mp slashes
  exact absurd blank (by decide)

theorem startsComment_append (apart : Apart (byte :: run) text)
    : startsComment (byte :: (run ++ text)) = startsComment (byte :: run) := by
  rw [Bool.eq_iff_iff, startsComment_cons_iff, startsComment_cons_iff]
  refine and_congr_right ?_
  rintro rfl
  cases run with
  | nil => exact iff_of_false (fun slashes => apart.slashes slashes (List.suffix_refl _)) (by simp)
  | cons second run => simp [List.cons_prefix_cons]

/-- Words end where they ended, by induction on the bytes before. -/
theorem wordAt_append (apart : Apart before text) : wordAt (before ++ text) = wordAt before := by
  induction before with
  | nil => exact apart.noWord
  | cons byte before ih =>
      rw [List.cons_append, wordAt, wordAt, apart.startsComment_append,
        ih (apart.of_suffix (List.suffix_cons byte before))]

end Apart

-----------------------------------------------------------------------------------------
-- Texts that are put together
-----------------------------------------------------------------------------------------

/-- Wherever a text stands, it is scanned as tokens of the given kinds and then as `rest`. -/
def ScansTo (source : List UInt8) (kinds : List TokenKind) (rest : List UInt8) : Prop :=
  ∀ here, ∃ there tokens,
    tokens.map (·.kind) = kinds
    ∧ scanFrom 0 here source = (scanFrom 0 there rest).map (tokens ++ ·)

namespace ScansTo

variable {source middle rest : List UInt8} {byte : UInt8}

theorem nothing (move : Position → Position)
    (scanned : ∀ here, scanFrom 0 here source = scanFrom 0 (move here) rest)
    : ScansTo source [] rest :=
  fun here => ⟨move here, [], rfl, by rw [scanned]; cases scanFrom 0 (move here) rest <;> rfl⟩

theorem refl (rest : List UInt8) : ScansTo rest [] rest :=
  .nothing id fun _ => rfl

theorem lineBreak (rest : List UInt8) : ScansTo (newline :: rest) [.newline] rest :=
  fun here => ⟨here.nextLine, [⟨.newline, here⟩], rfl, scanFrom_newline here rest⟩

theorem blank (blank : isBlank byte) (rest : List UInt8) : ScansTo (byte :: rest) [] rest :=
  .nothing (·.right 1) fun here => scanFrom_blank here blank rest

theorem comment (starts : startsComment (byte :: rest)) : ScansTo (byte :: rest) [] (below rest) :=
  .nothing (·.right ((lineAt rest).length + 1)) fun here => scanFrom_comment here starts

theorem word {word : List UInt8} (atFront : wordAt (byte :: (word ++ rest)) = byte :: word)
    : ScansTo (byte :: (word ++ rest)) [.ofWord (Ascii.text (byte :: word))] rest :=
  fun here => ⟨here.right (word.length + 1), [⟨.ofWord (Ascii.text (byte :: word)), here⟩],
    by simp only [List.map_cons, List.map_nil], scanFrom_word here atFront⟩

theorem trans {kinds later : List TokenKind} (first : ScansTo source kinds middle)
    (second : ScansTo middle later rest)
    : ScansTo source (kinds ++ later) rest := by
  intro here
  obtain ⟨there, tokens, sameKinds, scanned⟩ := first here
  obtain ⟨last, more, sameLater, scannedLater⟩ := second there
  refine ⟨last, tokens ++ more, by simp [sameKinds, sameLater], ?_⟩
  rw [scanned, scannedLater]
  cases scanFrom 0 last rest <;> simp [Except.map]

/-- Blanks are passed over, by induction on them. -/
theorem blanks {blanks : List UInt8} (areBlank : ∀ byte ∈ blanks, isBlank byte)
    (rest : List UInt8)
    : ScansTo (blanks ++ rest) [] rest := by
  induction blanks with
  | nil => exact .refl rest
  | cons byte blanks ih =>
      obtain ⟨first, later⟩ := List.forall_mem_cons.mp areBlank
      exact (blank first _).trans (ih later)

end ScansTo

/-- The kinds of the tokens that bytes form, wherever they stand and whatever follows. -/
def Scans (bytes : List UInt8) (kinds : List TokenKind) : Prop :=
  ∀ rest, ScansTo (bytes ++ rest) kinds rest

namespace Scans

theorem nil : Scans [] [] :=
  ScansTo.refl

theorem append {first second : List UInt8} {kinds later : List TokenKind}
    (left : Scans first kinds) (right : Scans second later)
    : Scans (first ++ second) (kinds ++ later) := by
  intro rest
  rw [List.append_assoc]
  exact (left (second ++ rest)).trans (right rest)

theorem blank {byte : UInt8} (isBlank : Ascii.isBlank byte) : Scans [byte] [] :=
  ScansTo.blank isBlank

theorem spaces (count : Nat) : Scans (encode (List.replicate count ' ')) [] := by
  induction count with
  | zero => exact nil
  | succ count ih => exact (blank (by decide)).append ih

theorem lineBreak : Scans [newline] [.newline] :=
  ScansTo.lineBreak

end Scans

/-- A word that is scanned as a whole: it has printable characters, and no room for a comment. -/
structure Lexeme (word : List Char) : Prop where
  nonempty : word ≠ []
  graphic : ∀ c ∈ word, 0x21 ≤ c.toNat ∧ c.toNat ≤ 0x7e
  slashes : word.count '/' ≤ 1

theorem Lexeme.isAscii {word : List Char} (lexeme : Lexeme word) : ∀ c ∈ word, IsAscii c :=
  fun c member => Nat.lt_of_le_of_lt (lexeme.graphic c member).2 (by decide)

theorem isGraphic_of_printable {c : Char} (least : 0x21 ≤ c.toNat) (greatest : c.toNat ≤ 0x7e)
    : isGraphic (UInt8.ofNat c.toNat) := by
  have value : (UInt8.ofNat c.toNat).toNat = c.toNat :=
    UInt8.toNat_ofNat_of_lt' (Nat.lt_of_le_of_lt greatest (by decide))
  simp only [isGraphic, Bool.and_eq_true, decide_eq_true_eq, UInt8.le_iff_toNat_le, value]
  exact ⟨least, greatest⟩

theorem eq_slash_of_byte {c : Char} (ascii : IsAscii c) (same : UInt8.ofNat c.toNat = slash)
    : c = '/' := by
  have value : (UInt8.ofNat c.toNat).toNat = c.toNat :=
    UInt8.toNat_ofNat_of_lt' (Nat.lt_trans ascii (by decide))
  rw [same] at value
  exact Char.toNat_inj.mp value.symm

/-- No comment starts within a word that has at most one slash and ends at a separator. -/
theorem startsComment_encode {c : Char} {word : List Char} {separator : UInt8}
    (printable : ∀ d ∈ c :: word, IsAscii d) (slashes : (c :: word).count '/' ≤ 1)
    (separates : separator ≠ slash) (rest : List UInt8)
    : startsComment (encode (c :: word) ++ separator :: rest) = false := by
  by_contra starts
  cases word with
  | nil => simp [startsComment, separates] at starts
  | cons next word =>
      simp only [encode_cons, List.cons_append, startsComment, Bool.not_eq_false,
        Bool.and_eq_true, beq_iff_eq] at starts
      have first := eq_slash_of_byte (printable c (by simp)) starts.1
      have second := eq_slash_of_byte (printable next (by simp)) starts.2
      simp [first, second] at slashes

/-- A word ends at a separator, by induction on the word. -/
theorem wordAt_encode {word : List Char} {separator : UInt8}
    (graphic : ∀ c ∈ word, 0x21 ≤ c.toNat ∧ c.toNat ≤ 0x7e) (slashes : word.count '/' ≤ 1)
    (separates : isGraphic separator = false) (rest : List UInt8)
    : wordAt (encode word ++ separator :: rest) = encode word := by
  induction word with
  | nil => simp [wordAt, separates]
  | cons c word ih =>
      have noSlash : separator ≠ slash := by
        rintro rfl
        exact absurd separates (by decide)
      have ascii : ∀ d ∈ c :: word, IsAscii d :=
        fun d member => Nat.lt_of_le_of_lt (graphic d member).2 (by decide)
      have printable := graphic c (by simp)
      have fewer : word.count '/' ≤ 1 :=
        Nat.le_trans ((List.sublist_cons_self c word).count_le _) slashes
      have noComment := startsComment_encode ascii slashes noSlash rest
      rw [encode_cons, List.cons_append] at noComment ⊢
      rw [wordAt, isGraphic_of_printable printable.1 printable.2, noComment,
        ih (fun d member => graphic d (by simp [member])) fewer]
      rfl

/-- A lexeme before a separator is one token. -/
theorem Lexeme.scans {word : List Char} (lexeme : Lexeme word) {separator : UInt8}
    {kinds : List TokenKind} (separates : isGraphic separator = false)
    (separated : Scans [separator] kinds)
    : Scans (encode word ++ [separator]) (.ofWord (String.ofList word) :: kinds) := by
  intro rest
  have isAscii := lexeme.isAscii
  have text := text_encode isAscii
  obtain ⟨nonempty, graphic, slashes⟩ := lexeme
  cases word with
  | nil => exact absurd rfl nonempty
  | cons c word =>
      have printable := graphic c (by simp)
      have fewer : word.count '/' ≤ 1 :=
        Nat.le_trans ((List.sublist_cons_self c word).count_le _) slashes
      have noSlash : separator ≠ slash := by
        rintro rfl
        exact absurd separates (by decide)
      have noComment := startsComment_encode isAscii slashes noSlash rest
      have ends := wordAt_encode (fun d member => graphic d (by simp [member])) fewer separates
        rest
      have atFront := wordAt_eq_cons_iff.mpr
        ⟨isGraphic_of_printable printable.1 printable.2, noComment, ends⟩
      rw [encode_cons] at text
      rw [List.append_assoc, encode_cons, ← text]
      exact (ScansTo.word atFront).trans (separated rest)

end Chiptune.Token
