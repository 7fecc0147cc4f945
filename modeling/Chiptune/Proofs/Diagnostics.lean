import Chiptune.Proofs.Diagnostics.Origins
import Chiptune.Proofs.LineByLine.Scanning
import Chiptune.Proofs.Text.LossyText
import Chiptune.Report
import Mathlib.Data.List.DropRight

/-! What a compile error points at. Its place is that of a token or of an unexpected byte, which
only ASCII bytes come before on the line. The bytes counted by the column are therefore the
characters in front of the caret, although the line that is shown is decoded with replacement
characters.
-/

namespace Chiptune

open Ascii (newline slash isBlank isGraphic)
open LineByLine (GoesOn EndsLine)
open Token (scanFrom startsComment wordAt lineAt)

-----------------------------------------------------------------------------------------
-- The line around a byte
-----------------------------------------------------------------------------------------

/-- The bytes before an offset that lie on the same line. -/
def lineBefore (source : List UInt8) (offset : Nat) : List UInt8 :=
  (source.take offset).rtakeWhile (· != newline)

/-- The line that an offset lies on, without its line break. -/
def lineAround (source : List UInt8) (offset : Nat) : List UInt8 :=
  let line := lineBefore source offset ++ lineAt (source.drop offset)
  if newline ∈ source.drop offset then Lines.bytesWithoutReturn line else line

theorem lineAt_cons {byte : UInt8} (notBreak : byte ≠ newline) (rest : List UInt8)
    : lineAt (byte :: rest) = byte :: lineAt rest :=
  List.takeWhile_cons_of_pos (bne_iff_ne.mpr notBreak)

theorem newline_notMem_lineAt (bytes : List UInt8) : newline ∉ lineAt bytes :=
  fun member => absurd (List.mem_takeWhile_imp member) (by decide)

theorem newline_notMem_lineBefore (source : List UInt8) (offset : Nat)
    : newline ∉ lineBefore source offset :=
  fun member => absurd (List.mem_rtakeWhile_imp member) (by decide)

/-- A text goes on with the rest of its line, and then with what ends the line. -/
theorem exists_lineAt (bytes : List UInt8)
    : ∃ below, bytes = lineAt bytes ++ below ∧ EndsLine below := by
  refine ⟨bytes.dropWhile (· != newline), List.takeWhile_append_dropWhile.symm, ?_⟩
  cases below : bytes.dropWhile (· != newline) with
  | nil => exact .last
  | cons byte rest =>
      have nonempty : bytes.dropWhile (· != newline) ≠ [] := below ▸ List.cons_ne_nil byte rest
      have stops := List.head_dropWhile_not (· != newline) nonempty
      simp only [below, List.head_cons, bne_eq_false_iff_eq] at stops
      exact stops ▸ .newline rest

/-- A text consists of the lines above an offset, the line around it, and what ends that line. -/
theorem exists_eq_lines (source : List UInt8) (offset : Nat)
    : ∃ above below,
        source = above ++ (lineBefore source offset ++ lineAt (source.drop offset) ++ below)
        ∧ (∀ byte ∈ above.getLast?, byte = newline)
        ∧ above.count newline = (source.take offset).count newline
        ∧ source.drop offset = lineAt (source.drop offset) ++ below
        ∧ EndsLine below := by
  obtain ⟨below, split, ends⟩ := exists_lineAt (source.drop offset)
  have before
      : (source.take offset).rdropWhile (· != newline) ++ lineBefore source offset
        = source.take offset :=
    List.rdropWhile_append_rtakeWhile
  refine ⟨(source.take offset).rdropWhile (· != newline), below, ?_, fun byte last => ?_, ?_,
    split, ends⟩
  · rw [List.append_assoc (lineBefore source offset), ← split, ← List.append_assoc, before,
      List.take_append_drop]
  · obtain ⟨bytes, same⟩ := List.getLast?_eq_some_iff.mp last
    have nonempty : (source.take offset).rdropWhile (· != newline) ≠ [] := by
      rw [same]
      exact List.append_ne_nil_of_right_ne_nil bytes (List.cons_ne_nil byte [])
    have stops := List.rdropWhile_last_not (· != newline) (source.take offset) nonempty
    simpa [same] using stops
  · have count := congrArg (List.count newline) before
    rwa [List.count_append, List.count_eq_zero_of_not_mem (newline_notMem_lineBefore source offset),
      Nat.add_zero] at count

section Here

variable {source run rest : List UInt8} {byte : UInt8} {offset : Nat}

theorem LineByLine.GoesOn.drop_eq (here : GoesOn source offset rest)
    : source.drop offset = rest := by
  obtain ⟨before, rfl, rfl⟩ := here
  exact List.drop_left

/-- Along a line more and more of its bytes are before an offset. -/
theorem lineBefore_append (here : GoesOn source offset (run ++ rest)) (noBreak : newline ∉ run)
    : lineBefore source (offset + run.length) = lineBefore source offset ++ run := by
  obtain ⟨before, rfl, rfl⟩ := here
  have onLine := LineByLine.bne_newline (mt List.mem_reverse.mp noBreak)
  have upTo : (before ++ (run ++ rest)).take (before.length + run.length) = before ++ run := by
    rw [← List.append_assoc, ← List.length_append, List.take_left]
  rw [lineBefore, lineBefore, upTo, List.take_left, List.rtakeWhile, List.reverse_append,
    List.takeWhile_append_of_pos onLine, List.reverse_append, List.reverse_reverse]
  rfl

theorem lineBefore_nextLine (here : GoesOn source offset (newline :: rest))
    : lineBefore source (offset + 1) = [] := by
  obtain ⟨before, rfl, rfl⟩ := here
  have upTo : (before ++ newline :: rest).take (before.length + 1) = before ++ [newline] := by
    rw [List.append_cons]
    exact List.take_left' List.length_append
  rw [lineBefore, upTo]
  exact List.rtakeWhile_concat_neg _ _ _ (by decide)

end Here

-----------------------------------------------------------------------------------------
-- Scanning
-----------------------------------------------------------------------------------------

/-- Only ASCII bytes come before an offset on its line. -/
def Plain (source : List UInt8) (offset : Nat) : Prop :=
  ∀ byte ∈ lineBefore source offset, byte < 0x80

section Scanning

variable {source run rest : List UInt8} {byte : UInt8} {offset : Nat}

theorem Plain.append (plain : Plain source offset) (here : GoesOn source offset (run ++ rest))
    (noBreak : newline ∉ run) (ascii : ∀ byte ∈ run, byte < 0x80)
    : Plain source (offset + run.length) := by
  rw [Plain, lineBefore_append here noBreak]
  exact List.forall_mem_append.mpr ⟨plain, ascii⟩

theorem Plain.nextLine (here : GoesOn source offset (newline :: rest))
    : Plain source (offset + 1) := by
  rw [Plain, lineBefore_nextLine here]
  exact List.forall_mem_nil _

theorem lt_of_isGraphic (graphic : isGraphic byte) : byte < 0x80 := by
  simp only [isGraphic, Bool.and_eq_true, decide_eq_true_eq] at graphic
  exact UInt8.lt_of_le_of_lt graphic.2 (by decide)

theorem lt_of_isBlank (blank : isBlank byte) : byte < 0x80 := by
  simp only [isBlank, Bool.or_eq_true, beq_iff_eq] at blank
  rcases blank with (rfl | rfl) | rfl <;> decide

/-- A byte that an error can point at. It is no blank and ends no line, and no byte before it on
its line can be decoded as anything but one character.
-/
structure Marks (source : List UInt8) (place : Position) (byte : UInt8) : Prop where
  place_eq : place = .inText source place.offset
  here : source[place.offset]? = some byte
  notBlank : isBlank byte = false
  notBreak : byte ≠ newline
  plain : Plain source place.offset

theorem LineByLine.GoesOn.marks (here : GoesOn source offset (byte :: rest))
    (notBlank : isBlank byte = false) (notBreak : byte ≠ newline) (plain : Plain source offset)
    : Marks source (.inText source offset) byte where
  place_eq := rfl
  here := by
    have front : (source.drop offset)[0]? = some byte := by rw [here.drop_eq]; rfl
    rwa [List.getElem?_drop] at front
  notBlank := notBlank
  notBreak := notBreak
  plain := plain

/-- A token of a text that is not the end of a line: the word at its place. -/
def Token.IsWordOf (token : Token) (source : List UInt8) : Prop :=
  ∃ byte word,
    Marks source token.position byte
    ∧ wordAt (source.drop token.position.offset) = byte :: word
    ∧ token.kind = .ofWord (Ascii.text (byte :: word))

/-- The result of a scan with words where they stand, or an error at an unexpected byte. -/
def ScansAt (source : List UInt8) : Except CompileError (List Token) → Prop
  | .ok tokens => ∀ token ∈ tokens, token.kind.endsLine = false → token.IsWordOf source
  | .error error => ∃ byte, Marks source error.position byte ∧ error.cause = .strayByte byte

theorem ScansAt.cons {token : Token} {result : Except CompileError (List Token)}
    (first : token.kind.endsLine = false → token.IsWordOf source)
    (scans : ScansAt source result)
    : ScansAt source (result.map (token :: ·)) := by
  cases result with
  | ok tokens => exact List.forall_mem_cons.mpr ⟨first, scans⟩
  | error error => exact scans

/-- A word that is scanned is the one at its place. -/
theorem isWordOf_of_wordAt {word : List UInt8} (here : GoesOn source offset (byte :: rest))
    (plain : Plain source offset) (atFront : wordAt (byte :: rest) = byte :: word)
    : Token.IsWordOf ⟨LineByLine.kindOf (byte :: word), .inText source offset⟩ source := by
  have graphic : isGraphic byte :=
    LineByLine.isGraphic_of_mem_wordAt (atFront ▸ List.mem_cons_self)
  refine ⟨byte, word, ?_, ?_, (LineByLine.ofWord_text (List.cons_ne_nil _ _)).symm⟩
  · exact here.marks (Token.isBlank_of_isGraphic graphic) (Token.ne_newline_of_isGraphic graphic)
      plain
  · exact (congrArg wordAt here.drop_eq).trans atFront

/-- What is scanned from an offset on are words where they stand, up to an unexpected byte. -/
def ScansFrom (source : List UInt8) (offset : Nat) (rest : List UInt8) : Prop :=
  ScansAt source (scanFrom 0 (.inText source offset) rest)

end Scanning

namespace ScansFrom

variable {source rest : List UInt8} {byte : UInt8} {offset : Nat}
variable (here : GoesOn source offset (byte :: rest))
variable (goesOn
  : ∀ run later, rest = run ++ later
    → Plain source (offset + (run.length + 1)) ∨ EndsLine later
    → ScansFrom source (offset + (run.length + 1)) later)

theorem last (source : List UInt8) (offset : Nat) : ScansFrom source offset [] := by
  simp [ScansFrom, scanFrom, ScansAt, TokenKind.endsLine]

include here

theorem stray (notBlank : isBlank byte = false) (notBreak : byte ≠ newline)
    (noComment : startsComment (byte :: rest) = false) (notGraphic : isGraphic byte = false)
    (plain : Plain source offset)
    : ScansFrom source offset (byte :: rest) := by
  rw [ScansFrom, Token.scanFrom_stray _ notBreak notBlank noComment notGraphic]
  exact ⟨byte, here.marks notBlank notBreak plain, rfl⟩

include goesOn

theorem lineBreak (broken : byte = newline) : ScansFrom source offset (byte :: rest) := by
  subst broken
  rw [ScansFrom, LineByLine.scanFrom_break here]
  refine .cons (fun inLine => ?_) (goesOn [] rest rfl (.inl (.nextLine here)))
  cases inLine

theorem blank (blank : isBlank byte) (plain : Plain source offset)
    : ScansFrom source offset (byte :: rest) := by
  rw [ScansFrom, LineByLine.scanFrom_blank here blank]
  refine goesOn [] rest rfl (.inl ?_)
  refine plain.append (show GoesOn source offset ([byte] ++ rest) from here) ?_ ?_
  · simpa using Ne.symm (Token.ne_newline_of_isBlank blank)
  · exact List.forall_mem_singleton.mpr (lt_of_isBlank blank)

/-- What a comment holds does not matter, because nothing follows it on its line. -/
theorem comment (comment : startsComment (byte :: rest))
    : ScansFrom source offset (byte :: rest) := by
  obtain ⟨below, split, ends⟩ := exists_lineAt rest
  have later := goesOn (lineAt rest) below split (.inr ends)
  obtain ⟨rfl, -⟩ := Token.startsComment_cons_iff.mp comment
  have noBreak : newline ∉ slash :: lineAt rest :=
    List.not_mem_cons_of_ne_of_not_mem (by decide) (newline_notMem_lineAt rest)
  have starts := ends.startsComment_append (slash :: lineAt rest)
  rw [List.cons_append, ← split, comment] at starts
  have scanned := LineByLine.scanFrom_comment (split ▸ here) noBreak ends starts.symm
  rw [← split] at scanned
  rwa [ScansFrom, scanned]

/-- A word is graphic throughout, so what comes before its end is plain if its start is. -/
theorem word {word later : List UInt8} (split : rest = word ++ later)
    (atFront : wordAt (byte :: rest) = byte :: word) (plain : Plain source offset)
    : ScansFrom source offset (byte :: rest) := by
  have first := isWordOf_of_wordAt here plain atFront
  have inWord : ∀ other ∈ byte :: word, isGraphic other :=
    fun other member => LineByLine.isGraphic_of_mem_wordAt (atFront ▸ member)
  have noBreak : newline ∉ byte :: word :=
    fun member => Token.ne_newline_of_isGraphic (inWord newline member) rfl
  have next := goesOn word later split
  subst split
  rw [ScansFrom, LineByLine.scanFrom_word here noBreak atFront]
  refine .cons (fun _ => first) (next (.inl ?_))
  have behind : GoesOn source offset (byte :: word ++ later) := here
  exact plain.append behind noBreak fun other member => lt_of_isGraphic (inWord other member)

end ScansFrom

/-- From an offset on that only ASCII bytes come before, or that ends a line, words and unexpected
bytes are met where they can be pointed at; by induction on the bytes that are left.
-/
theorem scansFrom {source rest : List UInt8} {offset : Nat} (here : GoesOn source offset rest)
    (live : Plain source offset ∨ EndsLine rest)
    : ScansFrom source offset rest := by
  induction length : rest.length using Nat.strongRecOn generalizing rest offset with
  | ind bound ih =>
  subst length
  cases rest with
  | nil => exact .last source offset
  | cons byte rest =>
      have goesOn (run later : List UInt8) (split : rest = run ++ later)
          : Plain source (offset + (run.length + 1)) ∨ EndsLine later
            → ScansFrom source (offset + (run.length + 1)) later := by
        subst split
        have shorter : later.length < (byte :: (run ++ later)).length := by
          rw [List.length_cons, List.length_append]
          omega
        have behind : GoesOn source offset (byte :: run ++ later) := here
        exact fun live => ih later.length shorter behind.append live rfl
      have plain (notBreak : byte ≠ newline) : Plain source offset := by
        rcases live with plain | ends
        · exact plain
        · cases ends
          exact absurd rfl notBreak
      cases Token.front byte rest with
      | newline => exact .lineBreak here goesOn rfl
      | blank blank => exact .blank here goesOn blank (plain (Token.ne_newline_of_isBlank blank))
      | comment starts => exact .comment here goesOn starts
      | word atFront =>
          have graphic := (Token.wordAt_eq_cons_iff.mp atFront).1
          exact .word here goesOn rfl atFront (plain (Token.ne_newline_of_isGraphic graphic))
      | stray notBreak notBlank noComment notGraphic =>
          exact .stray here notBlank notBreak noComment notGraphic (plain notBreak)

/-- Where a compile error points: at an unexpected byte, or at the first byte of a word that is
scanned.
-/
theorem exists_marks {source : List UInt8} {error : CompileError}
    (failed : Program.compile source = .error (.rejected error))
    : ∃ byte,
        Marks source error.position byte
        ∧ (error.cause = .strayByte byte
          ∨ ∃ tokens word,
              Token.scan source = .ok tokens
              ∧ ⟨.ofWord (Ascii.text (byte :: word)), error.position⟩ ∈ tokens
              ∧ wordAt (source.drop error.position.offset) = byte :: word) := by
  have scans : ScansAt source (Token.scan source) :=
    scansFrom (⟨[], rfl, rfl⟩ : GoesOn source 0 source) (.inl (List.forall_mem_nil _))
  cases scanned : Token.scan source with
  | error stray =>
      rw [Program.compile_of_stray scanned] at failed
      rw [scanned] at scans
      cases failed
      obtain ⟨byte, marks, cause⟩ := scans
      exact ⟨byte, marks, .inl cause⟩
  | ok tokens =>
      rw [Program.compile_of_scan scanned] at failed
      rw [scanned] at scans
      have placed
          : ErrorsAt
              (fun place => ∃ token ∈ tokens, token.IsWordOf source ∧ token.position = place)
              (Program.ofTokens tokens) :=
        Program.errorsAt_ofTokens fun token member inLine =>
          ⟨token, member, scans token member inLine, rfl⟩
      rw [failed] at placed
      obtain ⟨⟨kind, place⟩, member, ⟨byte, word, marks, atFront, rfl⟩, rfl⟩ := placed
      exact ⟨byte, marks, .inr ⟨tokens, word, rfl, member, atFront⟩⟩

-----------------------------------------------------------------------------------------
-- The line that is shown
-----------------------------------------------------------------------------------------

/-- Only a carriage return can be left out at the end of a line. -/
theorem Lines.exists_bytesWithoutReturn {byte : UInt8} (notReturn : byte ≠ 0x0d)
    (before line : List UInt8)
    : ∃ shown ending,
        bytesWithoutReturn (before ++ byte :: line) = before ++ byte :: shown
        ∧ line = shown ++ ending
        ∧ ∀ next ∈ ending.head?, next < 0x80 := by
  by_cases ends : line.getLast? = some 0x0d
  · obtain ⟨shown, rfl⟩ := List.getLast?_eq_some_iff.mp ends
    refine ⟨shown, [0x0d], ?_, rfl, by simp⟩
    rw [← List.cons_append, ← List.append_assoc, bytesWithoutReturn,
      if_pos List.getLast?_concat, List.dropLast_concat]
  · refine ⟨line, [], if_neg fun last => ends ?_, (List.append_nil line).symm, by simp⟩
    rw [List.getLast?_append_of_ne_nil _ (List.cons_ne_nil byte line)] at last
    cases line with
    | nil => exact absurd (Option.some.inj last) notReturn
    | cons next line => exact last

namespace Marks

variable {source : List UInt8} {place : Position} {byte : UInt8}

theorem exists_drop_eq (marks : Marks source place byte)
    : ∃ rest, source.drop place.offset = byte :: rest := by
  obtain ⟨within, here⟩ := List.getElem?_eq_some_iff.mp marks.here
  exact ⟨_, (List.drop_eq_getElem_cons within).trans (congrArg (· :: _) here)⟩

/-- The line of a byte that can be pointed at goes on with that byte, and all that is not shown
of the rest of the text starts with an ASCII byte.
-/
theorem exists_lineAround (marks : Marks source place byte)
    : ∃ line below,
        lineAround source place.offset = lineBefore source place.offset ++ byte :: line
        ∧ source.drop place.offset = byte :: line ++ below
        ∧ ∀ next ∈ below.head?, next < 0x80 := by
  have notReturn : byte ≠ 0x0d := by
    rintro rfl
    exact absurd marks.notBlank (by decide)
  obtain ⟨rest, drop⟩ := marks.exists_drop_eq
  obtain ⟨below, split, ends⟩ := exists_lineAt rest
  rw [lineAround, drop, lineAt_cons marks.notBreak]
  cases ends with
  | last =>
      have last : newline ∉ byte :: rest := by
        rw [split, List.append_nil]
        exact List.not_mem_cons_of_ne_of_not_mem marks.notBreak.symm (newline_notMem_lineAt rest)
      refine ⟨lineAt rest, [], if_neg last, congrArg (byte :: ·) split, by simp⟩
  | newline later =>
      have broken : newline ∈ byte :: rest := by
        rw [split]
        exact List.mem_cons_of_mem byte (List.mem_append_right _ List.mem_cons_self)
      obtain ⟨shown, ending, same, ended, ascii⟩ := Lines.exists_bytesWithoutReturn notReturn
        (lineBefore source place.offset) (lineAt rest)
      refine ⟨shown, ending ++ newline :: later, (if_pos broken).trans same, ?_, ?_⟩
      · rw [List.cons_append, ← List.append_assoc, ← ended, ← split]
      · cases ending with
        | nil => exact fun next first => Option.some.inj first ▸ (by decide)
        | cons => exact ascii

/-- A text is decoded in two parts where a byte can be pointed at, because what comes before the
byte ends with an ASCII byte.
-/
theorem decodeLossy_eq (marks : Marks source place byte)
    : Utf8.decodeLossy source
      = Utf8.decodeLossy (source.take place.offset)
        ++ Utf8.decodeLossy (source.drop place.offset) := by
  have ascii : ∀ last ∈ (source.take place.offset).getLast?, last < 0x80 := by
    intro last member
    obtain ⟨bytes, same⟩ := List.getLast?_eq_some_iff.mp member
    by_cases broken : last = newline
    · exact broken ▸ by decide
    · have inLine : lineBefore source place.offset
          = bytes.rtakeWhile (· != newline) ++ [last] := by
        rw [lineBefore, same]
        exact List.rtakeWhile_concat_pos _ _ _ (bne_iff_ne.mpr broken)
      exact marks.plain last (inLine ▸ List.mem_append_right _ (List.mem_singleton_self last))
  rw [← Utf8.decodeLossy_append ascii, List.take_append_drop]

/-- The character under the caret is the one that is decoded from the byte pointed at. -/
theorem exists_character (marks : Marks source place byte)
    : ∃ character,
        (Utf8.decodeLossy (source.drop place.offset)).head? = some character
        ∧ (Utf8.decodeLossy (lineAround source place.offset))[
            (lineBefore source place.offset).length]?
          = some character := by
  obtain ⟨line, below, around, drop, ascii⟩ := marks.exists_lineAround
  have plainEnd : ∀ last ∈ (lineBefore source place.offset).getLast?, last < 0x80 :=
    fun last member => marks.plain last (List.mem_of_getLast? member)
  rw [drop, around, Utf8.decodeLossy_append plainEnd, Utf8.decodeLossy_append_of_head? ascii,
    ← Utf8.length_decodeLossy marks.plain]
  refine ⟨(Utf8.part byte line).1.getD Utf8.replacement, rfl, ?_⟩
  rw [List.getElem?_append_right (Nat.le_refl _), Nat.sub_self]
  rfl

/-- The line of the decoded text with the number of a place is the one around it. -/
theorem getElem?_lines (marks : Marks source place byte)
    : (Lines.lines (Utf8.decodeLossy source))[(source.take place.offset).count newline]?
      = some (Utf8.decodeLossy (lineAround source place.offset)) := by
  obtain ⟨above, below, text, whole, count, split, ends⟩ := exists_eq_lines source place.offset
  obtain ⟨rest, drop⟩ := marks.exists_drop_eq
  have nonempty : lineAt (source.drop place.offset) ≠ [] := by
    rw [drop, lineAt_cons marks.notBreak]
    exact List.cons_ne_nil _ _
  have noBreak : newline ∉ lineBefore source place.offset ++ lineAt (source.drop place.offset) :=
    List.not_mem_append (newline_notMem_lineBefore source place.offset) (newline_notMem_lineAt _)
  have numbered := Lines.getElem?_lines_decodeLossy whole
    (lineBefore source place.offset ++ lineAt (source.drop place.offset) ++ below) 0
  rw [← text, Nat.add_zero, count] at numbered
  rw [numbered, lineAround]
  cases ends with
  | last =>
      rw [List.append_nil] at split ⊢
      rw [if_neg (split ▸ newline_notMem_lineAt _), Lines.lines_decodeLossy_last noBreak
        (List.append_ne_nil_of_right_ne_nil _ nonempty)]
      rfl
  | newline later =>
      rw [if_pos (split ▸ List.mem_append_right _ List.mem_cons_self),
        Lines.lines_decodeLossy_append noBreak]
      rfl

end Marks

-----------------------------------------------------------------------------------------
-- The diagnostic
-----------------------------------------------------------------------------------------

/-- A text that cannot be compiled is reported with the line at fault, as it is decoded, and a caret
under the character at fault. The line and the column of the error are counted in the text up to
its offset. There the first byte of a word stands, or the unexpected byte, and never a blank or a
line break. Only ASCII bytes come before on the line, and the character under the caret is the one
that is decoded from the offset on.
-/
theorem Report.diagnostic_caret {source : List UInt8} {error : CompileError}
    (failed : Program.compile source = .error (.rejected error))
    : let place := error.position
      let ahead := source.drop place.offset
      let shown := Utf8.decodeLossy (lineAround source place.offset)
      let blanks := String.ofList (List.replicate (place.column - 1) ' ')
      place.offset < source.length
      ∧ place.line = 1 + (source.take place.offset).count newline
      ∧ place.column = 1 + (lineBefore source place.offset).length
      ∧ (∃ byte,
          source[place.offset]? = some byte
          ∧ isBlank byte = false
          ∧ byte ≠ newline
          ∧ (error.cause = .strayByte byte
            ∨ ∃ tokens word,
                Token.scan source = .ok tokens
                ∧ ⟨.ofWord (Ascii.text (byte :: word)), place⟩ ∈ tokens
                ∧ wordAt ahead = byte :: word))
      ∧ (∀ other ∈ lineBefore source place.offset, other < 0x80)
      ∧ Report.diagnostic error.diagnostic source
        = s!"compile error: {error.diagnostic.describe}\n  {String.ofList shown}\n  {blanks}^"
      ∧ Utf8.decodeLossy source
        = Utf8.decodeLossy (source.take place.offset) ++ Utf8.decodeLossy ahead
      ∧ ∃ character,
          (Utf8.decodeLossy ahead).head? = some character
          ∧ shown[place.column - 1]? = some character := by
  obtain ⟨byte, marks, found⟩ := exists_marks failed
  intro place ahead shown blanks
  have line : place.line = 1 + (source.take place.offset).count newline :=
    congrArg Position.line marks.place_eq
  have column : place.column = 1 + (lineBefore source place.offset).length := by
    rw [lineBefore, List.rtakeWhile, List.length_reverse]
    exact congrArg Position.column marks.place_eq
  obtain ⟨within, -⟩ := List.getElem?_eq_some_iff.mp marks.here
  obtain ⟨character, decoded, under⟩ := marks.exists_character
  refine ⟨within, line, column, ⟨byte, marks.here, marks.notBlank, marks.notBreak, found⟩,
    marks.plain, ?_, marks.decodeLossy_eq, character, decoded, ?_⟩
  · have numbered : (Lines.lines (Utf8.decodeLossy source))[place.line - 1]? = some shown := by
      rw [line, Nat.add_sub_cancel_left]
      exact marks.getElem?_lines
    have same : error.diagnostic.position = place := rfl
    rw [Report.diagnostic, same, numbered]
    simp only [toString, String.append_assoc]
    rfl
  · rw [column, Nat.add_sub_cancel_left]
    exact under

/-- Below a comment with a byte that is no UTF-8, a stray `END` is shown as it is decoded. -/
theorem Report.diagnostic_caret_end
    : let comment := [0x2f, 0x2f, 0xff, 0x0a]
      let source := comment ++ [0x09, 0x45, 0x4e, 0x44, 0x2f, 0x2f, 0xe2, 0x82, 0x0d, 0x0a]
      let error : CompileError := ⟨.closeWithoutOpen, ⟨5, 2, 2⟩⟩
      Program.compile source = .error (.rejected error)
      ∧ Report.diagnostic error.diagnostic source
        = "compile error: [2:2] unexpected token: END without REPEAT (offset 5)\n"
          ++ "  \tEND//\uFFFD\n   ^"
      ∧ (Utf8.decodeLossy (lineAround source 5))[1]? = some 'E' := by
  intro comment source error
  have failed : Program.compile source = .error (.rejected error) := by decide +kernel
  obtain ⟨-, -, -, -, -, report, -, character, decoded, under⟩ := Report.diagnostic_caret failed
  have first : (Utf8.decodeLossy (source.drop 5)).head? = some 'E' := by decide +kernel
  rw [decoded] at first
  refine ⟨failed, report.trans (by decide +kernel), ?_⟩
  exact under.trans first

end Chiptune
