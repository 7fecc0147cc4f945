import Chiptune.Proofs.Notation.Names
import Chiptune.Proofs.TwoPass.Image

/-! The text of a program in song notation is read as one statement for each of its lines: the
statements of its instructions, with a label before each of them that is a target.
-/

namespace Chiptune

open Ascii Token
namespace StatementList

def append (first : List PlacedStatement) (rest : StatementList) : StatementList :=
  { rest with placed := first ++ rest.placed }

/-- Tokens of the given kinds are read as the given statements, whatever follows. -/
def Reads (kinds : List TokenKind) (read : List Statement) : Prop :=
  ∀ (tokens rest : List Token), tokens.map (·.kind) = kinds →
    ∃ placed,
      PlacedStatement.statements placed = read
      ∧ ofTokens (tokens ++ rest) = append placed (ofTokens rest)

namespace Reads

theorem nil : Reads [] [] :=
  fun tokens rest none => ⟨[], rfl, by rw [List.map_eq_nil_iff.mp none]; rfl⟩

/-- What is read as statements on its own is also read so in front of something. -/
theorem concat {kinds later : List TokenKind} {read more : List Statement}
    (left : Reads kinds read) (right : Reads later more)
    : Reads (kinds ++ later) (read ++ more) := by
  intro tokens rest same
  obtain ⟨first, second, rfl, sameFirst, sameSecond⟩ := List.map_eq_append_iff.mp same
  obtain ⟨placed, sameRead, reading⟩ := left first (second ++ rest) sameFirst
  obtain ⟨placedLater, sameMore, readingLater⟩ := right second rest sameSecond
  refine ⟨placed ++ placedLater, by simp [sameRead, sameMore], ?_⟩
  rw [List.append_assoc, reading, readingLater]
  simp [append]

theorem single {kind : TokenKind} {statement : Statement} (bare : statement.hasArgument = false)
    (read : ∀ head, head.kind = kind → Statement.ofTokens? head none = .ok (some statement))
    : Reads [kind, .newline] [statement] := by
  intro tokens rest same
  obtain ⟨head, tail, rfl, sameHead, sameTail⟩ := List.map_eq_cons_iff.mp same
  obtain ⟨⟨_, place⟩, rfl, rfl⟩ := List.map_eq_singleton_iff.mp sameTail
  refine ⟨[⟨statement, head.position⟩], rfl, ?_⟩
  have first := read head sameHead
  have noArgument : Statement.argumentOf (⟨.newline, place⟩ :: rest) = none := rfl
  have lineBreak : ofTokens (⟨.newline, place⟩ :: rest) = ofTokens rest := rfl
  rw [List.cons_append, List.singleton_append, ofTokens, noArgument, first]
  simp only [bare, lineBreak]
  rfl

/-- Two words at the end of a line are read as a statement with its argument. -/
theorem pair {kind argument : TokenKind} {statement : Statement}
    (takes : statement.hasArgument) (sameLine : argument.endsLine = false)
    (read
      : ∀ head next, head.kind = kind → next.kind = argument →
          Statement.ofTokens? head (some next) = .ok (some statement))
    : Reads [kind, argument, .newline] [statement] := by
  intro tokens rest same
  obtain ⟨head, tail, rfl, sameHead, sameTail⟩ := List.map_eq_cons_iff.mp same
  obtain ⟨next, others, rfl, sameNext, sameOthers⟩ := List.map_eq_cons_iff.mp sameTail
  obtain ⟨⟨_, place⟩, rfl, rfl⟩ := List.map_eq_singleton_iff.mp sameOthers
  refine ⟨[⟨statement, head.position⟩], rfl, ?_⟩
  have first := read head next sameHead sameNext
  have hasArgument (later) : Statement.argumentOf (next :: later) = some next := by
    rw [Statement.argumentOf, sameNext, sameLine]
    rfl
  have lineBreak : ofTokens (⟨.newline, place⟩ :: rest) = ofTokens rest := rfl
  rw [List.cons_append, List.cons_append, List.singleton_append, ofTokens, hasArgument, first]
  simp only [takes, if_true, lineBreak]
  rfl

end Reads

end StatementList

open StatementList (Reads)

-----------------------------------------------------------------------------------------
-- Text
-----------------------------------------------------------------------------------------

/-- A text in ASCII characters is read as the given statements, wherever it stands. -/
structure Spells (text : List Char) (read : List Statement) : Prop where
  isAscii : ∀ c ∈ text, IsAscii c
  kinds : ∃ kinds, Scans (encode text) kinds ∧ Reads kinds read

namespace Spells

/-- The empty text is read as no statements. -/
theorem nil : Spells [] [] :=
  ⟨by simp, [], Scans.nil, Reads.nil⟩

/-- The statements of a concatenation are those of its parts. -/
theorem append {first second : List Char} {read later : List Statement}
    (left : Spells first read) (right : Spells second later)
    : Spells (first ++ second) (read ++ later) := by
  obtain ⟨asciiFirst, kinds, scans, reads⟩ := left
  obtain ⟨asciiSecond, kindsLater, scansLater, readsLater⟩ := right
  refine ⟨fun c member => ?_, kinds ++ kindsLater, ?_, reads.concat readsLater⟩
  · exact (List.mem_append.mp member).elim (asciiFirst c) (asciiSecond c)
  · rw [encode_append]
    exact scans.append scansLater

/-- Blanks in front of a text are read as nothing. -/
theorem indented {text : List Char} {read : List Statement} (spells : Spells text read)
    (count : Nat)
    : Spells (List.replicate count ' ' ++ text) read := by
  refine append ⟨fun c member => ?_, [], Scans.spaces count, Reads.nil⟩ spells
  obtain rfl := List.eq_of_mem_replicate member
  decide

theorem oneWord {word : String} {kind : TokenKind} {statement : Statement}
    (lexeme : Lexeme word.toList) (same : TokenKind.ofWord word = kind)
    (bare : statement.hasArgument = false)
    (read : ∀ head, head.kind = kind → Statement.ofTokens? head none = .ok (some statement))
    : Spells (word.toList ++ ['\n']) [statement] := by
  refine ⟨fun c member => ?_, [kind, .newline], ?_, .single bare read⟩
  · rcases List.mem_append.mp member with inWord | last
    · exact lexeme.isAscii c inWord
    · rw [List.mem_singleton.mp last]
      decide
  · have scans := lexeme.scans (by decide) Scans.lineBreak
    rw [String.ofList_toList, same] at scans
    rw [encode_append]
    exact scans

/-- A line of two words is read as a statement with its argument. -/
theorem twoWords {word argument : String} {kind kindArgument : TokenKind} {statement : Statement}
    (lexeme : Lexeme word.toList) (same : TokenKind.ofWord word = kind)
    (lexemeArgument : Lexeme argument.toList)
    (sameArgument : TokenKind.ofWord argument = kindArgument)
    (takes : statement.hasArgument) (sameLine : kindArgument.endsLine = false)
    (read
      : ∀ head next, head.kind = kind → next.kind = kindArgument →
          Statement.ofTokens? head (some next) = .ok (some statement))
    : Spells ((word ++ " " ++ argument).toList ++ ['\n']) [statement] := by
  have text : (word ++ " " ++ argument).toList ++ ['\n']
      = (word.toList ++ [' ']) ++ (argument.toList ++ ['\n']) := by
    simp [String.toList_append]
  rw [text]
  refine ⟨fun c member => ?_, [kind, kindArgument, .newline], ?_, .pair takes sameLine read⟩
  · simp only [List.mem_append, List.mem_singleton] at member
    rcases member with (first | rfl) | second | rfl
    · exact lexeme.isAscii c first
    · decide
    · exact lexemeArgument.isAscii c second
    · decide
  · have scans : Scans (encode word.toList ++ [0x20]) _ :=
      lexeme.scans (by decide) (.blank (by decide))
    have scansArgument := lexemeArgument.scans (by decide) Scans.lineBreak
    rw [String.ofList_toList, same] at scans
    rw [String.ofList_toList, sameArgument] at scansArgument
    rw [encode_append, encode_append, encode_append]
    exact scans.append scansArgument

end Spells

-----------------------------------------------------------------------------------------
-- Instructions and labels
-----------------------------------------------------------------------------------------

/-- A reserved word is scanned as itself, by cases. -/
theorem Keyword.ofWord_spelling (keyword : Keyword)
    : Lexeme keyword.spelling.toList ∧ TokenKind.ofWord keyword.spelling = .keyword keyword := by
  cases keyword <;> decide +kernel

namespace Statement

variable {position : Position} {next : Token}

theorem lengthOf_name {length : Length} (subject : String) (same : next.kind = .word length.name)
    : lengthOf subject position (some next) = .ok length := by
  simp only [lengthOf, same, lengthText, (Length.parse?_name length).2]

/-- The name of a length makes a note of any frequency above zero. -/
theorem noteOf_name {frequency : UInt32} {length : Length} (subject : String)
    (positive : 1 ≤ frequency.toNat) (same : next.kind = .word length.name)
    : noteOf frequency subject position (some next) = .ok (.note frequency length) := by
  have nonzero : frequency ≠ 0 := by
    rintro rfl
    cases positive
  rw [noteOf, if_neg nonzero, lengthOf_name subject same]
  rfl

theorem labelOf_labelName {target : Nat} (directive : Keyword)
    (same : next.kind = .word (Notation.labelName target))
    : labelOf directive position (some next) = .ok (Notation.labelName target) := by
  obtain ⟨_, _⟩ := next
  obtain rfl := same
  simp only [labelOf, (Notation.labelName_isWord target).2, if_true]

theorem numberOf_number {value : UInt32} (directive : Keyword) (same : next.kind = .number value)
    : numberOf directive position (some next) = .ok value := by
  obtain ⟨_, _⟩ := next
  obtain rfl := same
  rfl

/-- What a directive reads is a statement if its token starts one. -/
theorem ofTokens?_keyword {head : Token} {argument : Option Token} {directive : Keyword}
    {statement : Statement} (same : head.kind = .keyword directive)
    (read : ofDirective directive head.position argument = .ok statement)
    : ofTokens? head argument = .ok (some statement) := by
  simp only [ofTokens?, same, read]
  rfl

end Statement

/-- The statement that stands for an instruction in notation. -/
def Instruction.toStatement : Instruction → Statement
  | .note frequency length => .note frequency length
  | .rest length => .rest length
  | .tempo beats => .tempo beats
  | .jump target => .jump (Notation.labelName target)
  | .call target => .call (Notation.labelName target)
  | .comeBack => .comeBack
  | .repeatOpen count _ => .repeatOpen count
  | .repeatClose _ => .repeatClose
  | .breakpoint => .breakpoint

namespace Notation

open Statement (ofTokens? ofDirective lengthOf_name noteOf_name labelOf_labelName numberOf_number
  ofTokens?_keyword)

/-- The line of a note is read as that note, by cases on whether its frequency has a name. -/
theorem spells_note {frequency : UInt32} (positive : 1 ≤ frequency.toNat) (length : Length)
    : Spells ((statement (.note frequency length)).toList ++ ['\n'])
        [.note frequency length] := by
  obtain ⟨isLength, _⟩ := Length.parse?_name length
  simp only [statement, pitch]
  cases named : Pitch.name? frequency with
  | none =>
      refine .twoWords (lexeme_toString frequency) (TokenKind.ofWord_toString frequency)
        isLength.lexeme isLength.kind rfl rfl fun head next same sameNext => ?_
      simp only [ofTokens?, same, noteOf_name _ positive sameNext]
      rfl
  | some name =>
      obtain ⟨isName, parsed⟩ := Pitch.parse?_of_name? named
      refine .twoWords isName.lexeme isName.kind isLength.lexeme isLength.kind rfl rfl
        fun head next same sameNext => ?_
      simp only [ofTokens?, same, parsed, noteOf_name _ positive sameNext]
      rfl

theorem spells_directive (directive : Keyword) {argument : String} {kind : TokenKind}
    {statement : Statement} (lexeme : Lexeme argument.toList)
    (same : TokenKind.ofWord argument = kind) (takes : statement.hasArgument)
    (sameLine : kind.endsLine = false)
    (read
      : ∀ position next, next.kind = kind →
          ofDirective directive position (some next) = .ok statement)
    : Spells ((directive.spelling ++ " " ++ argument).toList ++ ['\n']) [statement] := by
  obtain ⟨lexemeDirective, kindDirective⟩ := Keyword.ofWord_spelling directive
  exact .twoWords lexemeDirective kindDirective lexeme same takes sameLine
    fun _ next sameHead sameNext => ofTokens?_keyword sameHead (read _ next sameNext)

theorem spells_bare (directive : Keyword) {statement : Statement}
    (bare : statement.hasArgument = false)
    (read : ∀ position, ofDirective directive position none = .ok statement)
    : Spells (directive.spelling.toList ++ ['\n']) [statement] := by
  obtain ⟨lexeme, kind⟩ := Keyword.ofWord_spelling directive
  exact .oneWord lexeme kind bare fun head same => ofTokens?_keyword same (read _)

/-- The line of an instruction is read as its statement, by cases. -/
theorem spells_statement {instruction : Instruction} {size : Nat}
    (permitted : instruction.Permitted size)
    : Spells ((statement instruction).toList ++ ['\n']) [instruction.toStatement] := by
  cases instruction with
  | note frequency length => exact spells_note permitted length
  | rest length =>
      obtain ⟨isLength, _⟩ := Length.parse?_name length
      refine spells_directive .rest isLength.lexeme isLength.kind rfl rfl
        fun position next same => ?_
      rw [ofDirective, lengthOf_name _ same]
      rfl
  | tempo beats =>
      refine spells_directive .tempo (lexeme_toString beats)
        (TokenKind.ofWord_toString beats) rfl rfl fun position next same => ?_
      have nonzero : beats ≠ 0 := by
        rintro rfl
        cases permitted.1
      simp only [ofDirective, numberOf_number _ same]
      rw [if_neg (by simp [nonzero, permitted.2])]
      rfl
  | repeatOpen count exit =>
      refine spells_directive .repeatOpen (lexeme_toString count)
        (TokenKind.ofWord_toString count) rfl rfl fun position next same => ?_
      rw [ofDirective, numberOf_number _ same]
      rfl
  | jump target =>
      obtain ⟨isWord, _⟩ := labelName_isWord target
      refine spells_directive .jump isWord.lexeme isWord.kind rfl rfl
        fun position next same => ?_
      rw [ofDirective, labelOf_labelName _ same]
      rfl
  | call target =>
      obtain ⟨isWord, _⟩ := labelName_isWord target
      refine spells_directive .call isWord.lexeme isWord.kind rfl rfl
        fun position next same => ?_
      rw [ofDirective, labelOf_labelName _ same]
      rfl
  | comeBack => exact spells_bare .comeBack rfl fun _ => rfl
  | repeatClose body => exact spells_bare .repeatClose rfl fun _ => rfl
  | breakpoint => exact spells_bare .breakpoint rfl fun _ => rfl

theorem spells_label (target : Nat)
    : Spells (("LABEL " ++ labelName target).toList ++ ['\n']) [.label (labelName target)] := by
  obtain ⟨isWord, _⟩ := labelName_isWord target
  refine spells_directive .label isWord.lexeme isWord.kind rfl rfl
    fun position next same => ?_
  rw [ofDirective, labelOf_labelName _ same]
  rfl

-----------------------------------------------------------------------------------------
-- Programs
-----------------------------------------------------------------------------------------

def labelAt (labelled : Nat → Bool) (index : Nat) : List Statement :=
  if labelled index then [.label (labelName index)] else []

/-- The statements of the instructions from `index` on, each after its label. -/
def statementsFrom (labelled : Nat → Bool) (index : Nat) : List Instruction → List Statement
  | [] => []
  | instruction :: rest =>
    labelAt labelled index
      ++ instruction.toStatement :: statementsFrom labelled (index + 1) rest

/-- The statements of a program: those of its instructions, and a label at its end if there is
one.
-/
def statements (program : Program) : List Statement :=
  let code := program.code.toList
  statementsFrom (isTarget code) 0 code ++ labelAt (isTarget code) code.length

def textOf (lines : List String) : List Char :=
  lines.flatMap fun line => line.toList ++ ['\n']

theorem spells_labelLine (labelled : Nat → Bool) (index depth : Nat)
    : Spells (textOf (labelLine labelled index depth)) (labelAt labelled index) := by
  unfold labelLine labelAt
  split
  · simpa [textOf, indent, String.toList_append] using (spells_label index).indented (2 * depth)
  · exact Spells.nil

/-- The lines of permitted instructions are read as their statements, by induction on them. -/
theorem spells_linesFrom (labelled : Nat → Bool) {code : List Instruction} {size : Nat}
    (permitted : ∀ instruction ∈ code, instruction.Permitted size) (index depth : Nat)
    : Spells (textOf (linesFrom labelled index depth code))
        (statementsFrom labelled index code ++ labelAt labelled (index + code.length)) := by
  induction code generalizing index depth with
  | nil => exact spells_labelLine labelled index 0
  | cons instruction rest ih =>
      obtain ⟨first, later⟩ := List.forall_mem_cons.mp permitted
      have label := spells_labelLine labelled index depth
      have line (own : Nat) := (spells_statement first).indented (2 * own)
      have following (next : Nat) := ih later (index + 1) next
      have shape (own next : Nat) := label.append ((line own).append (following next))
      simp only [textOf, linesFrom, statementsFrom]
      simpa [textOf, indent, String.toList_append, Nat.add_comm, Nat.add_left_comm]
        using shape _ _

/-- A program with permitted instructions is written as a text that is read as its statements. -/
theorem spells_render {program : Program} {size : Nat}
    (permitted : ∀ instruction ∈ program.code.toList, instruction.Permitted size)
    : Spells (render program).toList (statements program) := by
  have spells := spells_linesFrom (isTarget program.code.toList) permitted 0 0
  simpa [textOf, render, lines, String.toList_join, List.flatMap_map, statements] using spells

end Notation

/-- The bytes of a text that is read as some statements have just these statements. -/
theorem Spells.scan {text : String} {read : List Statement} (spells : Spells text.toList read)
    : ∃ tokens placed,
        Token.scan text.toUTF8.toList = .ok tokens
        ∧ StatementList.ofTokens tokens = ⟨placed, none⟩
        ∧ PlacedStatement.statements placed = read := by
  obtain ⟨isAscii, kinds, scans, reads⟩ := spells
  obtain ⟨there, tokens, sameKinds, scanned⟩ := scans [] .start
  obtain ⟨placed, sameRead, reading⟩ := reads tokens [⟨.endOfInput, there⟩] sameKinds
  rw [List.append_nil] at scanned
  refine ⟨tokens ++ [⟨.endOfInput, there⟩], placed, ?_, ?_, sameRead⟩
  · rw [toUTF8_of_isAscii isAscii, Token.scan, scanned]
    rfl
  · rw [reading]
    simp [StatementList.append, StatementList.ofTokens, Statement.ofTokens?]

end Chiptune
