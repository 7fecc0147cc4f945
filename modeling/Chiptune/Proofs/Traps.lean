import Chiptune.Proofs.Layout.Dividing
import Chiptune.Proofs.Notation.Pitches

/-! The operations without a result that a compiler comes to. There is one: the sum of the highest
octave that can be written and the one that B sharp adds to it. The compiler comes to it where a
word for this pitch starts a statement, unless the song is rejected for what stands before.
-/

namespace Chiptune

namespace Statement

variable {argument : Option Token}

/-- Reading a statement comes to no result if it starts with the word for the pitch that overflows,
by cases on the first token.
-/
theorem ofTokens?_eq_trapped_iff {head : Token} {trap : Trap}
    : ofTokens? head argument = .error (.trapped trap)
      ↔ trap = Pitch.Spelling.octaveTrap
        ∧ ∃ text, head.kind = .word text ∧ Pitch.Spells text .overflowing := by
  have note (frequency : UInt32) (subject : String)
      : RejectsAt (fun _ => True) (noteOf frequency subject head.position argument) :=
    rejectsAt_noteOf frequency subject trivial fun _ _ => trivial
  unfold ofTokens?
  cases kind : head.kind with
  | keyword directive =>
      have rejects : RejectsAt (fun _ => True) (ofDirective directive head.position argument) :=
        rejectsAt_ofDirective directive trivial fun _ _ => trivial
      refine iff_of_false ((rejects.map some).ne_trapped trap) ?_
      rintro ⟨-, text, ⟨⟩, -⟩
  | number frequency =>
      refine iff_of_false (((note frequency _).map some).ne_trapped trap) ?_
      rintro ⟨-, text, ⟨⟩, -⟩
  | newline | endOfInput =>
      constructor
      · rintro ⟨⟩
      · rintro ⟨-, text, ⟨⟩, -⟩
  | word text =>
      dsimp only
      rcases read : Pitch.parse? text with found | _ | frequency
      · obtain ⟨spells, rfl⟩ := Pitch.parse?_eq_error_iff.mp read
        simp only [Except.error.injEq, CompileFailure.trapped.injEq, TokenKind.word.injEq]
        constructor
        · rintro rfl
          exact ⟨rfl, text, rfl, spells⟩
        · exact fun trapped => trapped.1.symm
      · constructor
        · rintro ⟨⟩
        · rintro ⟨-, other, ⟨⟩, spells⟩
          cases read.symm.trans (Pitch.parse?_overflowing spells)
      · refine iff_of_false (((note frequency text).map some).ne_trapped trap) ?_
        rintro ⟨-, other, ⟨⟩, spells⟩
        cases read.symm.trans (Pitch.parse?_overflowing spells)

end Statement

-----------------------------------------------------------------------------------------
-- Programs
-----------------------------------------------------------------------------------------

namespace TwoPass

/-- Two passes come to no result if reading does, unless one of the statements before is at fault. -/
theorem program_eq_trapped_iff {list : StatementList} {trap : Trap}
    : program list = .error (.trapped trap)
      ↔ list.malformed = some (.trapped trap) ∧ firstFault? list.placed = none := by
  rw [program, failure?]
  cases firstFault? list.placed with
  | some error => simp
  | none =>
      cases list.malformed with
      | some failure => simp
      | none =>
          cases lastUnclosed? list.placed <|> firstUndefined? list.placed <;> simp

end TwoPass

namespace Program

/-- Reading a length comes to a result for every word. Reading a pitch does so for all words but
those for B sharp of the highest octave that can be written, because the type of octaves does not
hold the next one. Compiling a song comes to no result exactly if such a word starts a statement of
it, and the statements before neither close a loop that is not open nor define a label twice.
-/
theorem compile_trapped_iff (word : String) (source : List UInt8) (trap : Trap)
    : (∃ length?, Length.parse? word = .ok length?)
      ∧ (Pitch.parse? word = .error trap
        ↔ Pitch.Spells word .overflowing ∧ trap = Pitch.Spelling.octaveTrap)
      ∧ (compile source = .error (.trapped trap)
        ↔ trap = Pitch.Spelling.octaveTrap
          ∧ ∃ before text place after statements,
              Token.scan source = .ok (before ++ ⟨.word text, place⟩ :: after)
              ∧ Pitch.Spells text .overflowing
              ∧ Divides (before.map (·.kind)) statements
              ∧ ∀ context ∈ TwoPass.contexts [] statements, TwoPass.fault? context = none) := by
  refine ⟨Length.exists_parse?_eq word, Pitch.parse?_eq_error_iff, ?_⟩
  cases scanned : Token.scan source with
  | error stray =>
      rw [compile_of_stray scanned]
      constructor
      · rintro ⟨⟩
      · rintro ⟨-, before, text, place, after, statements, ⟨⟩, -⟩
  | ok tokens =>
      rw [compile_of_scan scanned, ofTokens_eq_program, TwoPass.program_eq_trapped_iff,
        StatementList.malformed_eq_some_iff, TwoPass.firstFault?_eq_none_iff]
      simp only [Statement.ofTokens?_eq_trapped_iff, Except.ok.injEq]
      constructor
      · rintro ⟨⟨before, ⟨kind, place⟩, after, split, divides, same, text, rfl, spells⟩, noFault⟩
        exact ⟨same, before, text, place, after, _, split, spells, divides, noFault⟩
      · rintro ⟨same, before, text, place, after, statements, rfl, spells, divides, noFault⟩
        have wrong
            : Statement.ofTokens? ⟨.word text, place⟩ (Statement.argumentOf after)
              = .error (.trapped trap) :=
          Statement.ofTokens?_eq_trapped_iff.mpr ⟨same, text, rfl, spells⟩
        have read : (StatementList.ofTokens (before ++ ⟨.word text, place⟩ :: after)).statements
            = statements := by
          rw [(StatementList.ofTokens_append divides _).2, StatementList.ofTokens, wrong]
          exact List.append_nil statements
        rw [StatementList.statements] at read
        rw [StatementList.statements, read]
        exact ⟨⟨before, ⟨.word text, place⟩, after, rfl, divides, same, text, rfl, spells⟩, noFault⟩

/-- A song with this note has its tokens, and compiling it stops at a sum that the type of octaves
does not hold.
-/
theorem compile_trapped_sharp
    : let song := Ascii.encode "B#2147483647 Q".toList
      (Token.scan song).isOk
      ∧ compile song = .error (.trapped (.outOfRange .i32 2147483648)) := by
  decide +kernel

end Program

end Chiptune
