import Chiptune.Proofs.Layout.Moving
import Chiptune.Proofs.LineByLine.Words
import Chiptune.Proofs.Scanning

/-! Line breaks with a carriage return. A text compiles to the same program with or without them,
or has the same error on the same line and in the same column; only its offset counts the bytes
that were added.
-/

namespace Chiptune

open Ascii (newline slash isBlank isGraphic)
open Token (scanFrom startsComment wordAt lineAt below Front)

/-- A text with a carriage return before each of its line breaks. -/
def withReturns (source : List UInt8) : List UInt8 :=
  source.flatMap fun byte => if byte = newline then [0x0d, newline] else [byte]

/-- The place in a text with returns: a byte more stands before it for each line above. -/
def Position.withReturns (position : Position) : Position :=
  { position with offset := position.offset + (position.line - 1) }

section Bytes

variable {byte : UInt8} {rest line : List UInt8}

theorem withReturns_newline (rest : List UInt8)
    : withReturns (newline :: rest) = 0x0d :: newline :: withReturns rest := rfl

theorem withReturns_cons (notBreak : byte ≠ newline) (rest : List UInt8)
    : withReturns (byte :: rest) = byte :: withReturns rest := by
  rw [withReturns, List.flatMap_cons, if_neg notBreak]
  rfl

/-- Nothing is added to the bytes of one line, by induction on them. -/
theorem withReturns_append (noBreak : newline ∉ line) (rest : List UInt8)
    : withReturns (line ++ rest) = line ++ withReturns rest := by
  induction line with
  | nil => rfl
  | cons byte line ih =>
      rw [List.mem_cons, not_or] at noBreak
      rw [List.cons_append, withReturns_cons (Ne.symm noBreak.1), ih noBreak.2, List.cons_append]

theorem slash_prefix_withReturns : [slash] <+: withReturns rest ↔ [slash] <+: rest := by
  cases rest with
  | nil => exact Iff.rfl
  | cons byte rest =>
      by_cases broken : byte = newline
      · subst broken
        exact iff_of_false (by simp [withReturns_newline, slash]) (by simp [slash, newline])
      · rw [withReturns_cons broken, List.cons_prefix_cons, List.cons_prefix_cons]
        simp

theorem startsComment_withReturns
    : startsComment (byte :: withReturns rest) = startsComment (byte :: rest) := by
  rw [Bool.eq_iff_iff, Token.startsComment_cons_iff, Token.startsComment_cons_iff,
    slash_prefix_withReturns]

/-- A word ends at a line break with or without a return, by induction on the bytes. -/
theorem wordAt_withReturns (bytes : List UInt8) : wordAt (withReturns bytes) = wordAt bytes := by
  induction bytes with
  | nil => rfl
  | cons byte rest ih =>
      by_cases broken : byte = newline
      · subst broken
        rfl
      · rw [withReturns_cons broken, wordAt, wordAt, startsComment_withReturns, ih]

end Bytes

-----------------------------------------------------------------------------------------
-- Scanning
-----------------------------------------------------------------------------------------

/-- Two scans give tokens that are moved in the same way, or errors that are. -/
def ScansMoved (f : Position → Position)
    : (result other : Except CompileError (List Token)) → Prop
  | .ok tokens, .ok others => List.Forall₂ (Token.IsMoved f) tokens others
  | .error error, .error other => other = { error with position := f error.position }
  | _, _ => False

theorem ScansMoved.cons {f : Position → Position} {token other : Token}
    {result otherResult : Except CompileError (List Token)} (first : token.IsMoved f other)
    (later : ScansMoved f result otherResult)
    : ScansMoved f (result.map (token :: ·)) (otherResult.map (other :: ·)) := by
  cases result with
  | error error => cases otherResult <;> exact later
  | ok tokens =>
      cases otherResult with
      | error error => exact later
      | ok others => exact List.Forall₂.cons first later

/-- A text with returns is scanned from a place on as the text without them. -/
def ScansAlike (here : Position) (rest : List UInt8) : Prop :=
  ScansMoved Position.withReturns (scanFrom 0 here rest)
    (scanFrom 0 here.withReturns (withReturns rest))

theorem Position.withReturns_right (here : Position) (count : Nat)
    : (here.right count).withReturns = here.withReturns.right count := by
  simp only [withReturns, right, Nat.add_right_comm]

namespace ScansAlike

variable {here : Position} {byte : UInt8} {rest : List UInt8}

theorem last (here : Position) : ScansAlike here [] :=
  List.Forall₂.cons ⟨rfl, nofun⟩ .nil

/-- The two texts agree again at the start of the next line, for the break counts one byte more. -/
theorem lineBreak (here : Position) (started : 1 ≤ here.line)
    (later : ScansAlike here.nextLine rest)
    : ScansMoved Position.withReturns (scanFrom 0 here (newline :: rest))
        (scanFrom 0 (here.withReturns.right 1) (newline :: withReturns rest)) := by
  have next : (here.withReturns.right 1).nextLine = here.nextLine.withReturns := by
    simp only [Position.withReturns, Position.right, Position.nextLine, Position.mk.injEq, and_true]
    omega
  rw [Token.scanFrom_newline, Token.scanFrom_newline, next]
  exact .cons ⟨rfl, fun same => by cases same⟩ later

/-- A comment hides the return at its end, as it hides the rest of its line. -/
theorem comment (started : 1 ≤ here.line) (starts : startsComment (byte :: rest))
    (notBreak : byte ≠ newline)
    (goesOn : ∀ line later, rest = line ++ newline :: later →
      ScansAlike (here.right (line.length + 1)).nextLine later)
    : ScansAlike here (byte :: rest) := by
  have otherStarts := startsComment_withReturns.trans starts
  rw [ScansAlike, withReturns_cons notBreak, Token.scanFrom_comment here starts,
    Token.scanFrom_comment here.withReturns otherStarts]
  by_cases broken : newline ∈ rest
  · obtain ⟨line, later, rfl, noBreak⟩ := List.eq_append_cons_of_mem broken
    have noBreakEither : newline ∉ line ++ [0x0d] := by
      simpa [newline] using noBreak
    have split : withReturns (line ++ newline :: later)
        = (line ++ [0x0d]) ++ newline :: withReturns later := by
      rw [withReturns_append noBreak, withReturns_newline, List.append_assoc]
      rfl
    have ends := LineByLine.EndsLine.newline
    have place : here.withReturns.right (line.length + 1 + 1)
        = (here.right (line.length + 1)).withReturns.right 1 := by
      rw [Position.withReturns_right, Position.right_right]
    rw [split, Token.below_append_of_notMem noBreak, Token.below_append_of_notMem noBreakEither,
      (ends _).lineAt_append noBreak, (ends _).lineAt_append noBreakEither, List.length_append,
      List.length_singleton, place]
    exact lineBreak (here.right (line.length + 1)) started (goesOn line later rfl)
  · have whole : withReturns rest = rest := by
      rw [← List.append_nil rest, withReturns_append broken]
      rfl
    have atEnd : below rest = [] := by
      rw [← List.append_nil rest, Token.below_append_of_notMem broken]
      rfl
    rw [whole, atEnd, ← Position.withReturns_right]
    exact last _

end ScansAlike

/-- A text is scanned alike with and without returns, by induction on the bytes that are left. -/
theorem scansAlike {here : Position} (started : 1 ≤ here.line) (rest : List UInt8)
    : ScansAlike here rest := by
  induction length : rest.length using Nat.strongRecOn generalizing rest here with
  | ind bound ih =>
  subst length
  cases rest with
  | nil => exact .last here
  | cons byte rest =>
      have goesOn (there : Position) (started : 1 ≤ there.line) (run later : List UInt8)
          (split : rest = run ++ later)
          : ScansAlike there later := by
        refine ih later.length ?_ started later rfl
        rw [split, List.length_cons, List.length_append]
        omega
      cases Token.front byte rest with
      | newline =>
          rw [ScansAlike, withReturns_newline,
            Token.scanFrom_blank here.withReturns (show isBlank 0x0d by decide)]
          have later := goesOn here.nextLine (Nat.le_add_left 1 _) [] rest rfl
          exact ScansAlike.lineBreak here started later
      | blank blank =>
          rw [ScansAlike, withReturns_cons (Token.ne_newline_of_isBlank blank),
            Token.scanFrom_blank _ blank, Token.scanFrom_blank _ blank,
            ← Position.withReturns_right]
          exact goesOn (here.right 1) started [] rest rfl
      | comment starts =>
          obtain ⟨rfl, -⟩ := Token.startsComment_cons_iff.mp starts
          refine .comment started starts (by decide) fun line later split => ?_
          exact goesOn _ (Nat.le_add_left 1 _) (line ++ [newline]) later (by simp [split])
      | @word _ word later atFront =>
          have noBreak : newline ∉ byte :: word := by
            rw [← atFront]
            exact fun member =>
              Token.ne_newline_of_isGraphic (LineByLine.isGraphic_of_mem_wordAt member) rfl
          have split
              : withReturns (byte :: (word ++ later)) = byte :: (word ++ withReturns later) :=
            withReturns_append noBreak later
          have otherAtFront := (wordAt_withReturns (byte :: (word ++ later))).trans atFront
          rw [split] at otherAtFront
          rw [ScansAlike, split, Token.scanFrom_word _ atFront, Token.scanFrom_word _ otherAtFront,
            ← Position.withReturns_right]
          have behind := goesOn (here.right (word.length + 1)) started word later rfl
          exact .cons ⟨rfl, fun _ => rfl⟩ behind
      | stray notBreak notBlank noComment notGraphic =>
          rw [ScansAlike, withReturns_cons notBreak,
            Token.scanFrom_stray _ notBreak notBlank noComment notGraphic,
            Token.scanFrom_stray _ notBreak notBlank
              (startsComment_withReturns.trans noComment) notGraphic]
          rfl

/-- Returns before the line breaks change nothing but the offset of an error. -/
theorem Program.compile_withReturns (source : List UInt8)
    : compile (withReturns source) = movedError Position.withReturns (compile source) := by
  have scans : ScansMoved Position.withReturns (Token.scan source)
      (Token.scan (withReturns source)) :=
    scansAlike (Nat.le_refl 1) source
  cases scanned : Token.scan source with
  | error error =>
      cases otherScanned : Token.scan (withReturns source) with
      | error other =>
          rw [scanned, otherScanned] at scans
          rw [compile_of_stray scanned, compile_of_stray otherScanned]
          exact congrArg (Except.error <| CompileFailure.rejected ·) scans
      | ok others =>
          rw [scanned, otherScanned] at scans
          exact scans.elim
  | ok tokens =>
      cases otherScanned : Token.scan (withReturns source) with
      | error other =>
          rw [scanned, otherScanned] at scans
          exact scans.elim
      | ok others =>
          rw [scanned, otherScanned] at scans
          rw [compile_of_scan scanned, compile_of_scan otherScanned]
          exact ofTokens_of_isMoved Position.withReturns scans

end Chiptune
