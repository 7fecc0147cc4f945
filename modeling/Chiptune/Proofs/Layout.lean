import Chiptune.Proofs.Layout.Returns
import Chiptune.Proofs.Layout.Scanning
import Mathlib.Logic.Relation

/-! The layout of a song does not matter. Blanks, empty lines and comments can be changed at will,
and most line breaks too, and the song still compiles to the same program.
-/

namespace Chiptune

open Ascii (newline slash isBlank)
open LineByLine (EndsLine)
open Token (below Apart ScansTo)

-----------------------------------------------------------------------------------------
-- Edits
-----------------------------------------------------------------------------------------

/-- A change of the layout of a text. -/
inductive Edit : List UInt8 → List UInt8 → Prop
  /-- Some blanks become others. -/
  | blanks (before after : List UInt8) {run other : List UInt8}
    (areBlank : ∀ byte ∈ run, isBlank byte) (otherBlank : ∀ byte ∈ other, isBlank byte)
    (nonempty : run ≠ []) (otherNonempty : other ≠ [])
    : Edit (before ++ run ++ after) (before ++ other ++ after)
  /-- Blanks are added at the end of a line. -/
  | blanksBeforeBreak (before after : List UInt8) {run : List UInt8}
    (areBlank : ∀ byte ∈ run, isBlank byte)
    : Edit (before ++ newline :: after) (before ++ run ++ newline :: after)
  /-- Blanks are added at the start of a line. -/
  | blanksAfterBreak (before after : List UInt8) {run : List UInt8}
    (areBlank : ∀ byte ∈ run, isBlank byte)
    : Edit (before ++ newline :: after) (before ++ newline :: run ++ after)
  /-- A comment is added at the end of a line, after a blank. -/
  | addComment (before : List UInt8) {blank : UInt8} {text after : List UInt8}
    (isBlank : isBlank blank) (noBreak : newline ∉ text) (ends : EndsLine after)
    : Edit (before ++ after) (before ++ blank :: slash :: slash :: text ++ after)
  /-- A comment is removed, from the two slashes that start it. -/
  | removeComment {before text after : List UInt8} (starts : ¬ Commented (before ++ [slash]))
    (noBreak : newline ∉ text) (ends : EndsLine after)
    : Edit (before ++ slash :: slash :: text ++ after) (before ++ after)
  /-- The text of a comment is changed, from some place in the comment on. -/
  | changeComment {before text other after : List UInt8} (inside : Commented before)
    (noBreak : newline ∉ text) (otherNoBreak : newline ∉ other) (ends : EndsLine after)
    : Edit (before ++ text ++ after) (before ++ other ++ after)
  /-- An empty line is added. -/
  | emptyLine (before after : List UInt8)
    : Edit (before ++ newline :: after) (before ++ newline :: newline :: after)
  /-- Every line break gets a carriage return. -/
  | returns (source : List UInt8) : Edit source (withReturns source)
  /-- A line that has no comment is joined with the next one. -/
  | join {before : List UInt8} (after : List UInt8) (noComment : ¬ Commented before)
    : Edit (before ++ newline :: after) (before ++ 0x20 :: after)

-----------------------------------------------------------------------------------------
-- What an edit changes
-----------------------------------------------------------------------------------------

theorem newline_notMem_slash {text : List UInt8} (noBreak : newline ∉ text)
    : newline ∉ slash :: text :=
  List.not_mem_cons_of_ne_of_not_mem (by decide) noBreak

namespace Token.Apart

variable {before text run : List UInt8}

theorem blanks_append (areBlank : ∀ byte ∈ run, isBlank byte) (apart : Apart before text)
    : Apart before (run ++ text) := by
  cases run with
  | nil => exact apart
  | cons byte run => exact .cons_blank (areBlank byte List.mem_cons_self)

/-- The slashes that start a comment belong to no word, and the byte before them is no slash. -/
theorem comment (starts : ¬ Commented (before ++ [slash])) (rest : List UInt8)
    : Apart before (slash :: slash :: rest) := by
  refine ⟨rfl, ?_⟩
  rintro - ⟨above, rfl⟩
  exact starts ⟨above, [], by simp, by simp⟩

end Token.Apart

/-- A comment that is open has started with its first two slashes, by induction on what stands
before them.
-/
theorem Commented.exists_first {before : List UInt8} (commented : Commented before)
    : ∃ above text,
        before = above ++ slash :: slash :: text ∧ newline ∉ text
        ∧ ¬ Commented (above ++ [slash]) := by
  obtain ⟨above, text, same, noBreak⟩ := commented
  induction length : above.length using Nat.strongRecOn generalizing above text with
  | ind bound ih =>
  subst length
  by_cases earlier : Commented (above ++ [slash])
  · obtain ⟨front, middle, split, noBreakMiddle⟩ := earlier
    have lengths := congrArg List.length split
    simp only [List.length_append, List.length_cons, List.length_nil] at lengths
    refine ih front.length (by omega) front (middle ++ slash :: text) ?_ ?_ rfl
    · rw [same, ← List.singleton_append, ← List.append_assoc, split]
      simp
    · exact List.not_mem_append noBreakMiddle (newline_notMem_slash noBreak)
  · exact ⟨above, text, same, noBreak, earlier⟩

-----------------------------------------------------------------------------------------
-- What is passed over
-----------------------------------------------------------------------------------------

/-- What stands in front of the rest of a text, on the same line, forms no token. -/
structure PassesOver (source rest : List UInt8) : Prop where
  scans : ScansTo source [] rest
  below_eq : below source = below rest

namespace PassesOver

variable {source middle rest run text : List UInt8}

theorem refl (source : List UInt8) : PassesOver source source :=
  ⟨.nothing id fun _ => rfl, rfl⟩

theorem trans (first : PassesOver source middle) (second : PassesOver middle rest)
    : PassesOver source rest :=
  ⟨first.scans.trans second.scans, first.below_eq.trans second.below_eq⟩

theorem blanks (areBlank : ∀ byte ∈ run, isBlank byte) (rest : List UInt8)
    : PassesOver (run ++ rest) rest where
  scans := .blanks areBlank rest
  below_eq :=
    Token.below_append_of_notMem (fun member => absurd (areBlank newline member) (by decide)) rest

theorem comment (noBreak : newline ∉ text) (ends : EndsLine rest)
    : PassesOver (slash :: slash :: (text ++ rest)) rest where
  scans := by
    have scans : ScansTo (slash :: slash :: (text ++ rest)) [] _ := .comment rfl
    rwa [← List.cons_append, ends.below_append (newline_notMem_slash noBreak)] at scans
  below_eq :=
    Token.below_append_of_notMem (newline_notMem_slash (newline_notMem_slash noBreak)) rest

end PassesOver

namespace Extends

variable {before first second rest : List UInt8}

/-- What is passed over may be replaced by something else that is, also within a comment. -/
theorem passesOver (apart : Apart before first) (otherApart : Apart before second)
    (passes : PassesOver first rest) (otherPasses : PassesOver second rest)
    : Extends [] (before ++ first) (before ++ second) := by
  refine prepend apart otherApart (.along passes.scans otherPasses.scans (refl rest)) fun _ => ?_
  rw [passes.below_eq, otherPasses.below_eq]
  exact refl (below rest)

/-- Line ends may be added to a line break, also to one that ends a comment. -/
theorem moreBreaks {after : List UInt8} {kinds : List TokenKind}
    (scans : ScansTo (newline :: second) kinds after) (ends : ∀ kind ∈ kinds, kind.endsLine)
    : Extends [] (before ++ newline :: after) (before ++ newline :: second) :=
  prepend .cons_newline .cons_newline (.lineBreak scans ends) fun _ => .lineBreak scans ends

end Extends

-----------------------------------------------------------------------------------------
-- Compiling
-----------------------------------------------------------------------------------------

/-- A text that compiles still does after an edit, and to the same program; by cases on the edit. -/
theorem Edit.compile {source edited : List UInt8} {program : Program} (edit : Edit source edited)
    (compiled : Program.compile source = .ok program)
    : Program.compile edited = .ok program := by
  cases edit with
  | @blanks before after run other areBlank otherBlank nonempty otherNonempty =>
      obtain ⟨byte, run, rfl⟩ := List.exists_cons_of_ne_nil nonempty
      obtain ⟨otherByte, other, rfl⟩ := List.exists_cons_of_ne_nil otherNonempty
      rw [List.append_assoc] at compiled ⊢
      refine Extends.compile (.passesOver ?_ ?_ (.blanks areBlank after) (.blanks otherBlank after))
        compiled
      · exact .cons_blank (areBlank byte List.mem_cons_self)
      · exact .cons_blank (otherBlank otherByte List.mem_cons_self)
  | @blanksBeforeBreak before after run areBlank =>
      rw [List.append_assoc]
      exact Extends.compile (.passesOver .cons_newline (.blanks_append areBlank .cons_newline)
        (.refl _) (.blanks areBlank _)) compiled
  | @blanksAfterBreak before after run areBlank =>
      have scans := (ScansTo.lineBreak (run ++ after)).trans (.blanks areBlank after)
      rw [List.append_assoc]
      exact Extends.compile (.moreBreaks scans (by simp [TokenKind.endsLine])) compiled
  | @addComment before blank text after isBlank noBreak ends =>
      have passes : PassesOver (blank :: slash :: slash :: (text ++ after)) after :=
        .trans (.blanks (List.forall_mem_singleton.mpr isBlank) _) (.comment noBreak ends)
      rw [List.append_assoc]
      exact Extends.compile (.passesOver ends.apart (.cons_blank isBlank) (.refl after)
        passes) compiled
  | @removeComment before text after starts noBreak ends =>
      rw [List.append_assoc] at compiled
      exact Extends.compile (.passesOver (.comment starts _) ends.apart
        (.comment noBreak ends) (.refl after)) compiled
  | @changeComment before text other after inside noBreak otherNoBreak ends =>
      -- Words may seem to end or start where the change does, so it is taken from the slashes on.
      obtain ⟨above, front, rfl, noBreakFront, starts⟩ := inside.exists_first
      have passes : PassesOver (slash :: slash :: ((front ++ text) ++ after)) after :=
        .comment (List.not_mem_append noBreakFront noBreak) ends
      have otherPasses : PassesOver (slash :: slash :: ((front ++ other) ++ after)) after :=
        .comment (List.not_mem_append noBreakFront otherNoBreak) ends
      simp only [List.append_assoc, List.cons_append] at compiled passes otherPasses ⊢
      exact Extends.compile (.passesOver (.comment starts _) (.comment starts _) passes otherPasses)
        compiled
  | emptyLine before after =>
      have scans := (ScansTo.lineBreak (newline :: after)).trans (.lineBreak after)
      exact Extends.compile (.moreBreaks scans (by simp [TokenKind.endsLine])) compiled
  | returns =>
      rw [Program.compile_withReturns, compiled]
      rfl
  | @join before after noComment =>
      have scans : ScansTo (0x20 :: after) [] after := .blank (by decide) after
      refine Extends.compile (.prepend .cons_newline (.cons_blank (by decide)) ?_ ?_) compiled
      · exact .lineBreak scans (List.forall_mem_nil _)
      · exact fun commented => absurd commented noComment

namespace Program

/-- The layout of a song does not matter. After any number of edits it compiles to the same
program; and where it does not compile, carriage returns before all line breaks change neither
what is wrong with it nor the line and column of that, nor what the compiler stops at.
-/
theorem compile_edited
    : (∀ {source edited : List UInt8} {program : Program},
        Relation.ReflTransGen Edit source edited → compile source = .ok program
        → compile edited = .ok program)
      ∧ (∀ {source : List UInt8} {error : CompileError},
        compile source = .error (.rejected error)
        → ∃ other,
            compile (withReturns source) = .error (.rejected other)
            ∧ other.diagnostic.kind = error.diagnostic.kind
            ∧ other.diagnostic.message = error.diagnostic.message
            ∧ other.diagnostic.position.line = error.diagnostic.position.line
            ∧ other.diagnostic.position.column = error.diagnostic.position.column)
      ∧ ∀ {source : List UInt8} {trap : Trap},
          compile source = .error (.trapped trap)
          → compile (withReturns source) = .error (.trapped trap) := by
  refine ⟨?_, ?_, ?_⟩
  · intro source edited program edits compiled
    induction edits with
    | refl => exact compiled
    | tail _ edit ih => exact edit.compile ih
  · intro source error failed
    refine ⟨{ error with position := error.position.withReturns }, ?_, rfl, rfl, rfl, rfl⟩
    rw [compile_withReturns, failed]
    rfl
  · intro source trap stopped
    rw [compile_withReturns, stopped]
    rfl

/-- Two lines that are joined and get a comment are still the same song; and a note without a
length is reported in the same place with carriage returns.
-/
theorem compile_edited_joined
    : let tempo := Ascii.encode "TEMPO 90".toList
      let note := Ascii.encode "C4 Q".toList
      let edited := (tempo ++ 0x20 :: note) ++ 0x20 :: slash :: slash :: [0xc3, 0xa9] ++ []
      let program : Program := { code := #[.tempo 90, .note 261 (.ticks 960)] }
      let broken := note ++ newline :: Ascii.encode "D4".toList
      let error : CompileError := ⟨.missingLength "D4", ⟨5, 2, 1⟩⟩
      compile (tempo ++ newline :: note) = .ok program
      ∧ Relation.ReflTransGen Edit (tempo ++ newline :: note) edited
      ∧ compile edited = .ok program
      ∧ compile broken = .error (.rejected error)
      ∧ ∃ other,
          compile (withReturns broken) = .error (.rejected other)
          ∧ other.diagnostic.kind = error.diagnostic.kind
          ∧ other.diagnostic.message = error.diagnostic.message
          ∧ other.diagnostic.position.line = error.diagnostic.position.line
          ∧ other.diagnostic.position.column = error.diagnostic.position.column := by
  intro tempo note edited program broken error
  have compiled : compile (tempo ++ newline :: note) = .ok program := by decide +kernel
  have failed : compile broken = .error (.rejected error) := by decide +kernel
  have noComment : ¬ Commented tempo := by
    rintro ⟨above, text, same, -⟩
    have member : slash ∈ tempo := by simp [same]
    exact absurd member (by decide +kernel)
  have joined : Edit (tempo ++ newline :: note) (tempo ++ 0x20 :: note) := .join note noComment
  have commented : Edit ((tempo ++ 0x20 :: note) ++ []) edited :=
    .addComment _ (by decide) (by decide) .last
  rw [List.append_nil] at commented
  have edits := (Relation.ReflTransGen.single joined).tail commented
  exact ⟨compiled, edits, compile_edited.1 edits compiled, failed,
    compile_edited.2.1 failed⟩

end Program

end Chiptune
