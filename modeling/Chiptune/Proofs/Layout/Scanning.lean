import Chiptune.Proofs.Layout.Dividing
import Chiptune.Proofs.Scanning

/-! A text whose end is replaced. What stands before is scanned as it was, if no word and no
comment starts in it that goes on after it; a comment that is still open hides the rest of its
line.
-/

namespace Chiptune

open Ascii (newline slash)
open Token (scanFrom below Apart ScansTo)

/-- A comment is open after these bytes. -/
def Commented (before : List UInt8) : Prop :=
  ∃ above text, before = above ++ slash :: slash :: text ∧ newline ∉ text

theorem Commented.of_suffix {before run : List UInt8} (commented : Commented run)
    (suffix : run <:+ before)
    : Commented before := by
  obtain ⟨above, text, rfl, noBreak⟩ := commented
  obtain ⟨front, rfl⟩ := suffix
  exact ⟨front ++ above, text, (List.append_assoc ..).symm, noBreak⟩

-----------------------------------------------------------------------------------------
-- Replacing the end of a text
-----------------------------------------------------------------------------------------

/-- If a text can be read, the other one is read as the same statements and then some more,
whatever tokens come before either of them.
-/
def Extends (more : List Statement) (source other : List UInt8) : Prop :=
  ∀ here there tokens, scanFrom 0 here source = .ok tokens →
    ∃ others,
      scanFrom 0 there other = .ok others
      ∧ ∀ front statements, Divides (front ++ tokens.map (·.kind)) statements →
          Divides (front ++ others.map (·.kind)) (statements ++ more)

namespace Extends

variable {more : List Statement} {source other first second : List UInt8}

/-- The same tokens can be put in front of both texts. -/
theorem along {kinds : List TokenKind} (scans : ScansTo source kinds first)
    (otherScans : ScansTo other kinds second) (later : Extends more first second)
    : Extends more source other := by
  intro here there tokens scanned
  obtain ⟨next, run, sameKinds, goesOn⟩ := scans here
  obtain ⟨otherNext, otherRun, rfl, otherGoesOn⟩ := otherScans there
  rw [goesOn] at scanned
  obtain ⟨rest, scannedRest, rfl⟩ := Statement.except_map_eq_ok.mp scanned
  obtain ⟨otherRest, otherScanned, divides⟩ := later next otherNext rest scannedRest
  refine ⟨otherRun ++ otherRest, by rw [otherGoesOn, otherScanned]; rfl, ?_⟩
  intro front statements whole
  have moved := divides (front ++ otherRun.map (·.kind)) statements
  simp only [List.map_append, sameKinds, List.append_assoc] at whole moved ⊢
  exact moved whole

theorem nil : Extends [] [] [] := by
  rintro here there _ ⟨⟩
  exact ⟨_, rfl, fun front statements divides => by rwa [List.append_nil]⟩

/-- An end that is replaced by one which is read in the same way, or as more, may follow anything
that words and comments end in; by induction on what stands before, along the scanning of it.
-/
theorem prepend {before : List UInt8} (apart : Apart before first)
    (otherApart : Apart before second) (ends : Extends more first second)
    (inComment : Commented before → Extends more (below first) (below second))
    : Extends more (before ++ first) (before ++ second) := by
  induction length : before.length using Nat.strongRecOn generalizing before with
  | ind bound ih =>
  subst length
  cases before with
  | nil => exact ends
  | cons byte rest =>
      have goesOn (later : List UInt8) (suffix : later <:+ rest)
          : Extends more (later ++ first) (later ++ second) := by
        have behind := suffix.trans (List.suffix_cons byte rest)
        refine ih later.length (Nat.lt_succ_of_le suffix.length_le) (apart.of_suffix behind)
          (otherApart.of_suffix behind) (fun commented => ?_) rfl
        exact inComment (commented.of_suffix behind)
      cases Token.front byte rest with
      | newline =>
          exact .along (.lineBreak _) (.lineBreak _) (goesOn rest (List.suffix_refl rest))
      | blank blank =>
          exact .along (.blank blank _) (.blank blank _) (goesOn rest (List.suffix_refl rest))
      | comment starts =>
          have scans := ScansTo.comment (apart.startsComment_append.trans starts)
          have otherScans := ScansTo.comment (otherApart.startsComment_append.trans starts)
          refine .along scans otherScans ?_
          by_cases broken : newline ∈ rest
          · rw [Token.below_append_of_mem broken, Token.below_append_of_mem broken]
            exact goesOn (below rest) (List.dropWhile_suffix _)
          · rw [Token.below_append_of_notMem broken, Token.below_append_of_notMem broken]
            obtain ⟨rfl, text, rfl⟩ := Token.startsComment_cons_iff.mp starts
            rw [List.singleton_append, List.mem_cons, not_or] at broken
            exact inComment ⟨[], text, rfl, broken.2⟩
      | @word _ word later atFront =>
          have wordEnds := apart.wordAt_append.trans atFront
          have otherWordEnds := otherApart.wordAt_append.trans atFront
          rw [List.cons_append, List.append_assoc] at wordEnds otherWordEnds ⊢
          rw [List.cons_append, List.append_assoc]
          exact .along (.word wordEnds) (.word otherWordEnds)
            (goesOn later (List.suffix_append word later))
      | stray notBreak notBlank noComment notGraphic =>
          intro here there tokens scanned
          rw [List.cons_append, Token.scanFrom_stray here notBreak notBlank
            (apart.startsComment_append.trans noComment) notGraphic] at scanned
          cases scanned

/-- A text is read in the same way wherever it stands. -/
theorem refl (source : List UInt8) : Extends [] source source := by
  have whole : Extends [] (source ++ []) (source ++ []) :=
    prepend .nil .nil nil fun _ => nil
  rwa [List.append_nil] at whole

/-- A line break that ends statements may become any number of breaks, even none at all. -/
theorem lineBreak {text : List UInt8} {kinds : List TokenKind} (scans : ScansTo other kinds text)
    (ends : ∀ kind ∈ kinds, kind.endsLine)
    : Extends [] (newline :: text) other := by
  intro here there tokens scanned
  obtain ⟨next, breaks, rfl, goesOn⟩ := scans there
  rw [Token.scanFrom_newline] at scanned
  obtain ⟨rest, scannedRest, rfl⟩ := Statement.except_map_eq_ok.mp scanned
  obtain ⟨others, otherScanned, divides⟩ := refl text here.nextLine next rest scannedRest
  refine ⟨breaks ++ others, by rw [goesOn, otherScanned]; rfl, fun front statements whole => ?_⟩
  obtain ⟨above, below, rfl, dividesAbove, dividesBelow⟩ := Divides.split whole rfl
  have again := divides [] below dividesBelow
  rw [List.append_nil, List.nil_append] at again
  rw [List.append_nil, List.map_append]
  exact dividesAbove.append (again.lineEnds ends)

/-- What is read as the same statements compiles to the same program. -/
theorem compile {program : Program} (readsOn : Extends [] source other)
    (compiled : Program.compile source = .ok program)
    : Program.compile other = .ok program := by
  obtain ⟨statements, ⟨tokens, scanned, divides⟩, consistent, made⟩ :=
    Program.compile_eq_ok_iff.mp compiled
  obtain ⟨others, otherScanned, dividesToo⟩ := readsOn .start .start tokens scanned
  have same := dividesToo [] statements divides
  rw [List.append_nil] at same
  exact Program.compile_eq_ok_iff.mpr ⟨statements, ⟨others, otherScanned, same⟩, consistent, made⟩

end Extends

end Chiptune
