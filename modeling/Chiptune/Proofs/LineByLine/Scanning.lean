import Chiptune.Proofs.LineByLine.Words
import Chiptune.Proofs.Scanning

/-! Scanning gives what is found line by line. Bytes are taken from the front of a line in the same
way on both sides: a blank, a comment, a word or a stray byte.
-/

namespace Chiptune.LineByLine

open Ascii
open Token (scanFrom startsComment wordAt)

theorem map_append_nil (result : Except CompileError (List Token))
    : result.map ([] ++ ·) = result :=
  congrFun Except.map_id result

theorem map_map (result : Except CompileError (List Token)) (first second : List Token → List Token)
    : (result.map first).map second = result.map fun tokens => second (first tokens) :=
  (comp_map first second result).symm

-----------------------------------------------------------------------------------------
-- The front of a line
-----------------------------------------------------------------------------------------

section Front

variable {source rest : List UInt8} {byte : UInt8} {offset : Nat}

theorem scanFrom_break (here : GoesOn source offset (newline :: rest))
    : scanFrom 0 (.inText source offset) (newline :: rest)
      = (scanFrom 0 (.inText source (offset + 1)) rest).map
          (⟨.newline, .inText source offset⟩ :: ·) := by
  rw [Token.scanFrom_newline, here.inText_nextLine]

theorem scanFrom_blank (here : GoesOn source offset (byte :: rest)) (blank : isBlank byte)
    : scanFrom 0 (.inText source offset) (byte :: rest)
      = scanFrom 0 (.inText source (offset + 1)) rest := by
  rw [Token.scanFrom_blank _ blank, here.inText_succ (Token.ne_newline_of_isBlank blank)]

theorem scanFrom_comment {line : List UInt8}
    (here : GoesOn source offset (byte :: (line ++ rest))) (noBreak : newline ∉ byte :: line)
    (ends : EndsLine rest) (comment : startsComment (byte :: line))
    : scanFrom 0 (.inText source offset) (byte :: (line ++ rest))
      = scanFrom 0 (.inText source (offset + (line.length + 1))) rest := by
  have starts := (ends.startsComment_append (byte :: line)).trans comment
  have noBreakLater : newline ∉ line := fun member => noBreak (List.mem_cons_of_mem byte member)
  have place :=
    GoesOn.inText_add (show GoesOn source offset (byte :: line ++ rest) from here) noBreak
  rw [List.length_cons] at place
  rw [List.cons_append] at starts
  rw [Token.scanFrom_comment _ starts, ends.lineAt_append noBreakLater,
    ends.below_append noBreakLater, place]

theorem scanFrom_word {word : List UInt8} (here : GoesOn source offset (byte :: (word ++ rest)))
    (noBreak : newline ∉ byte :: word) (atFront : wordAt (byte :: (word ++ rest)) = byte :: word)
    : scanFrom 0 (.inText source offset) (byte :: (word ++ rest))
      = (scanFrom 0 (.inText source (offset + (word.length + 1))) rest).map
          (⟨kindOf (byte :: word), .inText source offset⟩ :: ·) := by
  have place :=
    GoesOn.inText_add (show GoesOn source offset (byte :: word ++ rest) from here) noBreak
  rw [List.length_cons] at place
  rw [Token.scanFrom_word _ atFront, ofWord_text (List.cons_ne_nil _ _), place]

end Front

-----------------------------------------------------------------------------------------
-- Lines
-----------------------------------------------------------------------------------------

/-- A line of a text is scanned as it is read on its own. -/
def Agrees (source rest : List UInt8) (offset : Nat) (line : List UInt8) : Prop :=
  scanFrom 0 (.inText source offset) (line ++ rest)
    = unlessStray source (live (line.zipIdx offset))
        ((scanFrom 0 (.inText source (offset + line.length)) rest).map
          (lineTokens source (line.zipIdx offset) ++ ·))

namespace Agrees

variable {source rest line : List UInt8} {offset : Nat} {byte : UInt8}

theorem nil : Agrees source rest offset [] :=
  (map_append_nil _).symm

theorem blank (here : GoesOn source offset (byte :: line ++ rest)) (isBlank : isBlank byte)
    (later : Agrees source rest (offset + 1) line)
    : Agrees source rest offset (byte :: line) := by
  have noComment := startsComment_of_isBlank isBlank line
  have separates := Token.isGraphic_of_isBlank isBlank
  rw [List.cons_append] at here
  rw [Agrees, List.cons_append, scanFrom_blank here isBlank, later, live_cons, noComment,
    if_neg Bool.false_ne_true, unlessStray_cons (isStray_of_isBlank isBlank),
    lineTokens_separator noComment separates, List.length_cons, Nat.add_right_comm, Nat.add_assoc]

theorem comment (here : GoesOn source offset (byte :: line ++ rest))
    (noBreak : newline ∉ byte :: line) (ends : EndsLine rest)
    (starts : startsComment (byte :: line))
    : Agrees source rest offset (byte :: line) := by
  rw [List.cons_append] at here
  rw [Agrees, List.cons_append, scanFrom_comment here noBreak ends starts,
    lineTokens_comment starts, live_cons, if_pos starts]
  exact (map_append_nil _).symm

theorem word {word : List UInt8} (here : GoesOn source offset (line ++ rest))
    (noBreak : newline ∉ line) (ends : EndsLine rest) (atFront : wordAt line = byte :: word)
    (goesOn
      : ∀ later, line = byte :: word ++ later
        → Agrees source rest (offset + (word.length + 1)) later)
    : Agrees source rest offset line := by
  obtain ⟨later, split, alive, tokens⟩ := exists_lineTokens_eq atFront source offset
  have expected : ∀ placed ∈ (byte :: word).zipIdx offset, isStray placed = false :=
    fun placed member => isStray_of_isGraphic (isGraphic_of_mem_zipIdx atFront offset placed member)
  have noBreakWord : newline ∉ byte :: word := by
    intro member
    rw [split] at noBreak
    exact noBreak (List.mem_append_left later member)
  have front := ends.wordAt_append line
  rw [atFront, split, List.append_assoc] at front
  have length : line.length = word.length + 1 + later.length := by
    rw [split, List.length_append, List.length_cons]
  rw [Agrees, alive, tokens, length]
  rw [split, List.append_assoc] at here ⊢
  rw [List.cons_append, scanFrom_word here noBreakWord front, goesOn later split, map_unlessStray,
    unlessStray_append, unlessStray_of_forall expected,
    ← Nat.add_assoc offset (word.length + 1) later.length]
  exact congrArg _ (map_map _ _ _)

theorem stray (noBreak : byte ≠ newline) (ends : EndsLine rest)
    (notBlank : isBlank byte = false) (noComment : startsComment (byte :: line) = false)
    (notGraphic : isGraphic byte = false)
    : Agrees source rest offset (byte :: line) := by
  have starts := ends.startsComment_append (byte :: line)
  rw [noComment, List.cons_append] at starts
  rw [Agrees, List.cons_append, Token.scanFrom_stray _ noBreak notBlank starts notGraphic,
    live_cons, noComment]
  simp [unlessStray, isStray, notBlank, notGraphic]

end Agrees

/-- Every line agrees, by induction on the bytes that are left of it. -/
theorem agrees {source rest line : List UInt8} {offset : Nat}
    (here : GoesOn source offset (line ++ rest)) (noBreak : newline ∉ line) (ends : EndsLine rest)
    : Agrees source rest offset line := by
  induction length : line.length using Nat.strongRecOn generalizing line offset with
  | ind bound ih =>
  subst length
  cases line with
  | nil => exact .nil
  | cons byte line =>
      have noLater : newline ∉ line := fun member => noBreak (List.mem_cons_of_mem byte member)
      cases Token.front byte line with
      | newline => exact absurd List.mem_cons_self noBreak
      | blank blank => exact .blank here blank (ih _ (Nat.lt_succ_self _) here.tail noLater rfl)
      | comment starts => exact .comment here noBreak ends starts
      | @word _ word later atFront =>
          refine .word here noBreak ends atFront fun others split => ?_
          obtain rfl := List.append_cancel_left (List.cons.inj split).2
          refine ih later.length ?_ ?_ ?_ rfl
          · rw [List.length_cons, List.length_append]
            omega
          · rw [split, List.append_assoc] at here
            exact here.append
          · exact fun member => noLater (List.mem_append_right _ member)
      | stray notBreak notBlank noComment notGraphic =>
          exact .stray notBreak ends notBlank noComment notGraphic

-----------------------------------------------------------------------------------------
-- Texts
-----------------------------------------------------------------------------------------

section Texts

variable {source line rest : List UInt8} {offset : Nat}

theorem ne_newline_of_mem_zipIdx (noBreak : newline ∉ line)
    : ∀ placed ∈ line.zipIdx offset, (placed.1 == newline) = false := by
  intro placed member
  rw [beq_eq_false_iff_ne]
  intro same
  exact noBreak (same ▸ List.fst_mem_of_mem_zipIdx member)

theorem endings_append (noBreak : newline ∉ line) (bytes : List (UInt8 × Nat))
    : endings source (line.zipIdx offset ++ bytes) = endings source bytes := by
  have none : (line.zipIdx offset).filter (·.1 == newline) = [] :=
    List.filter_eq_nil_iff.mpr fun placed member => by
      rw [ne_newline_of_mem_zipIdx noBreak placed member]
      exact Bool.false_ne_true
  rw [endings, List.filter_append, none]
  rfl

theorem scanned_last (noBreak : newline ∉ line)
    : scanned source (line.zipIdx offset)
      = unlessStray source (live (line.zipIdx offset))
          (.ok (lineTokens source (line.zipIdx offset)
            ++ [⟨.endOfInput, .inText source source.length⟩])) := by
  have single : lines (line.zipIdx offset) = [line.zipIdx offset] :=
    List.splitOnP_eq_singleton (ne_newline_of_mem_zipIdx noBreak)
  have ending : endings source (line.zipIdx offset ++ []) = endings source [] :=
    endings_append noBreak []
  rw [List.append_nil] at ending
  rw [scanned, tokens, single, ending, List.flatMap_singleton]
  simp [endings]

theorem scanned_break (noBreak : newline ∉ line)
    : scanned source ((line ++ newline :: rest).zipIdx offset)
      = unlessStray source (live (line.zipIdx offset))
          ((scanned source (rest.zipIdx (offset + line.length + 1))).map
            (lineTokens source (line.zipIdx offset)
              ++ ⟨.newline, .inText source (offset + line.length)⟩ :: ·)) := by
  have split
      : lines ((line ++ newline :: rest).zipIdx offset)
        = line.zipIdx offset :: lines (rest.zipIdx (offset + line.length + 1)) := by
    rw [lines, List.zipIdx_append, List.zipIdx_cons]
    exact List.splitOnP_append_cons_of_forall_mem (ne_newline_of_mem_zipIdx noBreak) _ rfl _
  have ending
      : endings source ((line ++ newline :: rest).zipIdx offset)
        = ⟨.newline, .inText source (offset + line.length)⟩
          :: endings source (rest.zipIdx (offset + line.length + 1)) := by
    rw [List.zipIdx_append, endings_append noBreak]
    rfl
  rw [scanned, tokens, split, ending, List.flatMap_cons, unlessStray_append, scanned,
    map_unlessStray]
  simp [tokens, Except.map]

/-- From every place on, a text is scanned as it is read line by line; by induction on the bytes
that are left of it.
-/
theorem scanFrom_eq_scanned (here : GoesOn source offset rest)
    : scanFrom 0 (.inText source offset) rest = scanned source (rest.zipIdx offset) := by
  induction length : rest.length using Nat.strongRecOn generalizing rest offset with
  | ind bound ih =>
  subst length
  by_cases broken : newline ∈ rest
  · obtain ⟨line, later, rfl, noBreak⟩ := List.eq_append_cons_of_mem broken
    have shorter : later.length < (line ++ newline :: later).length := by
      rw [List.length_append, List.length_cons]
      omega
    rw [agrees here noBreak (.newline later), scanFrom_break here.append,
      ih later.length shorter here.append.tail rfl, scanned_break noBreak]
    exact congrArg _ (map_map _ _ _)
  · have whole : GoesOn source offset (rest ++ []) := by rwa [List.append_nil]
    have agree := agrees whole broken .last
    have last := whole.append.eq_length
    rw [Agrees, List.append_nil, last] at agree
    rw [agree, scanned_last broken]
    rfl

end Texts

theorem isStray_eq_false_iff {byte : UInt8 × Nat}
    : isStray byte = false ↔ isBlank byte.1 ∨ isGraphic byte.1 := by
  rw [isStray, Bool.not_eq_false', Bool.or_eq_true]

/-- The text of a song is scanned line by line. It has tokens if every byte before the comments is
blank or graphic, and else the first byte that is neither is an unexpected token.
-/
theorem scan_eq_lineByLine (source : List UInt8)
    : Token.scan source = scan source
      ∧ ((∃ tokens, Token.scan source = .ok tokens)
        ↔ ∀ line ∈ lines source.zipIdx, ∀ byte ∈ live line, isBlank byte.1 ∨ isGraphic byte.1)
      ∧ ∀ error, Token.scan source = .error error → error.cause.kind = .unexpectedToken := by
  have same : Token.scan source = scan source :=
    scanFrom_eq_scanned (⟨[], rfl, rfl⟩ : GoesOn source 0 source)
  rw [same, scan, scanned, unlessStray]
  refine ⟨rfl, ?_⟩
  cases first : ((lines source.zipIdx).flatMap live).find? isStray with
  | none =>
      have expected := List.find?_eq_none.mp first
      refine ⟨⟨?_, fun _ => ⟨_, rfl⟩⟩, ?_⟩
      · intro _ line inText byte isLive
        have notStray := expected byte (List.mem_flatMap.mpr ⟨line, inText, isLive⟩)
        rwa [Bool.not_eq_true, isStray_eq_false_iff] at notStray
      · intro error failed
        cases failed
  | some stray =>
      obtain ⟨line, inText, isLive⟩ := List.mem_flatMap.mp (List.mem_of_find?_eq_some first)
      refine ⟨⟨?_, ?_⟩, ?_⟩
      · rintro ⟨tokens, found⟩
        cases found
      · intro allowed
        have expected := isStray_eq_false_iff.mpr (allowed line inText stray isLive)
        rw [List.find?_some first] at expected
        cases expected
      · intro error failed
        cases failed
        rfl

end Chiptune.LineByLine
