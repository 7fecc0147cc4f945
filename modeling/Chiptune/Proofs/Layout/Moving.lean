import Chiptune.Proofs.Diagnostics.Origins
import Mathlib.Data.List.Forall2

/-! What a list of tokens compiles to depends on their kinds alone. Where they stand only shows in
the place of an error, which moves with its token. Line ends may stand anywhere, because no error
is at one.
-/

namespace Chiptune

variable (f : Position → Position)

def Token.moved (token : Token) : Token :=
  { token with position := f token.position }

@[simp] theorem Token.kind_moved (token : Token) : (token.moved f).kind = token.kind := rfl

@[simp] theorem Token.position_moved (token : Token)
    : (token.moved f).position = f token.position := rfl

/-- A failure that is reported at another place, if it is reported. -/
def CompileFailure.moved : CompileFailure → CompileFailure
  | .rejected error => .rejected { error with position := f error.position }
  | .trapped trap => .trapped trap

/-- A result whose error, if there is one, is at another place. -/
def movedError (result : Except CompileFailure α) : Except CompileFailure α :=
  result.mapError (·.moved f)

@[simp] theorem movedError_ok (value : α) : movedError f (.ok value) = .ok value := rfl

@[simp] theorem movedError_error (failure : CompileFailure)
    : movedError f (.error failure : Except CompileFailure α) = .error (failure.moved f) := rfl

theorem movedError_map (result : Except CompileFailure α) (g : α → β)
    : movedError f (result.map g) = (movedError f result).map g := by
  cases result <;> rfl

theorem movedError_eq_ok_iff {result : Except CompileFailure α} {value : α}
    : movedError f result = .ok value ↔ result = .ok value := by
  cases result <;> simp

-----------------------------------------------------------------------------------------
-- Statements
-----------------------------------------------------------------------------------------

namespace Statement

variable (position : Position) (argument : Option Token)

theorem lengthOf_moved (subject : String)
    : lengthOf subject (f position) (argument.map (·.moved f))
      = movedError f (lengthOf subject position argument) := by
  cases argument with
  | none => rfl
  | some token =>
      simp only [Option.map_some, lengthOf, Token.moved]
      split <;> rfl

theorem numberOf_moved (directive : Keyword)
    : numberOf directive (f position) (argument.map (·.moved f))
      = movedError f (numberOf directive position argument) := by
  match argument with
  | none => rfl
  | some ⟨.word text, place⟩ =>
    simp only [Option.map_some, numberOf, Token.moved]
    split <;> rfl
  | some ⟨.number _, _⟩ | some ⟨.keyword _, _⟩ | some ⟨.newline, _⟩ | some ⟨.endOfInput, _⟩ => rfl

theorem labelOf_moved (directive : Keyword)
    : labelOf directive (f position) (argument.map (·.moved f))
      = movedError f (labelOf directive position argument) := by
  match argument with
  | none => rfl
  | some ⟨.word text, place⟩ =>
    simp only [Option.map_some, labelOf, Token.moved]
    split <;> rfl
  | some ⟨.number _, _⟩ | some ⟨.keyword _, _⟩ | some ⟨.newline, _⟩ | some ⟨.endOfInput, _⟩ => rfl

theorem noteOf_moved (frequency : UInt32) (subject : String)
    : noteOf frequency subject (f position) (argument.map (·.moved f))
      = movedError f (noteOf frequency subject position argument) := by
  unfold noteOf
  split
  · rfl
  · rw [lengthOf_moved, movedError_map]

/-- The error of a directive moves with it and its argument, by cases on the directive. -/
theorem ofDirective_moved (directive : Keyword)
    : ofDirective directive (f position) (argument.map (·.moved f))
      = movedError f (ofDirective directive position argument) := by
  cases directive with
  | tempo =>
      simp only [ofDirective, numberOf_moved]
      cases numberOf .tempo position argument with
      | error error => rfl
      | ok beats =>
          simp only [movedError_ok]
          split <;> rfl
  | rest => simp only [ofDirective, lengthOf_moved, movedError_map]
  | repeatOpen => simp only [ofDirective, numberOf_moved, movedError_map]
  | label | jump | call => simp only [ofDirective, labelOf_moved, movedError_map]
  | repeatClose | comeBack | breakpoint => rfl

/-- The error of a statement moves with its tokens, by cases on the first of them. -/
theorem ofTokens?_moved (head : Token)
    : ofTokens? (head.moved f) (argument.map (·.moved f))
      = movedError f (ofTokens? head argument) := by
  simp only [ofTokens?, Token.kind_moved, Token.position_moved]
  cases head.kind with
  | keyword directive => simp only [ofDirective_moved, movedError_map]
  | number frequency => simp only [noteOf_moved, movedError_map]
  | word text =>
      dsimp only
      rcases Pitch.parse? text with trap | _ | frequency
      · rfl
      · rfl
      · simp only [noteOf_moved, movedError_map]
  | newline | endOfInput => rfl

theorem argumentOf_moved (tokens : List Token)
    : argumentOf (tokens.map (·.moved f)) = (argumentOf tokens).map (·.moved f) := by
  cases tokens with
  | nil => rfl
  | cons token _ =>
      simp only [List.map_cons, argumentOf, Token.moved]
      split <;> rfl

end Statement

-----------------------------------------------------------------------------------------
-- Drafts
-----------------------------------------------------------------------------------------

namespace Draft

def moved (draft : Draft) : Draft :=
  { draft with
    references := draft.references.map fun reference =>
      { reference with position := f reference.position }
    openLoops := draft.openLoops.map fun loop => (loop.1, f loop.2) }

/-- A draft keeps the places of what is added to it, by cases on the statement. -/
theorem add_moved (draft : Draft) (position : Position) (statement : Statement)
    : (draft.moved f).add (f position) statement
      = (movedError f (draft.add position statement)).map (moved f) := by
  cases statement with
  | note | rest | tempo | comeBack | breakpoint | jump | call | repeatOpen => rfl
  | label name =>
      simp only [add, moved]
      cases draft.labels.lookup name <;> rfl
  | repeatClose =>
      simp only [add, moved]
      cases draft.openLoops with
      | nil => rfl
      | cons innermost outer =>
          simp only [List.map_cons]
          generalize Trap.modify _ _ _ = patched
          cases patched <;> rfl

/-- The first error in a list of tokens moves with them, by recursion along the list. -/
theorem addAll_moved (draft : Draft)
    : (tokens : List Token)
      → (draft.moved f).addAll (tokens.map (·.moved f))
        = (movedError f (draft.addAll tokens)).map (moved f)
  | [] => rfl
  | head :: rest => by
    rw [List.map_cons, addAll, addAll, Statement.argumentOf_moved, Statement.ofTokens?_moved]
    rcases Statement.ofTokens? head (Statement.argumentOf rest) with error | _ | statement
    · rfl
    · exact addAll_moved draft rest
    · have added := add_moved f draft head.position statement
      change (draft.moved f).add (head.moved f).position statement = _ at added
      simp only [movedError_ok, added]
      cases draft.add head.position statement with
      | error error => cases rest <;> rfl
      | ok next =>
          cases rest with
          | nil => rfl
          | cons following later =>
              simp only [movedError_ok, Except.map, List.map_cons]
              split
              · exact addAll_moved next later
              · exact addAll_moved next (following :: later)

/-- A reference without a meaning is reported where it stands, by induction on the references. -/
theorem foldlM_resolve_moved (labels : List (String × Nat)) (references : List Reference)
    (code : Array Instruction)
    : (references.map fun reference => { reference with position := f reference.position }).foldlM
        (resolve labels) code
      = movedError f (references.foldlM (resolve labels) code) := by
  induction references generalizing code with
  | nil => rfl
  | cons reference references ih =>
      rw [List.map_cons, List.foldlM_cons, List.foldlM_cons, resolve, resolve]
      cases labels.lookup reference.label with
      | none => rfl
      | some target =>
          dsimp only
          cases Trap.modify code reference.index (·.withTarget target) with
          | error trap => rfl
          | ok code => exact ih code

theorem finish_moved (draft : Draft) : (draft.moved f).finish = movedError f draft.finish := by
  simp only [finish, moved]
  cases draft.openLoops with
  | cons innermost outer => rfl
  | nil =>
      simp only [List.map_nil]
      rw [movedError_map, ← foldlM_resolve_moved, List.map_reverse]

end Draft

theorem Program.ofTokens_moved (tokens : List Token)
    : ofTokens (tokens.map (·.moved f)) = movedError f (ofTokens tokens) := by
  have added := Draft.addAll_moved f {} tokens
  change Draft.addAll {} (tokens.map (·.moved f)) = _ at added
  rw [ofTokens, ofTokens, added]
  cases Draft.addAll {} tokens with
  | error error => rfl
  | ok draft => exact Draft.finish_moved f draft

-----------------------------------------------------------------------------------------
-- Tokens of the same kinds
-----------------------------------------------------------------------------------------

/-- Tokens of the given kinds, each of which stands at its index. -/
def Token.numbered (kinds : List TokenKind) : List Token :=
  kinds.zipIdx.map fun (kind, index) => ⟨kind, { offset := index }⟩

/-- The place of the token that a numbered token stands for. -/
def Token.placeIn (tokens : List Token) (number : Position) : Position :=
  (tokens[number.offset]?.map (·.position)).getD .start

theorem Token.map_moved_numbered (tokens : List Token)
    : (numbered (tokens.map (·.kind))).map (·.moved (placeIn tokens)) = tokens := by
  refine List.ext_getElem (by simp [numbered]) fun index _ inside => ?_
  simp [numbered, moved, placeIn, List.getElem?_eq_getElem inside]

/-- Another token of the same kind that stands where a function says, unless it ends a line. -/
structure Token.IsMoved (token other : Token) : Prop where
  kind_eq : other.kind = token.kind
  position_eq : token.kind.endsLine = false → other.position = f token.position

/-- Tokens that are moved elsewhere compile to the same program, or have the same error, which
moves with its token. Both lists come from the one of the same kinds in which each token stands at
its index; there, the place of an error tells which token it is.
-/
theorem Program.ofTokens_of_isMoved {tokens others : List Token}
    (areMoved : List.Forall₂ (Token.IsMoved f) tokens others)
    : ofTokens others = movedError f (ofTokens tokens) := by
  have kinds : others.map (·.kind) = tokens.map (·.kind) := by
    induction areMoved with
    | nil => rfl
    | cons first _ ih => rw [List.map_cons, List.map_cons, first.kind_eq, ih]
  have first := ofTokens_moved (Token.placeIn tokens) (Token.numbered (tokens.map (·.kind)))
  have second := ofTokens_moved (Token.placeIn others) (Token.numbered (others.map (·.kind)))
  rw [Token.map_moved_numbered] at first second
  have atToken
      : ErrorsAt (fun number => Token.placeIn others number = f (Token.placeIn tokens number))
          (ofTokens (Token.numbered (tokens.map (·.kind)))) := by
    refine errorsAt_ofTokens fun token member inLine => ?_
    obtain ⟨⟨kind, index⟩, atIndex, rfl⟩ := List.mem_map.mp member
    rw [List.mem_zipIdx_iff_getElem?, List.getElem?_map] at atIndex
    obtain ⟨token, here, rfl⟩ := Option.map_eq_some_iff.mp atIndex
    obtain ⟨inside, same⟩ := List.getElem?_eq_some_iff.mp here
    have isMoved := areMoved.get inside (areMoved.length_eq ▸ inside)
    rw [List.get_eq_getElem, List.get_eq_getElem, same] at isMoved
    simp only [Token.placeIn, here, List.getElem?_eq_getElem (areMoved.length_eq ▸ inside),
      Option.map_some, Option.getD_some]
    exact isMoved.position_eq inLine
  rw [first, second, kinds]
  cases found : ofTokens (Token.numbered (tokens.map (·.kind))) with
  | ok program => rfl
  | error failure =>
      rw [found] at atToken
      cases failure with
      | trapped trap => rfl
      | rejected error =>
          have same : Token.placeIn others error.position = _ := atToken
          simp only [movedError_error, CompileFailure.moved, same]

end Chiptune
