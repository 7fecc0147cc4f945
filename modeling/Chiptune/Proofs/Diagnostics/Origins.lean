import Chiptune.Compile
import Chiptune.Proofs.Notation.Lengths

/-! Where compile errors come from. Every error in a list of tokens is at the place of one of them,
and never at the end of a line: a draft keeps the places of its open loops and of its references,
and all of those are places of tokens too.
-/

namespace Chiptune

/-- A result is a value to be kept, an error at one of the given places, or a trap if the computation
may come to one.
-/
def Settles (places : Position → Prop) (mayTrap : Prop) (kept : α → Prop)
    : Except CompileFailure α → Prop
  | .ok value => kept value
  | .error (.rejected error) => places error.position
  | .error (.trapped _) => mayTrap

/-- An error, if there is one, is at one of the given places, and there is no trap. -/
abbrev RejectsAt (places : Position → Prop) (result : Except CompileFailure α) : Prop :=
  Settles places False (fun _ => True) result

/-- An error, if there is one, is at one of the given places. -/
abbrev ErrorsAt (places : Position → Prop) (result : Except CompileFailure α) : Prop :=
  Settles places True (fun _ => True) result

section

variable {places : Position → Prop} {mayTrap : Prop}

theorem Settles.of_error {kept : α → Prop} {keptToo : β → Prop} {failure : CompileFailure}
    (settles : Settles places mayTrap kept (.error failure))
    : Settles places mayTrap keptToo (.error failure) := by
  cases failure <;> exact settles

theorem Settles.map {result : Except CompileFailure α}
    (settles : Settles places mayTrap (fun _ => True) result) (f : α → β)
    : Settles places mayTrap (fun _ => True) (result.map f) := by
  cases result with
  | ok value => exact trivial
  | error failure => exact settles.of_error

theorem Settles.ne_trapped {result : Except CompileFailure α} (rejects : RejectsAt places result)
    (trap : Trap)
    : result ≠ .error (.trapped trap) := by
  rintro rfl
  exact rejects

theorem Settles.errorsAt {result : Except CompileFailure α} (rejects : RejectsAt places result)
    : ErrorsAt places result := by
  rcases result with (error | trap) | value
  · exact rejects
  · exact rejects.elim
  · exact trivial

end

-----------------------------------------------------------------------------------------
-- Statements
-----------------------------------------------------------------------------------------

namespace Statement

variable {places : Position → Prop} {position : Position} {argument : Option Token}

theorem rejectsAt_lengthOf (subject : String) (starts : places position)
    (follows : ∀ token ∈ argument, places token.position)
    : RejectsAt places (lengthOf subject position argument) := by
  unfold lengthOf
  split
  · exact starts
  · next token =>
    obtain ⟨length?, read⟩ := Length.exists_parse?_eq (lengthText token.kind)
    simp only [read]
    cases length? with
    | none => exact follows token rfl
    | some length => exact trivial

theorem rejectsAt_numberOf (directive : Keyword) (starts : places position)
    (follows : ∀ token ∈ argument, places token.position)
    : RejectsAt places (numberOf directive position argument) := by
  unfold numberOf
  split
  · exact starts
  · exact trivial
  · split
    · exact follows _ rfl
    · exact follows _ rfl
  · exact follows _ rfl

theorem rejectsAt_labelOf (directive : Keyword) (starts : places position)
    (follows : ∀ token ∈ argument, places token.position)
    : RejectsAt places (labelOf directive position argument) := by
  unfold labelOf
  split
  · exact starts
  · split
    · exact trivial
    · exact follows _ rfl
  · exact follows _ rfl

theorem rejectsAt_noteOf (frequency : UInt32) (subject : String) (starts : places position)
    (follows : ∀ token ∈ argument, places token.position)
    : RejectsAt places (noteOf frequency subject position argument) := by
  unfold noteOf
  split
  · exact starts
  · exact (rejectsAt_lengthOf subject starts follows).map _

/-- A directive is wrong at its own place or at that of its argument, by cases. -/
theorem rejectsAt_ofDirective (directive : Keyword) (starts : places position)
    (follows : ∀ token ∈ argument, places token.position)
    : RejectsAt places (ofDirective directive position argument) := by
  cases directive with
  | tempo =>
      have number := rejectsAt_numberOf .tempo starts follows
      rw [ofDirective]
      cases read : numberOf .tempo position argument with
      | error failure =>
          rw [read] at number
          exact number.of_error
      | ok beats =>
          dsimp only
          split
          · exact starts
          · exact trivial
  | rest => exact (rejectsAt_lengthOf _ starts follows).map _
  | repeatOpen => exact (rejectsAt_numberOf _ starts follows).map _
  | label | jump | call => exact (rejectsAt_labelOf _ starts follows).map _
  | repeatClose | comeBack | breakpoint => exact trivial

/-- A statement is wrong at its first token, which ends no line, or at its argument. -/
theorem errorsAt_ofTokens? {head : Token}
    (starts : head.kind.endsLine = false → places head.position)
    (follows : ∀ token ∈ argument, places token.position)
    : ErrorsAt places (ofTokens? head argument) := by
  unfold ofTokens?
  cases kind : head.kind with
  | newline | endOfInput => exact trivial
  | keyword directive =>
      have start := starts (by rw [kind]; rfl)
      exact ((rejectsAt_ofDirective directive start follows).map _).errorsAt
  | number frequency =>
      have start := starts (by rw [kind]; rfl)
      exact ((rejectsAt_noteOf frequency _ start follows).map _).errorsAt
  | word text =>
      have start := starts (by rw [kind]; rfl)
      dsimp only
      split
      · exact trivial
      · exact start
      · exact ((rejectsAt_noteOf _ text start follows).map _).errorsAt

/-- The end of a line starts no statement. -/
theorem endsLine_of_ofTokens? {head : Token} {statement : Statement}
    (read : ofTokens? head argument = .ok (some statement))
    : head.kind.endsLine = false := by
  unfold ofTokens? at read
  cases kind : head.kind with
  | newline | endOfInput =>
      rw [kind] at read
      cases read
  | keyword | number | word => rfl

theorem mem_of_argumentOf {tokens : List Token} {token : Token} (next : token ∈ argumentOf tokens)
    : token ∈ tokens ∧ token.kind.endsLine = false := by
  cases tokens with
  | nil => cases next
  | cons first rest =>
      rw [argumentOf] at next
      cases ends : first.kind.endsLine with
      | true =>
          rw [ends] at next
          cases next
      | false =>
          rw [ends] at next
          cases next
          exact ⟨List.mem_cons_self, ends⟩

end Statement

-----------------------------------------------------------------------------------------
-- Drafts
-----------------------------------------------------------------------------------------

namespace Draft

variable {places : Position → Prop} {draft : Draft}

/-- What a draft can still report as an error is at one of the given places. -/
structure Stands (places : Position → Prop) (draft : Draft) : Prop where
  openLoops : ∀ loop ∈ draft.openLoops, places loop.2
  references : ∀ reference ∈ draft.references, places reference.position

theorem Stands.empty : Stands places {} :=
  ⟨List.forall_mem_nil _, List.forall_mem_nil _⟩

/-- A statement is wrong at its own place, or a draft keeps no other place than that; by cases. -/
theorem Stands.add {position : Position} (stands : draft.Stands places)
    (placed : places position) (statement : Statement)
    : Settles places True (Stands places) (draft.add position statement) := by
  obtain ⟨openLoops, references⟩ := stands
  cases statement with
  | note | rest | tempo | comeBack | breakpoint => exact ⟨openLoops, references⟩
  | jump | call => exact ⟨openLoops, List.forall_mem_cons.mpr ⟨placed, references⟩⟩
  | repeatOpen => exact ⟨List.forall_mem_cons.mpr ⟨placed, openLoops⟩, references⟩
  | label name =>
      rw [Draft.add]
      cases draft.labels.lookup name with
      | some target => exact placed
      | none => exact ⟨openLoops, references⟩
  | repeatClose =>
      rw [Draft.add]
      cases loops : draft.openLoops with
      | nil => exact placed
      | cons innermost outer =>
          rw [loops, List.forall_mem_cons] at openLoops
          dsimp only
          generalize Trap.modify _ _ _ = patched
          cases patched with
          | error trap => exact trivial
          | ok code => exact ⟨openLoops.2, references⟩

/-- Along a list of tokens errors are at their places, by recursion along the list. -/
theorem Stands.addAll {draft : Draft} (stands : draft.Stands places)
    : (tokens : List Token)
      → (∀ token ∈ tokens, token.kind.endsLine = false → places token.position)
      → Settles places True (Stands places) (draft.addAll tokens)
  | [], _ => stands
  | head :: rest, placed => by
    obtain ⟨starts, later⟩ := List.forall_mem_cons.mp placed
    have follows : ∀ token ∈ Statement.argumentOf rest, places token.position := by
      intro token next
      obtain ⟨member, inLine⟩ := Statement.mem_of_argumentOf next
      exact later token member inLine
    have wrong := Statement.errorsAt_ofTokens? starts follows
    rw [Draft.addAll]
    cases read : Statement.ofTokens? head (Statement.argumentOf rest) with
    | error failure =>
      rw [read] at wrong
      exact wrong.of_error
    | ok statement? =>
      match statement? with
      | none => exact stands.addAll rest later
      | some statement =>
        have added := stands.add (starts (Statement.endsLine_of_ofTokens? read)) statement
        dsimp only
        cases next : draft.add head.position statement with
        | error failure =>
          rw [next] at added
          exact added.of_error
        | ok grown =>
          rw [next] at added
          match rest with
          | [] => exact added
          | following :: others =>
            dsimp only
            split
            · exact Stands.addAll added others (List.forall_mem_cons.mp later).2
            · exact Stands.addAll added (following :: others) later

/-- A reference without a meaning is reported at its own place, by induction on the references. -/
theorem errorsAt_foldlM_resolve (labels : List (String × Nat)) {references : List Reference}
    (placed : ∀ reference ∈ references, places reference.position) (code : Array Instruction)
    : ErrorsAt places (references.foldlM (resolve labels) code) := by
  induction references generalizing code with
  | nil => exact trivial
  | cons reference references ih =>
      rw [List.forall_mem_cons] at placed
      rw [List.foldlM_cons, resolve]
      cases labels.lookup reference.label with
      | none => exact placed.1
      | some target =>
          dsimp only
          cases Trap.modify code reference.index (·.withTarget target) with
          | error trap => exact trivial
          | ok code => exact ih placed.2 code

theorem Stands.errorsAt_finish (stands : draft.Stands places) : ErrorsAt places draft.finish := by
  obtain ⟨openLoops, references⟩ := stands
  rw [Draft.finish]
  cases loops : draft.openLoops with
  | nil =>
      have reversed : ∀ reference ∈ draft.references.reverse, places reference.position :=
        fun reference member => references reference (List.mem_reverse.mp member)
      exact (errorsAt_foldlM_resolve draft.labels reversed draft.code).map _
  | cons innermost outer =>
      rw [loops, List.forall_mem_cons] at openLoops
      exact openLoops.1

end Draft

/-- Every error in a list of tokens is at the place of one of them that ends no line. -/
theorem Program.errorsAt_ofTokens {places : Position → Prop} {tokens : List Token}
    (placed : ∀ token ∈ tokens, token.kind.endsLine = false → places token.position)
    : ErrorsAt places (Program.ofTokens tokens) := by
  have added := Draft.Stands.empty.addAll tokens placed
  rw [Program.ofTokens]
  cases result : Draft.addAll {} tokens with
  | error failure =>
      rw [result] at added
      exact added.of_error
  | ok draft =>
      rw [result] at added
      exact Draft.Stands.errorsAt_finish added

end Chiptune
