import Chiptune.Proofs.Layout.Moving
import Chiptune.Proofs.TwoPass.Consistent

/-! How the kinds of tokens divide into statements. The end of a line is of account only between a
word and its argument: elsewhere it may be left out, stand twice, or be that of another text. A
text compiles exactly if its tokens divide into statements that make a program.
-/

namespace Chiptune

namespace Statement

/-- A statement is read from a token of the first kind, and from the next token of its line, which
is of the second kind if there is one.
-/
def StartsWith (statement : Statement) (kind : TokenKind) (argument : Option TokenKind) : Prop :=
  ofTokens? ⟨kind, .start⟩ (argument.map (⟨·, .start⟩)) = .ok (some statement)

/-- What tokens are read as depends on their kinds alone. -/
theorem startsWith_iff (head : Token) (argument : Option Token) {statement : Statement}
    : statement.StartsWith head.kind (argument.map (·.kind))
      ↔ ofTokens? head argument = .ok (some statement) := by
  refine Iff.trans ?_ (movedError_eq_ok_iff fun _ => .start)
  rw [← ofTokens?_moved, StartsWith, Option.map_map]
  rfl

theorem StartsWith.endsLine_eq_false {statement : Statement} {kind : TokenKind}
    {argument : Option TokenKind} (starts : statement.StartsWith kind argument)
    : kind.endsLine = false :=
  endsLine_of_ofTokens? starts

section

variable {head : Token} {position : Position} {argument : Option Token} {statement : Statement}

theorem argumentOf_cons_eq_some_iff {next found : Token} {rest : List Token}
    : argumentOf (next :: rest) = some found ↔ next.kind.endsLine = false ∧ next = found := by
  cases ends : next.kind.endsLine <;> simp [argumentOf, ends]

theorem isSome_of_lengthOf {subject : String} {length : Length}
    (read : lengthOf subject position argument = .ok length)
    : argument.isSome := by
  cases argument with
  | none => cases read
  | some token => rfl

theorem isSome_of_numberOf {directive : Keyword} {value : UInt32}
    (read : numberOf directive position argument = .ok value)
    : argument.isSome := by
  cases argument with
  | none => cases read
  | some token => rfl

theorem isSome_of_labelOf {directive : Keyword} {name : String}
    (read : labelOf directive position argument = .ok name)
    : argument.isSome := by
  cases argument with
  | none => cases read
  | some token => rfl

theorem hasArgument_of_noteOf {frequency : UInt32} {subject : String}
    (read : noteOf frequency subject position argument = .ok statement)
    : statement.hasArgument ∧ argument.isSome := by
  unfold noteOf at read
  split at read
  · cases read
  · obtain ⟨length, found, rfl⟩ := except_map_eq_ok.mp read
    exact ⟨rfl, isSome_of_lengthOf found⟩

/-- The argument of a directive is there, or is of no account; by cases on the directive. -/
theorem hasArgument_of_ofDirective {directive : Keyword}
    (read : ofDirective directive position argument = .ok statement)
    : (statement.hasArgument ∧ argument.isSome)
      ∨ (statement.hasArgument = false
        ∧ ∀ other, ofDirective directive position other = .ok statement) := by
  cases directive with
  | tempo =>
      simp only [ofDirective] at read
      split at read
      · cases read
      · next found =>
          split at read <;> cases read
          exact .inl ⟨rfl, isSome_of_numberOf found⟩
  | rest =>
      obtain ⟨_, found, rfl⟩ := except_map_eq_ok.mp read
      exact .inl ⟨rfl, isSome_of_lengthOf found⟩
  | repeatOpen =>
      obtain ⟨_, found, rfl⟩ := except_map_eq_ok.mp read
      exact .inl ⟨rfl, isSome_of_numberOf found⟩
  | label | jump | call =>
      obtain ⟨_, found, rfl⟩ := except_map_eq_ok.mp read
      exact .inl ⟨rfl, isSome_of_labelOf found⟩
  | repeatClose | comeBack | breakpoint =>
      cases read
      exact .inr ⟨rfl, fun _ => rfl⟩

/-- A token and the next one are read as the end of a line, as a statement with its argument, or
as a statement for which the next token is of no account; by cases on the first token.
-/
theorem ofTokens?_cases {statement? : Option Statement}
    (read : ofTokens? head argument = .ok statement?)
    : (statement? = none ∧ head.kind.endsLine)
      ∨ ∃ statement,
          statement? = some statement
          ∧ ((statement.hasArgument ∧ argument.isSome)
            ∨ (statement.hasArgument = false
              ∧ ∀ other, ofTokens? head other = .ok (some statement))) := by
  unfold ofTokens? at read ⊢
  cases kind : head.kind with
  | keyword directive =>
      rw [kind] at read
      obtain ⟨statement, found, rfl⟩ := except_map_eq_ok.mp read
      refine .inr ⟨statement, rfl, (hasArgument_of_ofDirective found).imp_right ?_⟩
      rintro ⟨bare, anyway⟩
      exact ⟨bare, fun other => except_map_eq_ok.mpr ⟨statement, anyway other, rfl⟩⟩
  | number frequency =>
      rw [kind] at read
      obtain ⟨statement, found, rfl⟩ := except_map_eq_ok.mp read
      exact .inr ⟨statement, rfl, .inl (hasArgument_of_noteOf found)⟩
  | word text =>
      simp only [kind] at read
      split at read
      · cases read
      · cases read
      · obtain ⟨statement, found, rfl⟩ := except_map_eq_ok.mp read
        exact .inr ⟨statement, rfl, .inl (hasArgument_of_noteOf found)⟩
  | newline | endOfInput =>
      rw [kind] at read
      cases read
      exact .inl ⟨rfl, rfl⟩

theorem hasArgument_of_ofTokens? (read : ofTokens? head argument = .ok (some statement))
    : (statement.hasArgument ∧ argument.isSome)
      ∨ (statement.hasArgument = false
        ∧ ∀ other, ofTokens? head other = .ok (some statement)) := by
  obtain ⟨none, -⟩ | ⟨_, same, found⟩ := ofTokens?_cases read
  · cases none
  · exact Option.some.inj same ▸ found

theorem ofTokens?_of_bare (read : ofTokens? head argument = .ok (some statement))
    (bare : statement.hasArgument = false) (other : Option Token)
    : ofTokens? head other = .ok (some statement) := by
  obtain ⟨takes, -⟩ | ⟨-, anyway⟩ := hasArgument_of_ofTokens? read
  · cases takes.symm.trans bare
  · exact anyway other

end

end Statement

-----------------------------------------------------------------------------------------
-- Dividing kinds of tokens
-----------------------------------------------------------------------------------------

/-- Tokens of the given kinds divide into the given statements. -/
inductive Divides : List TokenKind → List Statement → Prop
  | nil : Divides [] []
  | lineEnd {kind kinds statements} (ends : kind.endsLine) (tail : Divides kinds statements)
    : Divides (kind :: kinds) statements
  | bare {kind kinds statement statements} (bare : statement.hasArgument = false)
    (starts : statement.StartsWith kind none) (tail : Divides kinds statements)
    : Divides (kind :: kinds) (statement :: statements)
  | pair {kind argument kinds statement statements} (takes : statement.hasArgument)
    (inLine : argument.endsLine = false) (starts : statement.StartsWith kind (some argument))
    (tail : Divides kinds statements)
    : Divides (kind :: argument :: kinds) (statement :: statements)

namespace Divides

/-- Parts that are divided on their own are divided together, by induction on the first one. -/
theorem append {first second : List TokenKind} {statements later : List Statement}
    (left : Divides first statements) (right : Divides second later)
    : Divides (first ++ second) (statements ++ later) := by
  induction left with
  | nil => exact right
  | lineEnd ends _ ih => exact .lineEnd ends ih
  | bare bare starts _ ih => exact .bare bare starts ih
  | pair takes inLine starts _ ih => exact .pair takes inLine starts ih

/-- More ends of lines in front make no difference, by induction on them. -/
theorem lineEnds {ends kinds : List TokenKind} {statements : List Statement}
    (divides : Divides kinds statements) (endLines : ∀ kind ∈ ends, kind.endsLine)
    : Divides (ends ++ kinds) statements := by
  induction ends with
  | nil => exact divides
  | cons kind ends ih =>
      obtain ⟨first, later⟩ := List.forall_mem_cons.mp endLines
      exact .lineEnd first (ih later)

/-- The end of a line separates statements, by induction on the division. -/
theorem split {front back : List TokenKind} {kind : TokenKind} {statements : List Statement}
    (divides : Divides (front ++ kind :: back) statements) (ends : kind.endsLine)
    : ∃ first second,
        statements = first ++ second ∧ Divides front first ∧ Divides back second := by
  generalize whole : front ++ kind :: back = kinds at divides
  induction divides generalizing front with
  | nil => cases front <;> cases whole
  | lineEnd endsFirst tail ih =>
      cases front with
      | nil =>
          cases whole
          exact ⟨[], _, rfl, .nil, tail⟩
      | cons _ front =>
          obtain ⟨rfl, rest⟩ := List.cons.inj whole
          obtain ⟨first, second, rfl, left, right⟩ := ih rest
          exact ⟨first, second, rfl, .lineEnd endsFirst left, right⟩
  | @bare head _ statement _ bare starts _ ih =>
      cases front with
      | nil =>
          cases whole
          cases ends.symm.trans starts.endsLine_eq_false
      | cons _ front =>
          obtain ⟨rfl, rest⟩ := List.cons.inj whole
          obtain ⟨first, second, rfl, left, right⟩ := ih rest
          exact ⟨statement :: first, second, rfl, .bare bare starts left, right⟩
  | @pair head argument _ statement _ takes inLine starts _ ih =>
      match front with
      | [] =>
        cases whole
        cases ends.symm.trans starts.endsLine_eq_false
      | [_] =>
        cases whole
        cases ends.symm.trans inLine
      | _ :: _ :: front =>
        obtain ⟨rfl, others⟩ := List.cons.inj whole
        obtain ⟨rfl, rest⟩ := List.cons.inj others
        obtain ⟨first, second, rfl, left, right⟩ := ih rest
        exact ⟨statement :: first, second, rfl, .pair takes inLine starts left, right⟩

end Divides

namespace StatementList

/-- What divides into statements is read as them, whatever follows; by induction on the division. -/
theorem ofTokens_append {tokens : List Token} {statements : List Statement}
    (divides : Divides (tokens.map (·.kind)) statements) (more : List Token)
    : (ofTokens (tokens ++ more)).malformed = (ofTokens more).malformed
      ∧ (ofTokens (tokens ++ more)).statements = statements ++ (ofTokens more).statements := by
  generalize same : tokens.map (·.kind) = kinds at divides
  induction divides generalizing tokens with
  | nil =>
      obtain rfl := List.map_eq_nil_iff.mp same
      exact ⟨rfl, rfl⟩
  | lineEnd ends _ ih =>
      obtain ⟨⟨kind, place⟩, rest, rfl, rfl, rfl⟩ := List.map_eq_cons_iff.mp same
      have later := ih rfl
      cases kind with
      | newline | endOfInput => exact later
      | keyword | number | word => cases ends
  | bare bare starts _ ih =>
      obtain ⟨head, rest, rfl, rfl, rfl⟩ := List.map_eq_cons_iff.mp same
      obtain ⟨malformed, later⟩ := ih rfl
      rw [List.cons_append, ofTokens]
      generalize rest ++ more = following at malformed later
      have alone := (Statement.startsWith_iff head none).mp starts
      rw [Statement.ofTokens?_of_bare alone bare (Statement.argumentOf following)]
      cases following with
      | nil => exact ⟨malformed, congrArg _ later⟩
      | cons next following =>
          simp only [bare, if_neg Bool.false_ne_true]
          exact ⟨malformed, congrArg _ later⟩
  | pair takes inLine starts _ ih =>
      obtain ⟨head, rest, rfl, rfl, others⟩ := List.map_eq_cons_iff.mp same
      obtain ⟨argument, rest, rfl, rfl, rfl⟩ := List.map_eq_cons_iff.mp others
      obtain ⟨malformed, later⟩ := ih rfl
      have read := (Statement.startsWith_iff head (some argument)).mp starts
      have follows : Statement.argumentOf (argument :: (rest ++ more)) = some argument :=
        Statement.argumentOf_cons_eq_some_iff.mpr ⟨inLine, rfl⟩
      rw [List.cons_append, List.cons_append, ofTokens, follows, read]
      simp only [takes, if_true]
      exact ⟨malformed, congrArg _ later⟩

theorem ofTokens_of_divides {tokens : List Token} {statements : List Statement}
    (divides : Divides (tokens.map (·.kind)) statements)
    : (ofTokens tokens).malformed = none ∧ (ofTokens tokens).statements = statements := by
  obtain ⟨wellFormed, same⟩ := ofTokens_append divides []
  rw [List.append_nil] at wellFormed same
  exact ⟨wellFormed, same.trans (List.append_nil statements)⟩

/-- Why the reading of tokens stops in front of these: they end, or a statement is malformed. -/
inductive StopsAt : List Token → Option CompileFailure → Prop
  | atEnd : StopsAt [] none
  | malformed {head rest failure}
    (wrong : Statement.ofTokens? head (Statement.argumentOf rest) = .error failure)
    : StopsAt (head :: rest) (some failure)

/-- The tokens before the one where the reading stops divide into the statements that are read, by
induction along the tokens.
-/
theorem exists_stopsAt (tokens : List Token)
    : ∃ before after,
        tokens = before ++ after
        ∧ Divides (before.map (·.kind)) (ofTokens tokens).statements
        ∧ StopsAt after (ofTokens tokens).malformed := by
  fun_induction ofTokens tokens with
  | case1 => exact ⟨[], [], rfl, .nil, .atEnd⟩
  | case2 head rest failure wrong => exact ⟨[], head :: rest, rfl, .nil, .malformed wrong⟩
  | case3 head rest empty ih =>
      obtain ⟨before, after, split, divides, stops⟩ := ih
      obtain ⟨-, ends⟩ | ⟨_, none, -⟩ := Statement.ofTokens?_cases empty
      · exact ⟨head :: before, after, congrArg _ split, .lineEnd ends divides, stops⟩
      · cases none
  | case4 head statement first read =>
      obtain ⟨-, follows⟩ | ⟨bare, -⟩ := Statement.hasArgument_of_ofTokens? read
      · cases follows
      · have starts := (Statement.startsWith_iff head none).mpr read
        exact ⟨[head], [], rfl, .bare bare starts .nil, .atEnd⟩
  | case5 head statement first following later takes read ih =>
      obtain ⟨before, after, split, divides, stops⟩ := ih
      obtain ⟨-, isSome⟩ | ⟨bare, -⟩ := Statement.hasArgument_of_ofTokens? read
      · obtain ⟨argument, follows⟩ := Option.isSome_iff_exists.mp isSome
        obtain ⟨inLine, rfl⟩ := Statement.argumentOf_cons_eq_some_iff.mp follows
        rw [follows] at read
        have starts := (Statement.startsWith_iff head (some following)).mpr read
        exact ⟨head :: following :: before, after, congrArg (head :: following :: ·) split,
          .pair takes inLine starts divides, stops⟩
      · cases takes.symm.trans bare
  | case6 head statement first following later noArgument read ih =>
      obtain ⟨before, after, split, divides, stops⟩ := ih
      have bare := Bool.not_eq_true _ ▸ noArgument
      have alone := Statement.ofTokens?_of_bare read bare none
      have starts := (Statement.startsWith_iff head none).mpr alone
      exact ⟨head :: before, after, congrArg _ split, .bare bare starts divides, stops⟩

/-- What is read without an error divides into statements. -/
theorem divides_of_ofTokens {tokens : List Token} (wellFormed : (ofTokens tokens).malformed = none)
    : Divides (tokens.map (·.kind)) (ofTokens tokens).statements := by
  obtain ⟨before, after, split, divides, stops⟩ := exists_stopsAt tokens
  rw [wellFormed] at stops
  cases stops
  obtain rfl := split.trans (List.append_nil before)
  exact divides

/-- A statement is malformed if its tokens are read as none, behind others that divide. -/
theorem malformed_eq_some_iff {tokens : List Token} {failure : CompileFailure}
    : (ofTokens tokens).malformed = some failure
      ↔ ∃ before head after,
          tokens = before ++ head :: after
          ∧ Divides (before.map (·.kind)) (ofTokens tokens).statements
          ∧ Statement.ofTokens? head (Statement.argumentOf after) = .error failure := by
  constructor
  · intro malformed
    obtain ⟨before, after, split, divides, stops⟩ := exists_stopsAt tokens
    rw [malformed] at stops
    cases stops with
    | malformed wrong => exact ⟨before, _, _, split, divides, wrong⟩
  · rintro ⟨before, head, after, rfl, divides, wrong⟩
    rw [(ofTokens_append divides (head :: after)).1, ofTokens, wrong]

end StatementList

-----------------------------------------------------------------------------------------
-- Texts
-----------------------------------------------------------------------------------------

/-- A text has tokens, and they divide into the given statements. -/
def ReadAs (source : List UInt8) (statements : List Statement) : Prop :=
  ∃ tokens, Token.scan source = .ok tokens ∧ Divides (tokens.map (·.kind)) statements

/-- A text compiles exactly if it is read as consistent statements, and to their program. -/
theorem Program.compile_eq_ok_iff {source : List UInt8} {program : Program}
    : compile source = .ok program
      ↔ ∃ statements,
          ReadAs source statements ∧ TwoPass.Consistent statements
          ∧ program = TwoPass.image statements := by
  constructor
  · intro compiled
    cases scanned : Token.scan source with
    | error stray =>
        rw [compile_of_stray scanned] at compiled
        cases compiled
    | ok tokens =>
        rw [compile_of_scan scanned, ofTokens_eq_program] at compiled
        obtain ⟨wellFormed, consistent, same⟩ := TwoPass.program_eq_ok_iff.mp compiled
        have divides := StatementList.divides_of_ofTokens wellFormed
        exact ⟨_, ⟨tokens, scanned, divides⟩, consistent, same⟩
  · rintro ⟨statements, ⟨tokens, scanned, divides⟩, consistent, rfl⟩
    obtain ⟨wellFormed, rfl⟩ := StatementList.ofTokens_of_divides divides
    rw [compile_of_scan scanned, ofTokens_eq_program]
    exact TwoPass.program_eq_ok_iff.mpr ⟨wellFormed, consistent, rfl⟩

end Chiptune
