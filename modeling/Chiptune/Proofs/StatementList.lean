import Chiptune.Compile

/-! A list of tokens is divided into statements up to the first malformed one. Compiling tokens
is the same as dividing them and then adding the statements to an empty draft.
-/

namespace Chiptune

/-- A statement and the place of its first token. -/
structure PlacedStatement where
  statement : Statement
  position : Position
deriving DecidableEq

def PlacedStatement.statements (placed : List PlacedStatement) : List Statement :=
  placed.map (·.statement)

/-- Statements in source order, and why the next one is not read if there is one. -/
structure StatementList where
  placed : List PlacedStatement
  malformed : Option CompileFailure
deriving DecidableEq

namespace StatementList

def cons (first : PlacedStatement) (rest : StatementList) : StatementList :=
  { rest with placed := first :: rest.placed }

def statements (list : StatementList) : List Statement :=
  PlacedStatement.statements list.placed

/-- The statements of a list of tokens, up to the first malformed one. -/
def ofTokens : List Token → StatementList
  | [] => ⟨[], none⟩
  | head :: rest =>
    match Statement.ofTokens? head (Statement.argumentOf rest) with
    | .error failure => ⟨[], some failure⟩
    | .ok none => ofTokens rest
    | .ok (some statement) =>
      let first : PlacedStatement := ⟨statement, head.position⟩
      match rest with
      | [] => cons first ⟨[], none⟩
      | following :: later =>
        if statement.hasArgument then cons first (ofTokens later)
        else cons first (ofTokens (following :: later))

end StatementList

namespace Draft

/-- The draft with more statements, up to the first that cannot be added. -/
def addPlaced (draft : Draft) : List PlacedStatement → Except CompileFailure Draft
  | [] => .ok draft
  | first :: rest =>
    match draft.add first.position first.statement with
    | .error failure => .error failure
    | .ok next => next.addPlaced rest

/-- The draft with the statements of a list; a malformed one is met only after all others. -/
def addList (draft : Draft) (list : StatementList) : Except CompileFailure Draft :=
  (draft.addPlaced list.placed).bind fun next =>
    match list.malformed with
    | some failure => .error failure
    | none => .ok next

theorem addList_cons (draft : Draft) (first : PlacedStatement) (rest : StatementList)
    : draft.addList (.cons first rest)
      = (draft.add first.position first.statement).bind (·.addList rest) := by
  simp only [addList, StatementList.cons, addPlaced]
  cases draft.add first.position first.statement <;> rfl

/-- Reading tokens and adding their statements can be separated, by recursion along the
tokens.
-/
theorem addAll_eq_addList (draft : Draft)
    : (tokens : List Token) → draft.addAll tokens = draft.addList (.ofTokens tokens)
  | [] => rfl
  | head :: rest => by
    rw [addAll, StatementList.ofTokens]
    match Statement.ofTokens? head (Statement.argumentOf rest) with
    | .error failure => rfl
    | .ok none => exact addAll_eq_addList draft rest
    | .ok (some statement) =>
      match rest with
      | [] =>
        dsimp only
        rw [addList_cons]
        cases draft.add head.position statement <;> rfl
      | following :: later =>
        dsimp only
        -- An argument is passed over together with the word that it belongs to.
        cases takes : statement.hasArgument with
        | true =>
            rw [if_pos rfl, addList_cons]
            cases draft.add head.position statement with
            | error failure => rfl
            | ok next => exact (if_pos rfl).trans (addAll_eq_addList next later)
        | false =>
            rw [if_neg Bool.false_ne_true, addList_cons]
            cases draft.add head.position statement with
            | error failure => rfl
            | ok next =>
                exact (if_neg Bool.false_ne_true).trans
                  (addAll_eq_addList next (following :: later))

end Draft

end Chiptune
