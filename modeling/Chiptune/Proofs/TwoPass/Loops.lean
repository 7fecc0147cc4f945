import Chiptune.Proofs.TwoPass
import Mathlib.Data.List.Basic

/-! Loops among statements. A balanced list closes every loop that it opens and no other one, so
the search for the closing of a loop passes over it, and the code of its statements does not
depend on what follows.
-/

namespace Chiptune

namespace Statement

def boundsLoop (statement : Statement) : Bool :=
  statement.opensLoop || statement = .repeatClose

theorem opensLoop_of_plain {statement : Statement} (simple : statement.boundsLoop = false)
    : statement.opensLoop = false :=
  (Bool.or_eq_false_iff.mp simple).1

theorem ne_repeatClose_of_plain {statement : Statement} (simple : statement.boundsLoop = false)
    : statement ≠ .repeatClose :=
  of_decide_eq_false (Bool.or_eq_false_iff.mp simple).2

@[simp] theorem depthAfter?_repeatOpen (depth : Nat) (count : UInt32)
    : (repeatOpen count).depthAfter? depth = some (depth + 1) := rfl

@[simp] theorem depthAfter?_repeatClose_zero : repeatClose.depthAfter? 0 = none := rfl

@[simp] theorem depthAfter?_repeatClose_succ (depth : Nat)
    : repeatClose.depthAfter? (depth + 1) = some depth := rfl

theorem depthAfter?_plain {statement : Statement} (simple : statement.boundsLoop = false)
    (depth : Nat)
    : statement.depthAfter? depth = some depth := by
  simp [depthAfter?, opensLoop_of_plain simple, ne_repeatClose_of_plain simple]

theorem depthAfter?_of_ne_repeatClose {statement : Statement} (other : statement ≠ .repeatClose)
    (depth : Nat)
    : (statement.depthAfter? depth).isSome := by
  cases opens : statement.opensLoop <;> simp [depthAfter?, opens, other]

end Statement

namespace TwoPass

/-- Every loop that the statements open is closed by them, and they close no other one. -/
inductive Balanced : List Statement → Prop
  | nil : Balanced []
  | plain {statement rest} (simple : statement.boundsLoop = false) (tail : Balanced rest)
    : Balanced (statement :: rest)
  | loop (count : UInt32) {body rest} (inside : Balanced body) (tail : Balanced rest)
    : Balanced (.repeatOpen count :: (body ++ .repeatClose :: rest))

theorem Balanced.append {first second : List Statement} (left : Balanced first)
    (right : Balanced second)
    : Balanced (first ++ second) := by
  induction left with
  | nil => exact right
  | plain simple _ ih => exact .plain simple ih
  | loop count inside _ _ ih =>
      simpa only [List.cons_append, List.append_assoc] using Balanced.loop count inside ih

-----------------------------------------------------------------------------------------
-- The search for the closing of a loop
-----------------------------------------------------------------------------------------

/-- A statement that closes no outer loop is passed over. -/
theorem bodyOf?_cons {statement : Statement} {depth next : Nat}
    (goesOn : statement.depthAfter? depth = some next) (rest : List Statement)
    : bodyOf? depth (statement :: rest) = (bodyOf? next rest).map (statement :: ·) := by
  rw [bodyOf?, goesOn]

theorem bodyOf?_closed {statement : Statement} {depth : Nat}
    (closes : statement.depthAfter? depth = none) (rest : List Statement)
    : bodyOf? depth (statement :: rest) = some [] := by
  rw [bodyOf?, closes]

/-- A balanced list is passed over, by induction on it. -/
theorem Balanced.bodyOf?_append {inside : List Statement} (balanced : Balanced inside)
    (depth : Nat) (rest : List Statement)
    : bodyOf? depth (inside ++ rest) = (bodyOf? depth rest).map (inside ++ ·) := by
  induction balanced generalizing depth rest with
  | nil => simp
  | plain simple _ ih =>
      rw [List.cons_append, bodyOf?_cons (Statement.depthAfter?_plain simple depth), ih,
        Option.map_map]
      rfl
  | loop count _ _ insideIH tailIH =>
      rw [List.cons_append, List.append_assoc, List.cons_append,
        bodyOf?_cons (Statement.depthAfter?_repeatOpen depth count), insideIH,
        bodyOf?_cons (Statement.depthAfter?_repeatClose_succ depth), tailIH]
      simp [Option.map_map, Function.comp_def]

/-- The body of a loop is what stands before the closing that balances it. -/
theorem Balanced.bodyOf?_close {inside : List Statement} (balanced : Balanced inside)
    (rest : List Statement)
    : bodyOf? 0 (inside ++ .repeatClose :: rest) = some inside := by
  rw [balanced.bodyOf?_append, bodyOf?_closed Statement.depthAfter?_repeatClose_zero]
  simp

/-- A closing that was found is not affected by what follows, by induction along the search. -/
theorem bodyOf?_append_of_some {depth : Nat} {statements inside : List Statement}
    (found : bodyOf? depth statements = some inside) (rest : List Statement)
    : bodyOf? depth (statements ++ rest) = some inside := by
  induction statements generalizing depth inside with
  | nil => cases found
  | cons statement later ih =>
      cases after : statement.depthAfter? depth with
      | none =>
          rw [bodyOf?_closed after] at found
          rw [List.cons_append, bodyOf?_closed after, found]
      | some next =>
          rw [bodyOf?_cons after] at found
          obtain ⟨body, search, rfl⟩ := Option.map_eq_some_iff.mp found
          rw [List.cons_append, bodyOf?_cons after, ih search, Option.map_some]

/-- The body of a loop is shorter than what it is searched in, for the closing is left out. -/
theorem length_lt_of_bodyOf? {depth : Nat} {statements inside : List Statement}
    (found : bodyOf? depth statements = some inside)
    : inside.length < statements.length := by
  induction statements generalizing depth inside with
  | nil => cases found
  | cons statement later ih =>
      cases after : statement.depthAfter? depth with
      | none =>
          rw [bodyOf?_closed after] at found
          simp [← Option.some.inj found]
      | some next =>
          rw [bodyOf?_cons after] at found
          obtain ⟨body, search, rfl⟩ := Option.map_eq_some_iff.mp found
          exact Nat.succ_lt_succ (ih search)

/-- The statements close no loop that was opened before them. -/
def Unclosing (statements : List Statement) : Prop :=
  ∀ depth, bodyOf? depth statements = none

/-- A balanced list closes no loop opened before it. -/
theorem Balanced.unclosing {inside : List Statement} (balanced : Balanced inside)
    : Unclosing inside := by
  intro depth
  simpa [bodyOf?] using balanced.bodyOf?_append depth []

/-- An opening followed by a balanced list closes no loop opened before it. -/
theorem Balanced.unclosing_open {inside : List Statement} (balanced : Balanced inside)
    (count : UInt32)
    : Unclosing (.repeatOpen count :: inside) := by
  intro depth
  rw [bodyOf?_cons (Statement.depthAfter?_repeatOpen depth count), balanced.unclosing]
  rfl

/-- What closes no earlier loop does not affect the search for a closing before it. -/
theorem Unclosing.bodyOf?_append {later : List Statement} (unclosing : Unclosing later)
    (depth : Nat) (statements : List Statement)
    : bodyOf? depth (statements ++ later) = bodyOf? depth statements := by
  induction statements generalizing depth with
  | nil => exact unclosing depth
  | cons statement rest ih =>
      cases after : statement.depthAfter? depth with
      | none => rw [List.cons_append, bodyOf?_closed after, bodyOf?_closed after]
      | some next => rw [List.cons_append, bodyOf?_cons after, bodyOf?_cons after, ih]

theorem unclosing_singleton {statement : Statement} (other : statement ≠ .repeatClose)
    : Unclosing [statement] := by
  intro depth
  obtain ⟨next, after⟩ :=
    Option.isSome_iff_exists.mp (Statement.depthAfter?_of_ne_repeatClose other depth)
  rw [bodyOf?_cons after]
  rfl

-----------------------------------------------------------------------------------------
-- Contexts
-----------------------------------------------------------------------------------------

def Context.extend (later : List α) (context : Context α) : Context α :=
  { context with after := context.after ++ later }

/-- The contexts of a concatenation are those of its parts, each seeing the other part. -/
theorem contexts_append (before first second : List α)
    : contexts before (first ++ second)
      = (contexts before first).map (Context.extend second)
        ++ contexts (before ++ first) second := by
  induction first generalizing before with
  | nil => simp [contexts]
  | cons head rest ih => simp [contexts, ih, Context.extend]

def Context.precede (earlier : List α) (context : Context α) : Context α :=
  { context with before := earlier ++ context.before }

/-- What stands before all elements stands before each of them, by induction on the list. -/
theorem contexts_append_left (earlier before items : List α)
    : contexts (earlier ++ before) items
      = (contexts before items).map (Context.precede earlier) := by
  induction items generalizing before with
  | nil => rfl
  | cons head rest ih =>
      rw [contexts, List.append_assoc, ih]
      rfl

@[simp] theorem map_focus_contexts (before items : List α)
    : (contexts before items).map (·.focus) = items := by
  induction items generalizing before with
  | nil => rfl
  | cons head rest ih => simp [contexts, ih]

/-- Places can be left out before or after the contexts are taken, by induction on the list. -/
theorem map_plain_contexts (before placed : List PlacedStatement)
    : (contexts before placed).map Context.plain
      = contexts (PlacedStatement.statements before) (PlacedStatement.statements placed) := by
  induction placed generalizing before with
  | nil => rfl
  | cons first rest ih =>
      have later := ih (before ++ [first])
      simp only [PlacedStatement.statements, List.map_append, List.map_cons, List.map_nil]
        at later
      simp only [contexts, List.map_cons, Context.plain, PlacedStatement.statements, later]

theorem Balanced.closed {statements : List Statement} (balanced : Balanced statements)
    (before : List Statement) {context : Context Statement}
    (member : context ∈ contexts before statements) (opens : context.focus.opensLoop)
    : ∃ inside, bodyOf? 0 context.after = some inside := by
  induction balanced generalizing before context with
  | nil => cases member
  | plain simple _ ih =>
      rcases List.mem_cons.mp member with rfl | later
      · cases opens.symm.trans (Statement.opensLoop_of_plain simple)
      · exact ih _ later opens
  | @loop count body rest inside _ insideIH tailIH =>
      simp only [contexts, contexts_append, List.mem_cons, List.mem_append, List.mem_map]
        at member
      rcases member with rfl | ⟨inner, within, rfl⟩ | rfl | later
      · exact ⟨body, inside.bodyOf?_close rest⟩
      · obtain ⟨found, search⟩ := insideIH _ within opens
        exact ⟨found, bodyOf?_append_of_some search _⟩
      · cases opens
      · exact tailIH _ later opens

-----------------------------------------------------------------------------------------
-- The opening that a closing belongs to
-----------------------------------------------------------------------------------------

/-- A loop that is closed before the end of a list is not the one that a closing after the list
closes, because its body is shorter.
-/
theorem Context.isLastOpen_of_closed {context : Context Statement} {inside : List Statement}
    (closed : bodyOf? 0 context.after = some inside)
    : context.isLastOpen = false := by
  have shorter := length_lt_of_bodyOf? closed
  have search := bodyOf?_append_of_some closed [.repeatClose]
  simp only [isLastOpen, search, Option.some.injEq, Bool.and_eq_false_imp,
    decide_eq_false_iff_not]
  rintro - rfl
  omega

/-- A closing after a balanced list belongs to no opening in it. -/
theorem Balanced.opening?_eq_none {statements : List Statement}
    (balanced : Balanced statements)
    : opening? statements = none := by
  refine List.find?_eq_none.mpr fun context member => ?_
  by_cases opens : context.focus.opensLoop
  · obtain ⟨inside, closed⟩ := balanced.closed [] member opens
    simp [Context.isLastOpen_of_closed closed]
  · simp [Context.isLastOpen, opens]

/-- A closing belongs to the opening that only a balanced list separates from it. -/
theorem Balanced.opening?_eq_some {inside : List Statement} (balanced : Balanced inside)
    (before : List Statement) (count : UInt32)
    : opening? (before ++ .repeatOpen count :: inside)
      = some ⟨before, .repeatOpen count, inside⟩ := by
  have passedOver : ((contexts [] before).map (Context.extend (.repeatOpen count :: inside))).find?
      Context.isLastOpen = none := by
    refine List.find?_eq_none.mpr fun context member => ?_
    obtain ⟨outer, -, rfl⟩ := List.mem_map.mp member
    have unclosing := (Balanced.loop count balanced .nil).unclosing
    simp only [Context.isLastOpen, Context.extend, List.append_assoc, List.cons_append,
      unclosing.bodyOf?_append, Bool.and_eq_true, decide_eq_true_eq, not_and]
    intro _ found
    have shorter := length_lt_of_bodyOf? found
    simp only [List.length_append, List.length_cons] at shorter
    omega
  have found : Context.isLastOpen ⟨before, .repeatOpen count, inside⟩ := by
    simp [Context.isLastOpen, Statement.opensLoop, balanced.bodyOf?_close []]
  simp [opening?, contexts_append, passedOver, contexts, found]

/-- The index put into a closing is the one after the opening that it belongs to. -/
theorem Balanced.body_eq {inside : List Statement} (balanced : Balanced inside)
    (before : List Statement) (count : UInt32)
    : body (before ++ .repeatOpen count :: inside) = size before + 1 := by
  simp only [body, balanced.opening?_eq_some, Context.number]

end TwoPass

end Chiptune
