import Chiptune.Proofs.TwoPass.Loops

/-! The code of a list of statements taken apart. A part can be read on its own if it closes every
loop that it opens, or if what follows it closes none of its loops.
-/

namespace Chiptune.TwoPass

variable (target : String → Nat)

@[simp] theorem size_append (first second : List Statement)
    : size (first ++ second) = size first + size second :=
  List.countP_append

theorem size_cons (first : Statement) (rest : List Statement)
    : size (first :: rest) = size rest + if first.isLabel then 0 else 1 := by
  cases label : first.isLabel <;> simp [size, label]

@[simp] theorem size_nil : size [] = 0 := rfl

-----------------------------------------------------------------------------------------
-- Labels
-----------------------------------------------------------------------------------------

/-- What a label of the second part stands for is counted from the start of the first part. -/
theorem target?_append (name : String) (first second : List Statement)
    : target? name (first ++ second)
      = (target? name first).or ((target? name second).map (size first + ·)) := by
  have behind : contexts first second = (contexts [] second).map (Context.precede first) := by
    rw [← contexts_append_left, List.append_nil]
  rw [target?, contexts_append, List.findSome?_append, List.findSome?_map, List.nil_append, behind,
    List.findSome?_map, target?, target?, List.map_findSome?]
  congr 2
  funext context
  simp only [Function.comp_apply, Context.precede, Context.number, size_append]
  split <;> rfl

theorem target?_append_label {name : String} {before : List Statement}
    (first : target? name before = none) (after : List Statement)
    : target? name (before ++ .label name :: after) = some (size before) := by
  rw [target?_append, first]
  simp [target?, contexts, Context.number]

-----------------------------------------------------------------------------------------
-- Instructions
-----------------------------------------------------------------------------------------

/-- The code of statements that follow the statements `before`. -/
def codeAfter (before statements : List Statement) : List Instruction :=
  (contexts before statements).filterMap (instruction? target)

theorem codeAfter_cons (before : List Statement) (first : Statement) (rest : List Statement)
    : codeAfter target before (first :: rest)
      = (instruction? target ⟨before, first, rest⟩).toList
        ++ codeAfter target (before ++ [first]) rest := by
  simp only [codeAfter, contexts, List.filterMap_cons]
  cases instruction? target ⟨before, first, rest⟩ <;> rfl

@[simp] theorem codeAfter_nil (before : List Statement) : codeAfter target before [] = [] := rfl

theorem length_instruction? (context : Context Statement)
    : (instruction? target context).toList.length = if context.focus.isLabel then 0 else 1 := by
  obtain ⟨before, focus, after⟩ := context
  cases focus <;> rfl

@[simp] theorem length_codeAfter (before statements : List Statement)
    : (codeAfter target before statements).length = size statements := by
  induction statements generalizing before with
  | nil => rfl
  | cons first rest ih =>
      rw [codeAfter_cons, List.length_append, ih, length_instruction?, size_cons, Nat.add_comm]

def executable (before statements : List Statement) : List (Context Statement) :=
  (contexts before statements).filter (!·.focus.isLabel)

/-- Statements other than labels are numbered one after another, by induction on them. -/
theorem map_number_executable (before statements : List Statement)
    : (executable before statements).map Context.number
      = List.range' (size before) (size statements) := by
  induction statements generalizing before with
  | nil => rfl
  | cons first rest ih =>
      have later := ih (before ++ [first])
      cases label : first.isLabel <;>
        simp_all [executable, contexts, size_cons, List.range'_succ, Context.number]

/-- Each statement other than a label becomes one instruction, in order, by induction on them. -/
theorem map_instruction?_executable (before statements : List Statement)
    : (executable before statements).map (instruction? target)
      = (codeAfter target before statements).map some := by
  induction statements generalizing before with
  | nil => rfl
  | cons first rest ih =>
      have later := ih (before ++ [first])
      rw [codeAfter_cons, List.map_append, ← later]
      cases first <;> rfl

/-- What follows affects an instruction only through the exit of a loop, by cases. -/
theorem instruction?_extend {context : Context Statement} {later : List Statement}
    (same
      : context.focus.opensLoop
        → bodyOf? 0 (context.after ++ later) = bodyOf? 0 context.after)
    : instruction? target (context.extend later) = instruction? target context := by
  obtain ⟨before, focus, after⟩ := context
  cases focus with
  | repeatOpen count =>
      have search : bodyOf? 0 (after ++ later) = bodyOf? 0 after := same rfl
      simp only [instruction?, Context.extend, Context.exit, search, Context.number]
  | _ => rfl

/-- The code of a concatenation, if no instruction of the first part is affected by the second. -/
theorem codeAfter_append {before first second : List Statement}
    (same
      : ∀ context ∈ contexts before first,
          context.focus.opensLoop
          → bodyOf? 0 (context.after ++ second) = bodyOf? 0 context.after)
    : codeAfter target before (first ++ second)
      = codeAfter target before first ++ codeAfter target (before ++ first) second := by
  simp only [codeAfter, contexts_append, List.filterMap_append, List.filterMap_map]
  congr 1
  exact List.filterMap_congr fun context member =>
    instruction?_extend target (same context member)

/-- What closes no earlier loop does not change the code before it. -/
theorem Unclosing.codeAfter_append {second : List Statement} (unclosing : Unclosing second)
    (before first : List Statement)
    : codeAfter target before (first ++ second)
      = codeAfter target before first ++ codeAfter target (before ++ first) second :=
  TwoPass.codeAfter_append target fun _ _ _ => unclosing.bodyOf?_append 0 _

/-- Nothing that follows changes the code of a balanced list. -/
theorem Balanced.codeAfter_append {first : List Statement} (balanced : Balanced first)
    (before second : List Statement)
    : codeAfter target before (first ++ second)
      = codeAfter target before first ++ codeAfter target (before ++ first) second := by
  refine TwoPass.codeAfter_append target fun context member opens => ?_
  obtain ⟨inside, closed⟩ := balanced.closed before member opens
  rw [closed, bodyOf?_append_of_some closed]

/-- The code of a loop: its opening leads past its closing, and its closing leads back to the
instruction after the opening.
-/
theorem Balanced.codeAfter_loop {inside : List Statement} (balanced : Balanced inside)
    (count : UInt32) (before rest : List Statement)
    : codeAfter target before (.repeatOpen count :: (inside ++ .repeatClose :: rest))
      = .repeatOpen count (size before + size inside + 2)
        :: (codeAfter target (before ++ [.repeatOpen count]) inside
          ++ .repeatClose (size before + 1)
            :: codeAfter target (before ++ .repeatOpen count :: (inside ++ [.repeatClose]))
                rest) := by
  have exit : size before + 1 + size inside + 1 = size before + size inside + 2 := by omega
  have body := balanced.body_eq before count
  simp only [codeAfter_cons, instruction?, Context.exit, balanced.bodyOf?_close,
    Context.number, exit, balanced.codeAfter_append, Option.toList_some, List.append_assoc,
    List.cons_append, List.nil_append, body]

/-- The code while a loop is open: its opening has no exit yet. -/
theorem Balanced.codeAfter_open {inside : List Statement} (balanced : Balanced inside)
    (count : UInt32) (before : List Statement)
    : codeAfter target before (.repeatOpen count :: inside)
      = .repeatOpen count 0 :: codeAfter target (before ++ [.repeatOpen count]) inside := by
  simp [codeAfter_cons, instruction?, Context.exit, balanced.unclosing 0]

end Chiptune.TwoPass
