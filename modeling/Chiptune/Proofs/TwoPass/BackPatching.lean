import Chiptune.Proofs.Arithmetic
import Chiptune.Proofs.TwoPass.Code

/-! One pass that puts targets in later builds the same program as two passes. While statements
are added, the draft holds what a second pass would make of the statements so far, if nothing
followed them and every label stood for the first instruction.
-/

namespace Chiptune

open TwoPass
open PlacedStatement (statements)

@[simp] theorem PlacedStatement.statements_append (first second : List PlacedStatement)
    : statements (first ++ second) = statements first ++ statements second :=
  List.map_append

@[simp] theorem PlacedStatement.statements_cons (first : PlacedStatement)
    (rest : List PlacedStatement)
    : statements (first :: rest) = first.statement :: statements rest := rfl

@[simp] theorem PlacedStatement.statements_nil : statements [] = [] := rfl

@[simp] theorem Instruction.withExit_repeatOpen (count : UInt32) (old exit : Nat)
    : (repeatOpen count old).withExit exit = repeatOpen count exit := rfl

namespace TwoPass

/-- The element behind `first` is modified in its place, by induction on `first`. -/
theorem modify_length_append {items : List α} (first : List α) (item : α) (rest : List α)
    (f : α → α) (split : items = first ++ item :: rest)
    : items.modify first.length f = first ++ f item :: rest := by
  subst split
  induction first with
  | nil => rfl
  | cons head tail ih => simp [ih]

-----------------------------------------------------------------------------------------
-- Loops that are still open
-----------------------------------------------------------------------------------------

/-- The number and place of each loop that statements leave open, the innermost first. Between two
of them, and after the last one, the statements are balanced.
-/
inductive OpenLoops : List PlacedStatement → List (Nat × Position) → Prop
  | closed {placed} (balanced : Balanced (statements placed)) : OpenLoops placed []
  | inner {before outer inside} (count : UInt32) (position : Position)
    (below : OpenLoops before outer) (balanced : Balanced (statements inside))
    : OpenLoops (before ++ ⟨.repeatOpen count, position⟩ :: inside)
        ((size (statements before), position) :: outer)

/-- Balanced statements change no open loop, by cases on the innermost one. -/
theorem OpenLoops.append {placed inside : List PlacedStatement} {loops}
    (loopsOpen : OpenLoops placed loops) (balanced : Balanced (statements inside))
    : OpenLoops (placed ++ inside) loops := by
  cases loopsOpen with
  | closed outside => exact .closed (by simpa using outside.append balanced)
  | inner count position below within =>
      simpa only [List.append_assoc, List.cons_append] using
        OpenLoops.inner count position below
          (by simpa using within.append balanced)

theorem OpenLoops.plain {placed : List PlacedStatement} {loops} {next : PlacedStatement}
    (loopsOpen : OpenLoops placed loops) (simple : next.statement.boundsLoop = false)
    : OpenLoops (placed ++ [next]) loops :=
  loopsOpen.append (.plain simple .nil)

/-- A closing closes the innermost loop, because it balances the statements from its opening. -/
theorem OpenLoops.close {placed : List PlacedStatement} {innermost outer}
    (loopsOpen : OpenLoops placed (innermost :: outer)) (position : Position)
    : OpenLoops (placed ++ [⟨.repeatClose, position⟩]) outer := by
  cases loopsOpen with
  | inner count place below within =>
      simpa only [List.append_assoc, List.cons_append] using
        below.append (by simpa using Balanced.loop count within .nil)

/-- The opening of the innermost loop stands among the statements. -/
theorem OpenLoops.number_lt {placed : List PlacedStatement} {innermost outer}
    (loopsOpen : OpenLoops placed (innermost :: outer))
    : innermost.1 < size (statements placed) := by
  cases loopsOpen with
  | inner count position below within =>
      rw [PlacedStatement.statements_append, PlacedStatement.statements_cons, size_append,
        size_cons]
      simp only [Statement.isLabel, Bool.false_eq_true, if_false]
      omega

theorem OpenLoops.opening? {placed : List PlacedStatement} {loops}
    (loopsOpen : OpenLoops placed loops)
    : (opening? (statements placed)).map Context.number = loops.head?.map Prod.fst := by
  cases loopsOpen with
  | closed balanced => rw [balanced.opening?_eq_none]; rfl
  | inner count position below within => simp [within.opening?_eq_some, Context.number]

/-- No opening in balanced statements is without a closing. -/
theorem Balanced.filter_isUnclosed {inside : List PlacedStatement}
    (balanced : Balanced (statements inside)) (before : List PlacedStatement)
    : (contexts before inside).filter (·.plain.isUnclosed) = [] := by
  refine List.filter_eq_nil_iff.mpr fun context member => ?_
  have plainMember : context.plain ∈ contexts (statements before) (statements inside) :=
    map_plain_contexts before inside ▸ List.mem_map_of_mem member
  by_cases opens : context.plain.focus.opensLoop
  · obtain ⟨body, closed⟩ := balanced.closed _ plainMember opens
    simp [Context.isUnclosed, closed]
  · simp [Context.isUnclosed, opens]

/-- The last opening without a closing is that of the innermost open loop. -/
theorem OpenLoops.lastUnclosed? {placed : List PlacedStatement} {loops}
    (loopsOpen : OpenLoops placed loops)
    : lastUnclosed? placed = loops.head?.map (⟨.openWithoutClose, ·.2⟩) := by
  cases loopsOpen with
  | closed balanced => simp [TwoPass.lastUnclosed?, balanced.filter_isUnclosed]
  | @inner before outer inside count position below within =>
      have unclosed
          : (Context.plain ⟨before, ⟨.repeatOpen count, position⟩, inside⟩).isUnclosed := by
        simp [Context.isUnclosed, Context.plain, Statement.opensLoop, within.unclosing 0]
      simp [TwoPass.lastUnclosed?, contexts_append, contexts, within.filter_isUnclosed,
        unclosed]

-----------------------------------------------------------------------------------------
-- Labels and references
-----------------------------------------------------------------------------------------

theorem target?_append_singleton (name : String) (before : List Statement) (last : Statement)
    : target? name (before ++ [last])
      = (target? name before).or (if last = .label name then some (size before) else none) := by
  rw [target?_append]
  congr 1
  split <;> simp_all [target?, contexts, Context.number]

/-- A label has a meaning exactly where it is defined. -/
theorem target?_eq_none_iff {name : String} {statements : List Statement}
    : target? name statements = none ↔ .label name ∉ statements := by
  have focuses := map_focus_contexts [] statements
  simp only [target?, List.findSome?_eq_none_iff, ite_eq_right_iff, reduceCtorEq, imp_false]
  constructor
  · intro other member
    rw [← focuses] at member
    obtain ⟨context, found, same⟩ := List.mem_map.mp member
    exact other context found same
  · intro absent context member same
    exact absent (focuses ▸ same ▸ List.mem_map_of_mem member)

/-- The jumps and calls among statements that follow the statements `before`. -/
def referencesAfter (before placed : List PlacedStatement) : List Reference :=
  (contexts before placed).filterMap fun context =>
    context.focus.statement.reference?.map fun label =>
      ⟨size (statements context.before), label, context.focus.position⟩

theorem referencesAfter_append (before first second : List PlacedStatement)
    : referencesAfter before (first ++ second)
      = referencesAfter before first ++ referencesAfter (before ++ first) second := by
  simp only [referencesAfter, contexts_append, List.filterMap_append, List.filterMap_map]
  rfl

theorem referencesAfter_cons (before : List PlacedStatement) (first : PlacedStatement)
    (rest : List PlacedStatement)
    : referencesAfter before (first :: rest)
      = (first.statement.reference?.map fun label =>
          (⟨size (statements before), label, first.position⟩ : Reference)).toList
        ++ referencesAfter (before ++ [first]) rest := by
  simp only [referencesAfter, contexts, List.filterMap_cons]
  cases first.statement.reference? <;> rfl

theorem instruction?_of_reference?_eq_none {statement : Statement}
    (other : statement.reference? = none) (first second : String → Nat)
    (before after : List Statement)
    : instruction? first ⟨before, statement, after⟩
      = instruction? second ⟨before, statement, after⟩ := by
  cases statement <;> first | rfl | cases other

theorem instruction?_of_reference? {statement : Statement} {name : String}
    (reference : statement.reference? = some name) (before after : List Statement)
    : ∃ instruction : Instruction,
        ∀ target,
          instruction? target ⟨before, statement, after⟩
            = some (instruction.withTarget (target name)) := by
  cases statement with
  | jump label => cases reference; exact ⟨.jump 0, fun _ => rfl⟩
  | call label => cases reference; exact ⟨.call 0, fun _ => rfl⟩
  | _ => cases reference

end TwoPass

@[simp] theorem Instruction.withTarget_withTarget (instruction : Instruction)
    (first second : Nat)
    : (instruction.withTarget first).withTarget second = instruction.withTarget second := by
  cases instruction <;> rfl

namespace Draft

/-- Draft targets: every jump and call leads to the first instruction until labels are known. -/
def noTarget : String → Nat :=
  fun _ => 0

/-- A draft holds the code of the statements added so far, with exits for the loops closed so far
and no targets yet; the meaning of their labels; their references; and their open loops.
-/
structure Matches (draft : Draft) (placed : List PlacedStatement) : Prop where
  code : draft.code.toList = codeAfter noTarget [] (statements placed)
  labels : ∀ name, draft.labels.lookup name = target? name (statements placed)
  references : draft.references.reverse = referencesAfter [] placed
  openLoops : OpenLoops placed draft.openLoops

namespace Matches

/-- The empty draft holds no statements. -/
theorem empty : Matches {} [] where
  code := rfl
  labels _ := rfl
  references := rfl
  openLoops := .closed .nil

variable {draft : Draft} {placed : List PlacedStatement}

theorem size_code (matching : draft.Matches placed)
    : draft.code.size = size (statements placed) := by
  rw [← Array.length_toList, matching.code, length_codeAfter]

/-- One more statement that closes no loop leaves the code before it as it was. -/
theorem code_append {next : PlacedStatement} (matching : draft.Matches placed)
    (other : next.statement ≠ .repeatClose)
    : codeAfter noTarget [] (statements (placed ++ [next]))
      = draft.code.toList
        ++ (instruction? noTarget ⟨statements placed, next.statement, []⟩).toList := by
  rw [PlacedStatement.statements_append, PlacedStatement.statements_cons,
    PlacedStatement.statements_nil, (unclosing_singleton other).codeAfter_append,
    codeAfter_cons, codeAfter_nil, List.append_nil, matching.code, List.nil_append]

/-- A statement that is no label leaves the meaning of labels as it was. -/
theorem labels_append {next : PlacedStatement} (matching : draft.Matches placed)
    (other : next.statement.isLabel = false) (name : String)
    : draft.labels.lookup name = target? name (statements (placed ++ [next])) := by
  have different : next.statement ≠ .label name := by
    intro same
    simp [same, Statement.isLabel] at other
  simp [target?_append_singleton, matching.labels, different]

/-- A statement that refers to no label leaves the references as they were. -/
theorem references_append {next : PlacedStatement} (matching : draft.Matches placed)
    (other : next.statement.reference? = none)
    : draft.references.reverse = referencesAfter [] (placed ++ [next]) := by
  rw [referencesAfter_append, referencesAfter_cons, other, matching.references]
  simp [referencesAfter, contexts]

-----------------------------------------------------------------------------------------
-- One statement
-----------------------------------------------------------------------------------------

/-- A statement that is neither a bound, a label nor a reference only adds its instruction. -/
theorem push {next : PlacedStatement} {instruction : Instruction}
    (matching : draft.Matches placed) (simple : next.statement.boundsLoop = false)
    (noLabel : next.statement.isLabel = false) (noReference : next.statement.reference? = none)
    (becomes
      : instruction? noTarget ⟨statements placed, next.statement, []⟩ = some instruction)
    : (draft.push instruction).Matches (placed ++ [next]) where
  code := by
    have other : next.statement ≠ .repeatClose := by
      intro same
      simp [same, Statement.boundsLoop] at simple
    rw [matching.code_append other, becomes]
    simp [Draft.push]
  labels := matching.labels_append noLabel
  references := matching.references_append noReference
  openLoops := matching.openLoops.plain simple

/-- A jump or call adds its instruction and a reference to it. -/
theorem pushReference {next : PlacedStatement} {instruction : Instruction} {label : String}
    (matching : draft.Matches placed) (simple : next.statement.boundsLoop = false)
    (noLabel : next.statement.isLabel = false)
    (reference : next.statement.reference? = some label)
    (becomes
      : instruction? noTarget ⟨statements placed, next.statement, []⟩ = some instruction)
    : (draft.pushReference instruction label next.position).Matches (placed ++ [next]) where
  code := by
    have other : next.statement ≠ .repeatClose := by
      intro same
      simp [same, Statement.boundsLoop] at simple
    rw [matching.code_append other, becomes]
    simp [Draft.pushReference, Draft.push]
  labels := matching.labels_append noLabel
  references := by
    rw [referencesAfter_append, referencesAfter_cons, reference, ← matching.references]
    simp [Draft.pushReference, Draft.push, matching.size_code, referencesAfter, contexts]
  openLoops := matching.openLoops.plain simple

theorem label {name : String} (matching : draft.Matches placed)
    (fresh : target? name (statements placed) = none) (position : Position)
    : Matches { draft with labels := (name, draft.code.size) :: draft.labels }
        (placed ++ [⟨.label name, position⟩]) where
  code := by
    rw [matching.code_append (by simp)]
    simp [instruction?]
  labels other := by
    rw [PlacedStatement.statements_append, PlacedStatement.statements_cons,
      PlacedStatement.statements_nil, target?_append_singleton, List.lookup_cons,
      matching.labels, matching.size_code]
    by_cases same : other = name
    · simp [same, fresh]
    · simp [beq_false_of_ne same, Ne.symm same]
  references := matching.references_append rfl
  openLoops := matching.openLoops.plain rfl

/-- An opening adds its instruction, without an exit, and an open loop. -/
theorem repeatOpen (matching : draft.Matches placed) (count : UInt32) (position : Position)
    : Matches
        { draft.push (.repeatOpen count 0) with
          openLoops := (draft.code.size, position) :: draft.openLoops }
        (placed ++ [⟨.repeatOpen count, position⟩]) where
  code := by
    rw [matching.code_append (by simp)]
    simp [Draft.push, instruction?, Context.exit, bodyOf?]
  labels := matching.labels_append rfl
  references := matching.references_append rfl
  openLoops := by
    rw [matching.size_code]
    exact .inner count position matching.openLoops .nil

/-- A closing puts the exit into the opening of the innermost loop, and nothing else changes. -/
theorem repeatClose {start : Nat} {place : Position} {outer : List (Nat × Position)}
    (matching : draft.Matches placed) (loops : draft.openLoops = (start, place) :: outer)
    (position : Position)
    : Matches
        { draft with
          code :=
            (draft.code.push (.repeatClose (start + 1))).modify start
              (·.withExit (draft.code.push (.repeatClose (start + 1))).size)
          openLoops := outer }
        (placed ++ [⟨.repeatClose, position⟩]) where
  code := by
    have loopsOpen := loops ▸ matching.openLoops
    have code := matching.code
    have size := matching.size_code
    cases loopsOpen with
    | @inner before _ inside count _ below within =>
        -- What stands inside balances, so neither the opening nor its closing affects other code.
        have opened := (within.unclosing_open count).codeAfter_append noTarget []
          (statements before)
        have closed := (Balanced.loop count within .nil).unclosing.codeAfter_append noTarget []
          (statements before)
        rw [PlacedStatement.statements_append, PlacedStatement.statements_cons, opened,
          within.codeAfter_open] at code
        have size : draft.code.size + 1
            = TwoPass.size (statements before) + TwoPass.size (statements inside) + 2 := by
          rw [matching.size_code, PlacedStatement.statements_append,
            PlacedStatement.statements_cons, size_append, size_cons]
          rfl
        have patched := modify_length_append (codeAfter noTarget [] (statements before))
          (.repeatOpen count 0)
          (codeAfter noTarget (statements before ++ [.repeatOpen count]) (statements inside)
            ++ [.repeatClose (TwoPass.size (statements before) + 1)])
          (·.withExit (draft.code.size + 1)) rfl
        rw [length_codeAfter, size] at patched
        simp [code, patched, closed, within.codeAfter_loop, size]
  labels := matching.labels_append rfl
  references := matching.references_append rfl
  openLoops := (loops ▸ matching.openLoops).close position

/-- A statement can be added exactly where a second pass finds no fault in it, by cases. -/
theorem add (matching : draft.Matches placed) (next : PlacedStatement)
    (rest : List PlacedStatement)
    : match fault? (Context.plain ⟨placed, next, rest⟩) with
      | some cause => draft.add next.position next.statement = reject cause next.position
      | none =>
        ∃ later,
          draft.add next.position next.statement = .ok later
          ∧ later.Matches (placed ++ [next]) := by
  obtain ⟨statement, position⟩ := next
  cases statement with
  | note | rest | tempo | comeBack | breakpoint =>
      exact ⟨_, rfl, matching.push rfl rfl rfl rfl⟩
  | jump | call => exact ⟨_, rfl, matching.pushReference rfl rfl rfl rfl⟩
  | repeatOpen count => exact ⟨_, rfl, matching.repeatOpen count position⟩
  | label name =>
      cases defined : target? name (statements placed) with
      | none =>
          have fresh := target?_eq_none_iff.mp defined
          simpa [fault?, Context.plain, fresh, Draft.add, matching.labels, defined] using
            matching.label defined position
      | some target =>
          have known : .label name ∈ statements placed := by
            by_contra absent
            simp [target?_eq_none_iff.mpr absent] at defined
          simp [fault?, Context.plain, known, Draft.add, matching.labels, defined]
  | repeatClose =>
      have belongs := matching.openLoops.opening?
      cases loops : draft.openLoops with
      | nil =>
          rw [loops] at belongs
          simp [fault?, Context.plain, Option.map_eq_none_iff.mp belongs, Draft.add, loops]
      | cons innermost outer =>
          obtain ⟨start, place⟩ := innermost
          rw [loops] at belongs
          obtain ⟨opening, found, -⟩ := Option.map_eq_some_iff.mp belongs
          have inside : start < (draft.code.push (.repeatClose (start + 1))).size := by
            rw [Array.size_push, matching.size_code]
            exact Nat.lt_succ_of_lt (loops ▸ matching.openLoops).number_lt
          have noFault
              : fault? (Context.plain ⟨placed, ⟨.repeatClose, position⟩, rest⟩) = none := by
            simp [fault?, Context.plain, found]
          rw [noFault]
          refine ⟨_, ?_, matching.repeatClose loops position⟩
          simp only [Draft.add, loops, Trap.modify_eq_ok inside]
          rfl

-----------------------------------------------------------------------------------------
-- All statements, and the targets at the end
-----------------------------------------------------------------------------------------

/-- Adding statements stops at the first fault that a second pass finds, by induction on them. -/
theorem addPlaced (matching : draft.Matches placed) (rest : List PlacedStatement)
    : match (contexts placed rest).findSome? fun context =>
          (fault? context.plain).map (⟨·, context.focus.position⟩) with
      | some error => draft.addPlaced rest = .error (.rejected error)
      | none => ∃ later, draft.addPlaced rest = .ok later ∧ later.Matches (placed ++ rest) := by
  induction rest generalizing draft placed with
  | nil => exact ⟨draft, rfl, by simpa using matching⟩
  | cons next rest ih =>
      have added := matching.add next rest
      simp only [contexts, List.findSome?_cons, Draft.addPlaced]
      cases fault : fault? (Context.plain ⟨placed, next, rest⟩) with
      | some cause =>
          rw [fault] at added
          simp [added, reject]
      | none =>
          rw [fault] at added
          obtain ⟨later, same, matching⟩ := added
          simpa [same] using ih matching

end Matches

/-- Putting in the targets of references one after another either meets the first label without
a meaning or gives the code with all targets, by induction on the statements.
-/
theorem foldlM_resolve {labels : List (String × Nat)} {target : String → Nat}
    (meaning : ∀ name index, labels.lookup name = some index → target name = index)
    (before rest : List PlacedStatement) (patched : List Instruction)
    (done : patched.length = size (statements before))
    : (referencesAfter before rest).foldlM (resolve labels)
        (patched ++ codeAfter noTarget (statements before) (statements rest)).toArray
      = match rest.findSome? (undefined? fun name => (labels.lookup name).isSome) with
        | some error => .error (.rejected error)
        | none =>
          .ok (patched ++ codeAfter target (statements before) (statements rest)).toArray := by
  induction rest generalizing before patched with
  | nil => rfl
  | cons next rest ih =>
      have plain : statements (before ++ [next]) = statements before ++ [next.statement] := by
        simp
      rw [referencesAfter_cons, PlacedStatement.statements_cons, codeAfter_cons,
        codeAfter_cons, List.findSome?_cons, undefined?]
      -- References are numbered by what is patched already, so this has to grow with `before`.
      have length (instruction : Option Instruction)
          (becomes
            : instruction? target ⟨statements before, next.statement, statements rest⟩
              = instruction)
          : (patched ++ instruction.toList).length = size (statements (before ++ [next])) := by
        rw [← becomes, List.length_append, done, length_instruction?, plain, size_append,
          size_cons]
        simp
      cases reference : next.statement.reference? with
      | none =>
          have same := instruction?_of_reference?_eq_none reference (noTarget) target
            (statements before) (statements rest)
          have later := ih (before ++ [next]) _ (length _ rfl)
          simpa [plain, same] using later
      | some name =>
          obtain ⟨instruction, becomes⟩ := instruction?_of_reference? reference
            (statements before) (statements rest)
          cases known : labels.lookup name with
          | none => simp [resolve, known, reject]; rfl
          | some index =>
              have put := modify_length_append patched (instruction.withTarget 0)
                (codeAfter noTarget (statements before ++ [next.statement]) (statements rest))
                (·.withTarget index) rfl
              have inside
                  : size (statements before)
                    < (patched
                        ++ instruction.withTarget 0
                          :: codeAfter noTarget (statements before ++ [next.statement])
                            (statements rest)).toArray.size := by
                simp [← done]
              have later := ih (before ++ [next]) _ (length _ (becomes target))
              simp only [meaning name index known, plain, Option.toList_some,
                List.append_assoc, List.cons_append, List.nil_append] at later
              rw [done, Instruction.withTarget_withTarget] at put
              simp only [becomes, noTarget, Option.map_some, Option.toList_some,
                List.cons_append, List.nil_append, List.foldlM_cons, resolve, known,
                Trap.modify_eq_ok inside, List.modify_toArray, put, meaning name index known,
                Option.bind_some, Option.isSome_some, if_true]
              exact later

namespace Matches

variable {draft : Draft} {placed : List PlacedStatement}

theorem isSome_lookup (matching : draft.Matches placed) (name : String)
    : (draft.labels.lookup name).isSome = decide (.label name ∈ statements placed) := by
  rw [matching.labels]
  cases known : target? name (statements placed) with
  | none => simp [target?_eq_none_iff.mp known]
  | some index =>
      by_cases member : .label name ∈ statements placed
      · simp [member]
      · simp [target?_eq_none_iff.mpr member] at known

/-- Finishing a draft checks its loops and references and puts in the targets. -/
theorem finish (matching : draft.Matches placed)
    : draft.finish
      = match lastUnclosed? placed <|> firstUndefined? placed with
        | some error => .error (.rejected error)
        | none =>
          let target name := (target? name (statements placed)).getD 0
          .ok { code := (TwoPass.code target (statements placed)).toArray } := by
  rw [matching.openLoops.lastUnclosed?, Draft.finish]
  cases loops : draft.openLoops with
  | cons innermost outer => rfl
  | nil =>
      have meaning (name index) (known : draft.labels.lookup name = some index)
          : (target? name (statements placed)).getD 0 = index := by
        rw [← matching.labels, known]
        rfl
      have resolved := foldlM_resolve meaning [] placed [] rfl
      rw [PlacedStatement.statements_nil, List.nil_append, ← matching.code,
        Array.toArray_toList] at resolved
      simp only [matching.references, resolved, matching.isSome_lookup]
      simp only [firstUndefined?, List.head?_nil, Option.map_none, List.nil_append]
      cases placed.findSome? _ <;> rfl

end Matches

end Draft

namespace TwoPass

/-- One pass over the statements of a list, which puts exits and targets in as it gets to know
them, gives the program and the errors of two passes.
-/
theorem finish_addList (list : StatementList)
    : (Draft.addList {} list).bind Draft.finish = program list := by
  have added := Draft.Matches.empty.addPlaced list.placed
  rw [program, failure?, firstFault?, Draft.addList]
  cases fault : (contexts [] list.placed).findSome? fun context =>
      (fault? context.plain).map (⟨·, context.focus.position⟩ : _ → CompileError) with
  | some error =>
      rw [fault] at added
      simp [added, Except.bind]
  | none =>
      rw [fault] at added
      obtain ⟨draft, same, matching⟩ := added
      cases malformed : list.malformed with
      | some failure => simp [same, Except.bind]
      | none =>
          rw [same]
          rw [List.nil_append] at matching
          refine matching.finish.trans ?_
          cases lastUnclosed? list.placed <|> firstUndefined? list.placed <;> rfl

/-- A song is compiled in one pass to the program, or to the error, that two passes give. In the
second pass the statements other than labels have the numbers from zero on, and each of them
becomes the one instruction with its number.
-/
theorem compile_eq_twoPass (source : List UInt8)
    : Program.compile source
        = (((Token.scan source).mapError .rejected).bind fun tokens => program (.ofTokens tokens))
      ∧ ∀ (target : String → Nat) (statements : List Statement),
          (executable [] statements).map Context.number
            = List.range (code target statements).length
          ∧ (executable [] statements).map (instruction? target)
            = (code target statements).map some := by
  refine ⟨?_, fun target statements => ⟨?_, map_instruction?_executable target [] statements⟩⟩
  · rw [Program.compile]
    congr 1
    funext tokens
    rw [Program.ofTokens, Draft.addAll_eq_addList, finish_addList]
  · have length : (code target statements).length = size statements :=
      length_codeAfter target [] statements
    rw [map_number_executable, length, List.range_eq_range']
    rfl

end TwoPass

end Chiptune
