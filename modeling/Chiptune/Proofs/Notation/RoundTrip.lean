import Chiptune.Proofs.Notation.Reading
import Chiptune.Proofs.TwoPass.Consistent

/-! Writing a program in song notation and compiling the text again gives the same instructions,
exactly if the program is well-formed. The labels of the text stand where the jumps and calls lead
to, and the openings and closings of nested code balance.
-/

namespace Chiptune

open TwoPass

namespace Notation

-----------------------------------------------------------------------------------------
-- The statements of nested code
-----------------------------------------------------------------------------------------

variable (labelled : Nat → Bool)

theorem statementsFrom_append (index : Nat) (first second : List Instruction)
    : statementsFrom labelled index (first ++ second)
      = statementsFrom labelled index first
        ++ statementsFrom labelled (index + first.length) second := by
  induction first generalizing index with
  | nil => rfl
  | cons instruction rest ih => simp [statementsFrom, ih, Nat.add_comm, Nat.add_left_comm]

/-- The statements of a loop: the label of its closing stands inside it. -/
theorem statementsFrom_loop (index : Nat) (count : UInt32) (exit inner : Nat)
    (body rest : List Instruction)
    : statementsFrom labelled index (.repeatOpen count exit :: (body ++ .repeatClose inner :: rest))
      = labelAt labelled index
        ++ .repeatOpen count
          :: ((statementsFrom labelled (index + 1) body
            ++ labelAt labelled (index + 1 + body.length))
              ++ .repeatClose :: statementsFrom labelled (index + body.length + 2) rest) := by
  have next : index + 1 + body.length + 1 = index + body.length + 2 := by omega
  simp [statementsFrom, statementsFrom_append, Instruction.toStatement, next]

@[simp] theorem isLabel_toStatement (instruction : Instruction)
    : instruction.toStatement.isLabel = false := by
  cases instruction <;> rfl

theorem balanced_labelAt (index : Nat) : Balanced (labelAt labelled index) := by
  unfold labelAt
  split
  · exact .plain rfl .nil
  · exact .nil

@[simp] theorem size_labelAt (index : Nat) : size (labelAt labelled index) = 0 := by
  unfold labelAt
  split <;> rfl

@[simp] theorem size_statementsFrom (index : Nat) (code : List Instruction)
    : size (statementsFrom labelled index code) = code.length := by
  induction code generalizing index with
  | nil => rfl
  | cons instruction rest ih => simp [statementsFrom, size_cons, ih]

/-- The statements of nested code balance, by induction on the nesting. -/
theorem balanced_statementsFrom {index : Nat} {code : List Instruction}
    (nested : Nested index code)
    : Balanced (statementsFrom labelled index code) := by
  induction nested with
  | nil => exact .nil
  | @plain start instruction rest simple _ ih =>
      refine (balanced_labelAt labelled start).append (.plain ?_ ih)
      cases instruction <;> first | rfl | cases simple
  | @loop start body rest count _ _ insideIH tailIH =>
      have inside := insideIH.append (balanced_labelAt labelled (start + 1 + body.length))
      rw [statementsFrom_loop]
      exact (balanced_labelAt labelled start).append (.loop count inside tailIH)

/-- The labels among the statements are those of the labelled indices, in order. -/
theorem filter_isLabel_statementsFrom (index : Nat) (code : List Instruction)
    : (statementsFrom labelled index code ++ labelAt labelled (index + code.length)).filter
        Statement.isLabel
      = ((List.range' index (code.length + 1)).filter labelled).map (.label ∘ labelName) := by
  have here (index : Nat) (rest : List Nat)
      : (labelAt labelled index).filter Statement.isLabel
          ++ (rest.filter labelled).map (.label ∘ labelName)
        = ((index :: rest).filter labelled).map (Statement.label ∘ labelName) := by
    cases isLabelled : labelled index with
    | false => simp [labelAt, isLabelled]
    | true => simp [labelAt, isLabelled]; rfl
  induction code generalizing index with
  | nil => simpa [statementsFrom] using here index []
  | cons instruction rest ih =>
      have later := ih (index + 1)
      rw [Nat.add_right_comm, Nat.add_assoc, List.filter_append] at later
      rw [List.length_cons, List.range'_succ, ← here, ← later]
      simp [statementsFrom]

theorem isLabel_of_mem_labelAt {index : Nat} {statement : Statement}
    (member : statement ∈ labelAt labelled index)
    : statement = .label (labelName index) := by
  unfold labelAt at member
  split at member
  · exact List.mem_singleton.mp member
  · cases member

/-- A label changes nothing but what stands before the statements after it. -/
theorem codeAfter_labelAt_append (target : String → Nat) (index : Nat)
    (before rest : List Statement)
    : codeAfter target before (labelAt labelled index ++ rest)
      = codeAfter target (before ++ labelAt labelled index) rest := by
  unfold labelAt
  split
  · exact codeAfter_cons target before _ rest
  · simp

@[simp] theorem codeAfter_labelAt (target : String → Nat) (index : Nat) (before : List Statement)
    : codeAfter target before (labelAt labelled index) = [] := by
  have alone := codeAfter_labelAt_append labelled target index before []
  rwa [List.append_nil, codeAfter_nil] at alone

@[simp] theorem isTarget_append (first second : List Instruction) (index : Nat)
    : isTarget (first ++ second) index = (isTarget first index || isTarget second index) :=
  List.any_append

/-- An instruction that bounds no loop is what its statement becomes, by cases. -/
theorem instruction?_toStatement {target : String → Nat} {instruction : Instruction}
    (simple : instruction.boundsLoop = false)
    (known : ∀ place, isTarget [instruction] place → target (labelName place) = place)
    (before after : List Statement)
    : instruction? target ⟨before, instruction.toStatement, after⟩ = some instruction := by
  cases instruction with
  | repeatOpen | repeatClose => cases simple
  | jump place | call place =>
      have same := known place (by simp [isTarget])
      simp [instruction?, Instruction.toStatement, same]
  | _ => rfl

/-- The instructions that the statements of nested code become are the code, by induction on the
nesting.
-/
theorem codeAfter_statementsFrom {target : String → Nat} {index : Nat} {code : List Instruction}
    (nested : Nested index code)
    (known : ∀ place, isTarget code place → target (labelName place) = place)
    (before : List Statement) (same : size before = index)
    : codeAfter target before (statementsFrom labelled index code) = code := by
  induction nested generalizing before with
  | nil => rfl
  | @plain start instruction rest simple _ ih =>
      rw [← List.singleton_append] at known
      simp only [isTarget_append, Bool.or_eq_true] at known
      have later := ih (fun place member => known place (.inr member))
        (before ++ labelAt labelled start ++ [instruction.toStatement])
        (by simp [size_cons, same])
      rw [statementsFrom, codeAfter_labelAt_append, codeAfter_cons, later,
        instruction?_toStatement simple fun place member => known place (.inl member)]
      rfl
  | @loop start body rest count bodyNested _ insideIH tailIH =>
      rw [← List.singleton_append, ← List.singleton_append (l := rest)] at known
      simp only [isTarget_append, Bool.or_eq_true] at known
      have inside := (balanced_statementsFrom labelled bodyNested).append
        (balanced_labelAt labelled (start + 1 + body.length))
      rw [statementsFrom_loop, codeAfter_labelAt_append, inside.codeAfter_loop]
      -- The label before the closing is the last statement inside, and has no code of its own.
      have bodyCode := insideIH (fun place member => known place (.inr (.inl member)))
        (before ++ labelAt labelled start ++ [.repeatOpen count])
        (by simp [size_cons, same, Statement.isLabel])
      have restCode := tailIH (fun place member => known place (.inr (.inr (.inr member))))
        (before ++ labelAt labelled start
          ++ .repeatOpen count :: ((statementsFrom labelled (start + 1) body
            ++ labelAt labelled (start + 1 + body.length)) ++ [.repeatClose]))
        (by simp [size_cons, same, Statement.isLabel]; omega)
      rw [(balanced_statementsFrom labelled bodyNested).codeAfter_append, bodyCode,
        codeAfter_labelAt, restCode]
      simp [same]

-----------------------------------------------------------------------------------------
-- The round trip
-----------------------------------------------------------------------------------------

/-- No label is defined twice, because labels are named after their indices. -/
theorem nodup_labels (code : List Instruction)
    : ((statementsFrom labelled 0 code ++ labelAt labelled code.length).filter
        Statement.isLabel).Nodup := by
  have labels := filter_isLabel_statementsFrom labelled 0 code
  rw [Nat.zero_add] at labels
  rw [labels]
  have indices : (List.range' 0 (code.length + 1)).Nodup := List.nodup_range'
  refine List.Pairwise.map _ (fun first second other same => ?_)
    (List.Pairwise.filter labelled indices)
  exact other (labelName_injective (Statement.label.inj same))

/-- The statements from a labelled index on start with its label, by cases. -/
theorem exists_label_append {place : Nat} (isLabelled : labelled place)
    (code : List Instruction)
    : ∃ after,
        statementsFrom labelled place code ++ labelAt labelled (place + code.length)
          = .label (labelName place) :: after := by
  cases code with
  | nil => exact ⟨[], by simp [statementsFrom, labelAt, isLabelled]⟩
  | cons instruction rest =>
      simp only [statementsFrom]
      simp only [labelAt, isLabelled, if_true, List.singleton_append]
      exact ⟨_, rfl⟩

/-- A labelled index in or at the end of the code is what its label stands for. -/
theorem target?_labelName {code : List Instruction} {place : Nat} (isLabelled : labelled place)
    (bounded : place ≤ code.length)
    : target? (labelName place) (statementsFrom labelled 0 code ++ labelAt labelled code.length)
      = some place := by
  have before : (code.take place).length = place := List.length_take_of_le bounded
  have after : place + (code.drop place).length = code.length := by
    rw [List.length_drop]
    omega
  obtain ⟨later, label⟩ := exists_label_append labelled isLabelled (code.drop place)
  have split : statementsFrom labelled 0 code ++ labelAt labelled code.length
      = statementsFrom labelled 0 (code.take place) ++ .label (labelName place) :: later := by
    have parts := statementsFrom_append labelled 0 (code.take place) (code.drop place)
    rw [List.take_append_drop, Nat.zero_add, before] at parts
    rw [parts, List.append_assoc, ← after, label]
  have first := nodup_labels_iff.mp (nodup_labels labelled code) _ _ _ split
  rw [split, target?_append_label (target?_eq_none_iff.mpr first), size_statementsFrom, before]

/-- A statement refers to a label only if the label is named after a target of the code. -/
theorem isTarget_of_reference? {index : Nat} {code : List Instruction} {statement : Statement}
    {name : String} (member : statement ∈ statementsFrom labelled index code)
    (reference : statement.reference? = some name)
    : ∃ place, isTarget code place ∧ labelName place = name := by
  induction code generalizing index with
  | nil => cases member
  | cons instruction rest ih =>
      simp only [statementsFrom, List.mem_append, List.mem_cons] at member
      rcases member with label | rfl | later
      · rw [isLabel_of_mem_labelAt labelled label] at reference
        cases reference
      · cases instruction with
        | jump place | call place =>
            exact ⟨place, by simp [isTarget], Option.some.inj reference⟩
        | _ => cases reference
      · obtain ⟨place, target, same⟩ := ih later
        exact ⟨place, by simp_all [isTarget], same⟩

/-- Well-formed code leads nowhere past its end. -/
theorem le_length_of_isTarget {code : List Instruction} (wellFormed : WellFormed code)
    {place : Nat} (target : isTarget code place)
    : place ≤ code.length := by
  obtain ⟨instruction, member, leads⟩ := List.any_eq_true.mp target
  have allowed := wellFormed.permitted instruction member
  split at leads
  · exact beq_iff_eq.mp leads ▸ allowed
  · exact beq_iff_eq.mp leads ▸ allowed
  · cases leads

section

variable {program : Program} (wellFormed : WellFormed program.code.toList)

include wellFormed

/-- Where a well-formed program leads to, there is the label of the place. -/
theorem target?_statements {place : Nat} (target : isTarget program.code.toList place)
    : target? (labelName place) (statements program) = some place :=
  target?_labelName _ target (le_length_of_isTarget wellFormed target)

theorem failure?_statements {placed : List PlacedStatement}
    (read : PlacedStatement.statements placed = statements program)
    : failure? ⟨placed, none⟩ = none := by
  have balanced : Balanced (statements program) :=
    (balanced_statementsFrom _ wellFormed.nested).append (balanced_labelAt _ _)
  refine failure?_eq_none_iff.mpr (read ▸ ⟨balanced, nodup_labels _ _, ?_⟩)
  intro statement member name reference
  rcases List.mem_append.mp member with inCode | atEnd
  · obtain ⟨place, target, rfl⟩ := isTarget_of_reference? _ inCode reference
    by_contra absent
    cases (target?_eq_none_iff.mpr absent).symm.trans (target?_statements wellFormed target)
  · rw [isLabel_of_mem_labelAt _ atEnd] at reference
    cases reference

/-- The statements of a well-formed program become its code, whatever targets other labels have. -/
theorem code_statements {target : String → Nat}
    (known : ∀ place, isTarget program.code.toList place → target (labelName place) = place)
    : TwoPass.code target (statements program) = program.code.toList := by
  -- The label at the end is all that the statements of a program have besides their code.
  change codeAfter target [] (statementsFrom _ 0 _ ++ labelAt _ _) = _
  rw [(balanced_statementsFrom _ wellFormed.nested).codeAfter_append, codeAfter_labelAt,
    List.append_nil]
  exact codeAfter_statementsFrom _ wellFormed.nested known [] size_nil

theorem program_statements {placed : List PlacedStatement}
    (read : PlacedStatement.statements placed = statements program)
    : TwoPass.program ⟨placed, none⟩ = .ok { code := program.code } := by
  have code
      : TwoPass.code (fun name => (target? name (statements program)).getD 0)
          (statements program)
        = program.code.toList :=
    code_statements wellFormed fun place leads => by
      simp [target?_statements wellFormed leads]
  rw [TwoPass.program, failure?_statements wellFormed read]
  simp only [StatementList.statements, read, code, Array.toArray_toList]

end

end Notation

namespace Program

/-- The text of a well-formed program is compiled to that program. -/
theorem compile_render_of_wellFormed {program : Program}
    (wellFormed : WellFormed program.code.toList)
    : compile (Notation.render program).toUTF8.toList = .ok { code := program.code } := by
  obtain ⟨tokens, placed, scanned, divided, read⟩ :=
    (Notation.spells_render wellFormed.permitted).scan
  rw [compile_of_scan scanned, ofTokens_eq_program, divided,
    Notation.program_statements wellFormed read]

/-- Writing a program down and compiling the text gives its instructions again exactly if the
program is well-formed, and every compiled song is given back as a whole.
-/
theorem compile_render
    : (∀ program : Program,
        (compile (Notation.render program).toUTF8.toList).map (·.code) = .ok program.code
        ↔ WellFormed program.code.toList)
      ∧ ∀ (source : List UInt8) (program : Program),
          compile source = .ok program
          → WellFormed program.code.toList
            ∧ compile (Notation.render program).toUTF8.toList = .ok program := by
  refine ⟨fun program => ⟨fun same => ?_, fun wellFormed => ?_⟩,
    fun source program compiled => ?_⟩
  · obtain ⟨again, compiled, code⟩ := Statement.except_map_eq_ok.mp same
    exact code ▸ wellFormed_of_compile compiled
  · rw [compile_render_of_wellFormed wellFormed]
    rfl
  · have wellFormed := wellFormed_of_compile compiled
    refine ⟨wellFormed, ?_⟩
    rw [compile_render_of_wellFormed wellFormed, ← cursor_of_compile compiled]

/-- A loop with a jump back to its start is given back by its text. -/
theorem compile_render_jump
    : let source := Ascii.encode "LABEL top\nrepeat 2\n440 1/8\nEND\njump top".toList
      let program : Program :=
        { code := #[.repeatOpen 2 3, .note 440 (.ticks 480), .repeatClose 1, .jump 0] }
      compile source = .ok program
      ∧ compile (Notation.render program).toUTF8.toList = .ok program :=
  have compiled : compile (Ascii.encode "LABEL top\nrepeat 2\n440 1/8\nEND\njump top".toList)
      = .ok { code := #[.repeatOpen 2 3, .note 440 (.ticks 480), .repeatClose 1, .jump 0] } := by
    decide +kernel
  ⟨compiled, (compile_render.2 _ _ compiled).2⟩

end Program

end Chiptune
