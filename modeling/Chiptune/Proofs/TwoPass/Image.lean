import Chiptune.Proofs.TwoPass.BackPatching
import Chiptune.Proofs.WellFormed

/-! Every compiled program is well-formed: its statements are balanced, so its loops are nested,
and the values in its instructions were checked when the statements were read.
-/

namespace Chiptune

open PlacedStatement (statements)

namespace Statement

/-- The values that a statement may carry. -/
def Valid : Statement → Prop
  | .note frequency _ => 1 ≤ frequency.toNat
  | .tempo beats => 1 ≤ beats.toNat ∧ beats.toNat ≤ maxTempo
  | _ => True

theorem one_le_toNat {value : UInt32} (nonzero : value ≠ 0) : 1 ≤ value.toNat :=
  UInt32.lt_iff_toNat_lt.mp (UInt32.pos_iff_ne_zero.mpr nonzero)

theorem except_map_eq_ok {f : α → β} {result : Except ε α} {value : β}
    : result.map f = .ok value ↔ ∃ source, result = .ok source ∧ f source = value := by
  cases result <;> simp [Except.map]

theorem valid_of_noteOf {frequency : UInt32} {subject position argument statement}
    (read : noteOf frequency subject position argument = .ok statement)
    : statement.Valid := by
  unfold noteOf at read
  split at read
  · cases read
  · next nonzero =>
      obtain ⟨length, -, rfl⟩ := except_map_eq_ok.mp read
      exact one_le_toNat nonzero

/-- A directive that was read carries permitted values, by cases on the directive. -/
theorem valid_of_ofDirective {directive : Keyword} {position argument statement}
    (read : ofDirective directive position argument = .ok statement)
    : statement.Valid := by
  cases directive with
  | tempo =>
      simp only [ofDirective] at read
      split at read
      · cases read
      · next beats _ =>
        split at read
        · cases read
        · next bounded =>
          simp only [Bool.or_eq_true, decide_eq_true_eq, not_or, Nat.not_lt] at bounded
          cases read
          exact ⟨one_le_toNat bounded.1, bounded.2⟩
  | rest => obtain ⟨_, -, rfl⟩ := except_map_eq_ok.mp read; trivial
  | repeatOpen => obtain ⟨_, -, rfl⟩ := except_map_eq_ok.mp read; trivial
  | label => obtain ⟨_, -, rfl⟩ := except_map_eq_ok.mp read; trivial
  | jump => obtain ⟨_, -, rfl⟩ := except_map_eq_ok.mp read; trivial
  | call => obtain ⟨_, -, rfl⟩ := except_map_eq_ok.mp read; trivial
  | repeatClose | comeBack | breakpoint => cases read; trivial

theorem valid_of_ofTokens? {head : Token} {argument : Option Token} {statement : Statement}
    (read : ofTokens? head argument = .ok (some statement))
    : statement.Valid := by
  unfold ofTokens? at read
  split at read
  · obtain ⟨_, found, same⟩ := except_map_eq_ok.mp read
    exact Option.some.inj same ▸ valid_of_ofDirective found
  · obtain ⟨_, found, same⟩ := except_map_eq_ok.mp read
    exact Option.some.inj same ▸ valid_of_noteOf found
  · split at read
    · cases read
    · cases read
    · obtain ⟨_, found, same⟩ := except_map_eq_ok.mp read
      exact Option.some.inj same ▸ valid_of_noteOf found
  · cases read
  · cases read

end Statement

/-- The statements of a list of tokens carry permitted values, by induction along the tokens. -/
theorem StatementList.valid_ofTokens (tokens : List Token)
    : ∀ statement ∈ (ofTokens tokens).statements, statement.Valid := by
  fun_induction ofTokens tokens with
  | case1 => simp [StatementList.statements]
  | case2 head rest error malformed => simp [StatementList.statements]
  | case3 head rest empty ih => exact ih
  | case4 head statement first read =>
      simpa [StatementList.statements, cons] using Statement.valid_of_ofTokens? read
  | case5 head statement first following later hasArgument read ih =>
      exact List.forall_mem_cons.mpr ⟨Statement.valid_of_ofTokens? read, ih⟩
  | case6 head statement first following later bare read ih =>
      exact List.forall_mem_cons.mpr ⟨Statement.valid_of_ofTokens? read, ih⟩

namespace TwoPass

/-- Statements are balanced if no opening is without a closing, by cases on the open loops. -/
theorem OpenLoops.balanced {placed : List PlacedStatement} {loops}
    (loopsOpen : OpenLoops placed loops) (noUnclosed : TwoPass.lastUnclosed? placed = none)
    : Balanced (statements placed) := by
  have unclosed := loopsOpen.lastUnclosed?
  cases loopsOpen with
  | closed balanced => exact balanced
  | inner => cases noUnclosed.symm.trans unclosed

/-- Statements without errors are balanced, because a draft can hold them. -/
theorem balanced_of_failure?_eq_none {list : StatementList} (correct : failure? list = none)
    : Balanced list.statements := by
  simp only [failure?, Option.orElse_eq_orElse, Option.orElse_eq_or, Option.or_eq_none_iff,
    Option.map_eq_none_iff] at correct
  obtain ⟨noFault, -, noUnclosed, -⟩ := correct
  have added := Draft.Matches.empty.addPlaced list.placed
  rw [firstFault?] at noFault
  rw [noFault] at added
  obtain ⟨draft, -, matching⟩ := added
  exact matching.openLoops.balanced noUnclosed

/-- The code of balanced statements is nested, by induction on them. -/
theorem Balanced.nested {statements : List Statement} (balanced : Balanced statements)
    (target : String → Nat) (before : List Statement)
    : Nested (size before) (codeAfter target before statements) := by
  induction balanced generalizing before with
  | nil => exact .nil _
  | @plain statement rest simple _ ih =>
      have later := ih (before ++ [statement])
      rw [codeAfter_cons]
      cases statement with
      | repeatOpen | repeatClose => cases simple
      | label name => simpa [size_cons, Statement.isLabel, instruction?] using later
      | _ => exact .plain rfl (by simpa [size_cons, Statement.isLabel] using later)
  | @loop count body rest inside _ insideIH tailIH =>
      have bodyNested := insideIH (before ++ [.repeatOpen count])
      have restNested := tailIH (before ++ .repeatOpen count :: (body ++ [.repeatClose]))
      rw [inside.codeAfter_loop]
      have length := length_codeAfter target (before ++ [.repeatOpen count]) body
      rw [← length]
      refine .loop count ?_ ?_
      · simpa [size_cons, Statement.isLabel] using bodyNested
      · simpa [size_cons, Statement.isLabel, Nat.add_assoc, Nat.add_comm 1] using restNested

theorem number_le_size {before statements : List Statement} {context : Context Statement}
    (member : context ∈ contexts before statements)
    : context.number ≤ size before + size statements := by
  induction statements generalizing before with
  | nil => cases member
  | cons first rest ih =>
      rcases List.mem_cons.mp member with rfl | later
      · exact Nat.le_add_right _ _
      · have bound := ih later
        rw [size_append, Nat.add_assoc, ← size_append] at bound
        exact bound

/-- Targets of labels lie in the program or at its end. -/
theorem target?_le_size {name : String} {statements : List Statement} {index : Nat}
    (known : target? name statements = some index)
    : index ≤ size statements := by
  obtain ⟨context, member, same⟩ := List.exists_of_findSome?_eq_some known
  split at same
  · have bound := number_le_size member
    rw [Option.some.inj same] at bound
    simpa using bound
  · cases same

/-- Every instruction of a program is permitted if its statement was and the targets are, by
cases on the statement.
-/
theorem permitted_of_mem_code {statements : List Statement}
    (valid : ∀ statement ∈ statements, statement.Valid) {target : String → Nat} {limit : Nat}
    (bounded : ∀ name, target name ≤ limit) {instruction : Instruction}
    (member : instruction ∈ code target statements)
    : instruction.Permitted limit := by
  obtain ⟨context, found, becomes⟩ := List.mem_filterMap.mp member
  have focusMember : context.focus ∈ statements :=
    map_focus_contexts [] statements ▸ List.mem_map_of_mem found
  have focusValid := valid _ focusMember
  obtain ⟨before, focus, after⟩ := context
  cases focus with
  | label name => cases becomes
  | jump name | call name => cases becomes; exact bounded name
  | note | tempo => cases becomes; exact focusValid
  | rest | comeBack | breakpoint | repeatOpen | repeatClose => cases becomes; trivial

/-- A list of statements becomes a well-formed program, if it becomes one at all. -/
theorem wellFormed_of_program {list : StatementList} {program : Program}
    (valid : ∀ statement ∈ list.statements, statement.Valid)
    (compiled : TwoPass.program list = .ok program)
    : WellFormed program.code.toList := by
  unfold TwoPass.program at compiled
  split at compiled
  · cases compiled
  · next correct =>
      cases compiled
      have length : (code (fun name => (target? name list.statements).getD 0)
          list.statements).length = size list.statements := length_codeAfter _ [] _
      refine ⟨fun instruction member => permitted_of_mem_code valid (fun name => ?_) member, ?_⟩
      · rw [length]
        cases known : target? name list.statements with
        | none => exact Nat.zero_le _
        | some index => exact target?_le_size known
      · exact (balanced_of_failure?_eq_none correct).nested _ []

end TwoPass

namespace Program

/-- A compiled song is what two passes make of the statements of its tokens. -/
theorem exists_program_of_compile {source : List UInt8} {program : Program}
    (compiled : compile source = .ok program)
    : ∃ tokens, TwoPass.program (.ofTokens tokens) = .ok program := by
  cases scanned : Token.scan source with
  | error stray =>
      rw [compile_of_stray scanned] at compiled
      cases compiled
  | ok tokens =>
      rw [compile_of_scan scanned, ofTokens, Draft.addAll_eq_addList, TwoPass.finish_addList]
        at compiled
      exact ⟨tokens, compiled⟩

/-- Every compiled song is well-formed. -/
theorem wellFormed_of_compile {source : List UInt8} {program : Program}
    (compiled : compile source = .ok program)
    : WellFormed program.code.toList := by
  obtain ⟨tokens, made⟩ := exists_program_of_compile compiled
  exact TwoPass.wellFormed_of_program (StatementList.valid_ofTokens tokens) made

theorem cursor_of_compile {source : List UInt8} {program : Program}
    (compiled : compile source = .ok program)
    : program.cursor = 0 := by
  obtain ⟨tokens, made⟩ := exists_program_of_compile compiled
  unfold TwoPass.program at made
  split at made <;> cases made
  rfl

end Program

end Chiptune
