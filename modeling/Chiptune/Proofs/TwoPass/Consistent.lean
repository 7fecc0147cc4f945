import Chiptune.Proofs.TwoPass.Image
import Mathlib.Data.List.Induction

/-! Which statements make a program: those whose loops balance, and whose labels are defined once
and wherever they are referred to. Nothing else can be wrong with statements that were read, so a
list of tokens compiles exactly if none of its statements is malformed and they are consistent.
-/

namespace Chiptune

open PlacedStatement (statements)

namespace TwoPass

-----------------------------------------------------------------------------------------
-- Splitting a list at one of its elements
-----------------------------------------------------------------------------------------

/-- Contexts are the ways to split a list at an element, by induction on the list. -/
theorem mem_contexts_iff {before items : List α} {context : Context α}
    : context ∈ contexts before items
      ↔ ∃ front,
          context.before = before ++ front ∧ items = front ++ context.focus :: context.after := by
  induction items generalizing before with
  | nil => simp [contexts]
  | cons first rest ih =>
      obtain ⟨earlier, focus, after⟩ := context
      rw [contexts, List.mem_cons, ih]
      constructor
      · rintro (same | ⟨front, rfl, rfl⟩)
        · cases same
          exact ⟨[], (List.append_nil before).symm, rfl⟩
        · exact ⟨first :: front, List.append_assoc .., rfl⟩
      · rintro ⟨front, rfl, split⟩
        cases front with
        | nil =>
            obtain ⟨rfl, rfl⟩ := List.cons.inj split
            exact .inl (by rw [List.append_nil])
        | cons _ front =>
            obtain ⟨rfl, rfl⟩ := List.cons.inj split
            exact .inr ⟨front, (List.append_assoc before [first] front).symm, rfl⟩

theorem eq_append_of_mem_contexts {items : List α} {context : Context α}
    (member : context ∈ contexts [] items)
    : items = context.before ++ context.focus :: context.after := by
  obtain ⟨front, same, split⟩ := mem_contexts_iff.mp member
  rw [split, same, List.nil_append]

/-- Labels are defined once if none is defined before its definition, by induction from the end. -/
theorem nodup_labels_iff {statements : List Statement}
    : (statements.filter Statement.isLabel).Nodup
      ↔ ∀ before name after,
          statements = before ++ .label name :: after → .label name ∉ before := by
  constructor
  · intro distinct before name after split earlier
    rw [split, List.filter_append, List.filter_cons_of_pos rfl, List.nodup_append] at distinct
    exact distinct.2.2 _ (List.mem_filter.mpr ⟨earlier, rfl⟩) _ (by simp) rfl
  · intro fresh
    induction statements using List.reverseRecOn with
    | nil => exact List.nodup_nil
    | append_singleton init last ih =>
        have distinct := ih fun before name after split =>
          fresh before name (after ++ [last]) (by simp [split])
        rw [List.filter_append, List.nodup_append]
        refine ⟨distinct, List.Pairwise.filter _ (List.pairwise_singleton _ last), ?_⟩
        intro statement earlier other atEnd same
        rw [List.mem_filter, List.mem_singleton] at atEnd
        obtain ⟨rfl, isLabel⟩ := atEnd
        cases other with
        | label name => exact fresh init name [] rfl (same ▸ (List.mem_filter.mp earlier).1)
        | _ => cases isLabel

-----------------------------------------------------------------------------------------
-- Consistent statements
-----------------------------------------------------------------------------------------

/-- Statements that make a program: every loop is closed and every closing has its loop, no label
is defined twice, and every label that is referred to is defined.
-/
structure Consistent (statements : List Statement) : Prop where
  balanced : Balanced statements
  distinct : (statements.filter Statement.isLabel).Nodup
  defined
    : ∀ statement ∈ statements, ∀ name,
        statement.reference? = some name → .label name ∈ statements

/-- Every closing in a balanced list has its opening, by induction on the list. -/
theorem Balanced.isSome_opening? {statements : List Statement} (balanced : Balanced statements)
    (before : List Statement) {context : Context Statement}
    (member : context ∈ contexts before statements) (closes : context.focus = .repeatClose)
    : (opening? context.before).isSome := by
  induction balanced generalizing before context with
  | nil => cases member
  | plain simple _ ih =>
      rcases List.mem_cons.mp member with rfl | later
      · obtain rfl : _ = Statement.repeatClose := closes
        cases simple
      · exact ih _ later closes
  | @loop count body rest inside _ insideIH tailIH =>
      simp only [contexts, contexts_append, List.mem_cons, List.mem_append, List.mem_map]
        at member
      rcases member with rfl | ⟨inner, within, rfl⟩ | rfl | later
      · cases closes
      · have closesInner : inner.focus = .repeatClose := closes
        have opened := insideIH _ within closesInner
        exact opened
      · simp [inside.opening?_eq_some]
      · exact tailIH _ later closes

section

variable {placed : List PlacedStatement}

theorem firstFault?_eq_none_iff
    : firstFault? placed = none
      ↔ ∀ context ∈ contexts [] (statements placed), fault? context = none := by
  rw [firstFault?, List.findSome?_eq_none_iff, ← PlacedStatement.statements_nil,
    ← map_plain_contexts [] placed, List.forall_mem_map]
  exact forall₂_congr fun context _ => Option.map_eq_none_iff

theorem Consistent.firstFault?_eq_none (consistent : Consistent (statements placed))
    : firstFault? placed = none := by
  refine firstFault?_eq_none_iff.mpr fun context member => ?_
  rw [fault?]
  split
  · next closes =>
      have opened := consistent.balanced.isSome_opening? [] member closes
      exact if_neg fun noOpening =>
        absurd noOpening (by simp [Option.isSome_iff_ne_none.mp opened])
  · next name label =>
      have split := eq_append_of_mem_contexts member
      rw [label] at split
      exact if_neg (nodup_labels_iff.mp consistent.distinct _ _ _ split)
  · rfl

/-- Labels are defined once if no statement is at fault. -/
theorem nodup_labels_of_firstFault? (noFault : firstFault? placed = none)
    : ((statements placed).filter Statement.isLabel).Nodup := by
  refine nodup_labels_iff.mpr fun before name after split earlier => ?_
  have member : ⟨before, .label name, after⟩ ∈ contexts [] (statements placed) :=
    mem_contexts_iff.mpr ⟨before, rfl, split⟩
  cases (if_pos earlier).symm.trans (firstFault?_eq_none_iff.mp noFault _ member)

theorem firstUndefined?_eq_none_iff
    : firstUndefined? placed = none
      ↔ ∀ statement ∈ statements placed, ∀ name,
          statement.reference? = some name → .label name ∈ statements placed := by
  rw [firstUndefined?, List.findSome?_eq_none_iff, statements, List.forall_mem_map]
  refine forall₂_congr fun next _ => ?_
  cases reference : next.statement.reference? with
  | none => simp [undefined?, reference]
  | some name => simp [undefined?, reference]

/-- Statements have no error exactly if they are consistent. -/
theorem failure?_eq_none_iff : failure? ⟨placed, none⟩ = none ↔ Consistent (statements placed) := by
  constructor
  · intro correct
    have balanced := balanced_of_failure?_eq_none correct
    simp only [failure?, Option.orElse_eq_orElse, Option.orElse_eq_or, Option.or_eq_none_iff,
      Option.map_eq_none_iff] at correct
    obtain ⟨noFault, -, -, noUndefined⟩ := correct
    exact ⟨balanced, nodup_labels_of_firstFault? noFault,
      firstUndefined?_eq_none_iff.mp noUndefined⟩
  · intro consistent
    have noUnclosed : lastUnclosed? placed = none := by
      simp [lastUnclosed?, consistent.balanced.filter_isUnclosed]
    simp [failure?, consistent.firstFault?_eq_none, noUnclosed,
      firstUndefined?_eq_none_iff.mpr consistent.defined]

end

-----------------------------------------------------------------------------------------
-- The program of consistent statements
-----------------------------------------------------------------------------------------

/-- The program that consistent statements make. -/
def image (statements : List Statement) : Program :=
  { code := (code (fun name => (target? name statements).getD 0) statements).toArray }

@[simp] theorem size_image (statements : List Statement)
    : (image statements).size = size statements :=
  length_codeAfter _ [] statements

/-- A list of statements makes a program exactly if none is malformed and they are consistent. -/
theorem program_eq_ok_iff {list : StatementList} {program : Program}
    : TwoPass.program list = .ok program
      ↔ list.malformed = none ∧ Consistent list.statements ∧ program = image list.statements := by
  obtain ⟨placed, malformed⟩ := list
  cases malformed with
  | some found =>
      have wrong : (failure? ⟨placed, some found⟩).isSome := by
        cases fault : firstFault? placed <;> simp [failure?, fault]
      obtain ⟨failure, first⟩ := Option.isSome_iff_exists.mp wrong
      simp [TwoPass.program, first]
  | none =>
      rw [TwoPass.program]
      cases found : failure? ⟨placed, none⟩ with
      | some failure =>
          have inconsistent : ¬ Consistent (statements placed) := by
            rw [← failure?_eq_none_iff, found]
            exact Option.some_ne_none failure
          simp [StatementList.statements, inconsistent]
      | none =>
          have consistent := failure?_eq_none_iff.mp found
          simp only [Except.ok.injEq, true_and, StatementList.statements, consistent]
          exact eq_comm

end TwoPass

namespace Program

theorem ofTokens_eq_program (tokens : List Token)
    : ofTokens tokens = TwoPass.program (.ofTokens tokens) := by
  rw [ofTokens, Draft.addAll_eq_addList, TwoPass.finish_addList]

end Program

end Chiptune
