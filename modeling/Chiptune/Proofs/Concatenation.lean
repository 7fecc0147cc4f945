import Chiptune.Proofs.Layout.Scanning
import Chiptune.Proofs.Stripping

/-! One song after another. The text of two songs, with a line break between them, compiles to the
instructions of the first one and then those of the second one, whose targets are moved behind the
first; a label at the end of the first song becomes one of the start of the second.
-/

namespace Chiptune

open Ascii (newline)

@[simp] theorem Instruction.mapTarget_id (instruction : Instruction)
    : instruction.mapTarget id = instruction := by
  cases instruction <;> rfl

-----------------------------------------------------------------------------------------
-- Texts
-----------------------------------------------------------------------------------------

/-- The end of a text may become a line break and another text. -/
theorem ReadAs.extends_nil {source : List UInt8} {more : List Statement}
    (readAs : ReadAs source more)
    : Extends more [] (newline :: source) := by
  obtain ⟨tokens, scanned, divides⟩ := readAs
  rintro here there _ ⟨⟩
  obtain ⟨others, otherScanned, dividesToo⟩ :=
    Extends.refl source .start there.nextLine tokens scanned
  refine ⟨⟨.newline, there⟩ :: others, ?_, fun front statements whole => ?_⟩
  · rw [Token.scanFrom_newline, otherScanned]
    rfl
  · obtain ⟨above, below, rfl, dividesAbove, dividesBelow⟩ := Divides.split whole rfl
    cases dividesBelow
    have again := dividesToo [] more divides
    rw [List.append_nil] at again ⊢
    exact dividesAbove.append (.lineEnd rfl again)

/-- Two texts on different lines are read as the statements of both, even if the first one ends in
a comment.
-/
theorem ReadAs.append {first second : List UInt8} {statements more : List Statement}
    (readAs : ReadAs first statements) (readAsMore : ReadAs second more)
    : ReadAs (first ++ newline :: second) (statements ++ more) := by
  have ends := readAsMore.extends_nil
  have whole : Extends more (first ++ []) (first ++ newline :: second) :=
    .prepend .nil .cons_newline ends fun _ => ends
  rw [List.append_nil] at whole
  obtain ⟨tokens, scanned, divides⟩ := readAs
  obtain ⟨others, otherScanned, dividesToo⟩ := whole .start .start tokens scanned
  exact ⟨others, otherScanned, dividesToo [] statements divides⟩

namespace TwoPass

-----------------------------------------------------------------------------------------
-- Statements
-----------------------------------------------------------------------------------------

/-- Consistent statements that define different labels are consistent together. -/
theorem Consistent.append {first second : List Statement} (consistent : Consistent first)
    (consistentToo : Consistent second)
    (different : ∀ name, .label name ∈ first → .label name ∉ second)
    : Consistent (first ++ second) where
  balanced := consistent.balanced.append consistentToo.balanced
  distinct := by
    rw [List.filter_append, List.nodup_append]
    refine ⟨consistent.distinct, consistentToo.distinct, ?_⟩
    rintro statement inFirst _ inSecond rfl
    obtain ⟨inFirst, isLabel⟩ := List.mem_filter.mp inFirst
    cases statement with
    | label name => exact different name inFirst (List.mem_filter.mp inSecond).1
    | _ => cases isLabel
  defined statement member name reference := by
    rcases List.mem_append.mp member with inFirst | inSecond
    · exact List.mem_append_left second (consistent.defined statement inFirst name reference)
    · exact List.mem_append_right first (consistentToo.defined statement inSecond name reference)

/-- Statements behind others become the same instructions, with all targets moved by the number of
instructions before; by induction on the nesting of loops.
-/
theorem Balanced.codeAfter_append_left {statements : List Statement}
    (balanced : Balanced statements) {target other : String → Nat} (earlier : List Statement)
    (moved
      : ∀ statement ∈ statements, ∀ name,
          statement.reference? = some name → target name = size earlier + other name)
    (before : List Statement)
    : codeAfter target (earlier ++ before) statements
      = (codeAfter other before statements).map (·.mapTarget (size earlier + ·)) := by
  induction balanced generalizing before with
  | nil => rfl
  | @plain statement rest simple _ ih =>
      obtain ⟨movedHere, movedLater⟩ := List.forall_mem_cons.mp moved
      have later := ih movedLater (before ++ [statement])
      rw [codeAfter_cons, codeAfter_cons, List.append_assoc, later, List.map_append]
      congr 1
      cases statement with
      | repeatOpen | repeatClose => cases simple
      | jump name | call name => simp [instruction?, Instruction.mapTarget, movedHere name rfl]
      | _ => rfl
  | @loop count body rest inside _ insideIH tailIH =>
      obtain ⟨-, movedInside, -, movedLater⟩ := by
        simpa only [List.forall_mem_cons, List.forall_mem_append] using moved
      have bodyCode := insideIH movedInside (before ++ [.repeatOpen count])
      have restCode := tailIH movedLater (before ++ .repeatOpen count :: (body ++ [.repeatClose]))
      rw [inside.codeAfter_loop, inside.codeAfter_loop, List.append_assoc, bodyCode,
        List.append_assoc, restCode]
      simp [Instruction.mapTarget, Nat.add_assoc]

/-- Two lists of consistent statements together make the program of the first one, followed by
that of the second one with its targets moved behind the first.
-/
theorem image_append {first second : List Statement} (consistent : Consistent first)
    (consistentToo : Consistent second)
    (different : ∀ name, .label name ∈ first → .label name ∉ second)
    : image (first ++ second)
      = { code := (image first).code
          ++ (image second).code.map (·.mapTarget ((image first).size + ·)) } := by
  have kept : ∀ statement ∈ first, ∀ name, statement.reference? = some name →
      (target? name (first ++ second)).getD 0 = size [] + (target? name first).getD 0 := by
    intro statement member name reference
    have isDefined := consistent.defined statement member name reference
    obtain ⟨index, known⟩ := Option.ne_none_iff_exists'.mp (mt target?_eq_none_iff.mp (by simpa))
    simp [target?_append, known]
  have moved : ∀ statement ∈ second, ∀ name, statement.reference? = some name →
      (target? name (first ++ second)).getD 0 = size first + (target? name second).getD 0 := by
    intro statement member name reference
    have isDefined := consistentToo.defined statement member name reference
    have elsewhere := target?_eq_none_iff.mpr fun inFirst => different name inFirst isDefined
    obtain ⟨index, known⟩ := Option.ne_none_iff_exists'.mp (mt target?_eq_none_iff.mp (by simpa))
    simp [target?_append, elsewhere, known]
  have code := consistent.balanced.codeAfter_append_left [] kept []
  have codeToo := consistentToo.balanced.codeAfter_append_left first moved []
  have nowhere : (size [] + ·) = (id : Nat → Nat) := funext Nat.zero_add
  rw [List.append_nil] at code codeToo
  simp only [nowhere, Instruction.mapTarget_id, List.map_id'] at code
  rw [size_image, image, image, image, TwoPass.code, ← codeAfter,
    consistent.balanced.codeAfter_append, List.nil_append, code, codeToo]
  simp [TwoPass.code, codeAfter]

end TwoPass

-----------------------------------------------------------------------------------------
-- Songs
-----------------------------------------------------------------------------------------

namespace Program

/-- The labels that a text defines, as they are collected when it is compiled. -/
def labelNames (source : List UInt8) : List String :=
  match ((Token.scan source).mapError .rejected).bind (Draft.addAll {}) with
  | .ok draft => draft.labels.map (·.1)
  | .error _ => []

/-- The labels of a text that compiles are those of its statements. -/
theorem mem_labelNames_iff {source : List UInt8} {statements : List Statement}
    (readAs : ReadAs source statements) (consistent : TwoPass.Consistent statements) (name : String)
    : name ∈ labelNames source ↔ .label name ∈ statements := by
  obtain ⟨tokens, scanned, divides⟩ := readAs
  obtain ⟨wellFormed, rfl⟩ := StatementList.ofTokens_of_divides divides
  have added := Draft.Matches.empty.addPlaced (StatementList.ofTokens tokens).placed
  have noFault := consistent.firstFault?_eq_none
  rw [TwoPass.firstFault?] at noFault
  rw [noFault] at added
  obtain ⟨draft, same, matching⟩ := added
  have result : ((Token.scan source).mapError .rejected).bind (Draft.addAll {}) = .ok draft := by
    rw [scanned, Except.mapError, Except.bind, Draft.addAll_eq_addList]
    simp only [Draft.addList, same, wellFormed]
    rfl
  have isDefined := matching.isSome_lookup name
  rw [List.nil_append, Bool.eq_iff_iff, decide_eq_true_iff, List.lookup_isSome_iff] at isDefined
  rw [StatementList.statements, ← isDefined, labelNames, result, List.mem_map]
  exact exists_congr fun label => and_congr_right fun _ => by rw [beq_iff_eq, eq_comm]

/-- The text of one song, a line break and the text of another one compile to the instructions of
both, with all targets of the second song moved behind the first; if no label is defined in both.
-/
theorem compile_append {first second : List UInt8} {program other : Program}
    (compiled : compile first = .ok program) (compiledToo : compile second = .ok other)
    (different : ∀ name ∈ labelNames first, name ∉ labelNames second)
    : compile (first ++ newline :: second)
      = .ok { code := program.code ++ other.code.map (·.mapTarget (program.size + ·)) } := by
  obtain ⟨statements, readAs, consistent, rfl⟩ := compile_eq_ok_iff.mp compiled
  obtain ⟨more, readAsMore, consistentToo, rfl⟩ := compile_eq_ok_iff.mp compiledToo
  have labels : ∀ name, .label name ∈ statements → .label name ∉ more := by
    intro name
    rw [← mem_labelNames_iff readAs consistent, ← mem_labelNames_iff readAsMore consistentToo]
    exact different name
  refine compile_eq_ok_iff.mpr ⟨statements ++ more, readAs.append readAsMore, ?_, ?_⟩
  · exact consistent.append consistentToo labels
  · exact (TwoPass.image_append consistent consistentToo labels).symm

/-- A song that ends with a label and a comment goes on with the other one, whose first instruction
the label then names.
-/
theorem compile_append_atEnd
    : let first := Ascii.encode "jump coda\nC4 Q\nLABEL coda // la".toList
      let second := Ascii.encode "REPEAT 2\nD4 Q\nEND\nLABEL top CALL top".toList
      let program : Program := { code := #[.jump 2, .note 261 (.ticks 960)] }
      let other : Program :=
        { code := #[.repeatOpen 2 3, .note 294 (.ticks 960), .repeatClose 1, .call 3] }
      compile first = .ok program
      ∧ compile second = .ok other
      ∧ (∀ name ∈ labelNames first, name ∉ labelNames second)
      ∧ compile (first ++ newline :: second)
        = .ok { code := program.code ++ #[.repeatOpen 2 5, .note 294 (.ticks 960), .repeatClose 3,
            .call 5] } := by
  intro first second program other
  have compiled : compile first = .ok program := by decide +kernel
  have compiledToo : compile second = .ok other := by decide +kernel
  have different : ∀ name ∈ labelNames first, name ∉ labelNames second := by decide +kernel
  have joined := compile_append compiled compiledToo different
  exact ⟨compiled, compiledToo, different, joined.trans (by decide +kernel)⟩

end Program

end Chiptune
