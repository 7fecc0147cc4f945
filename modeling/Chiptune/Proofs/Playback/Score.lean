import Chiptune.Proofs.WellFormed

/-! Songs as trees. A song without jumps, calls and returns is a sequence of actions and loops, and
its code is the tree written out, so well-formed code of that kind stands for exactly one tree.
-/

namespace Chiptune

/-- Whether an instruction is a jump, a call or a return. -/
def Instruction.transfers : Instruction → Bool
  | .jump _ => true
  | .call _ => true
  | .comeBack => true
  | _ => false

/-- A part of a song after which the next part follows. -/
inductive Action where
  | note (frequency : UInt32) (length : Length)
  | rest (length : Length)
  | tempo (beats : UInt32)
  | breakpoint
deriving DecidableEq

def Action.instruction : Action → Instruction
  | .note frequency length => .note frequency length
  | .rest length => .rest length
  | .tempo beats => .tempo beats
  | .breakpoint => .breakpoint

/-- A song as a sequence of actions and loops. -/
inductive Score where
  | nil
  | act (action : Action) (next : Score)
  | loop (count : UInt32) (body next : Score)
deriving DecidableEq

namespace Score

def size : Score → Nat
  | .nil => 0
  | .act _ next => next.size + 1
  | .loop _ body next => body.size + 2 + next.size

/-- The instructions of a score whose first one has the index `start`. -/
def code (start : Nat) : Score → List Instruction
  | .nil => []
  | .act action next => action.instruction :: code (start + 1) next
  | .loop count body next =>
    .repeatOpen count (start + body.size + 2)
      :: (code (start + 1) body
        ++ .repeatClose (start + 1) :: code (start + body.size + 2) next)

/-- The number of instructions that are executed when a score is played to its end: one for an
action, and for a loop one to open it and one to close it after each time through its body.
-/
def steps : Score → Nat
  | .nil => 0
  | .act _ next => 1 + next.steps
  | .loop count body next => 1 + count.toNat * (body.steps + 1) + next.steps

@[simp] theorem length_code (start : Nat) (score : Score)
    : (score.code start).length = score.size := by
  induction score generalizing start with
  | nil => rfl
  | act action next ih => simp [code, size, ih]
  | loop count body next bodyIH nextIH =>
      simp only [code, size, List.length_cons, List.length_append, bodyIH, nextIH]
      omega

theorem instruction_ne_repeatOpen (action : Action) (count : UInt32) (exit : Nat)
    : action.instruction ≠ .repeatOpen count exit := by
  cases action <;> exact Instruction.noConfusion

theorem instruction_injective {first second : Action}
    (same : first.instruction = second.instruction)
    : first = second := by
  cases first <;> cases second <;> cases same <;> rfl

/-- Scores with the same code are the same: the exit of a loop tells how long its body is. -/
theorem code_injective {start : Nat} {first second : Score}
    (same : first.code start = second.code start)
    : first = second := by
  induction first generalizing start second with
  | nil =>
      cases second with
      | nil => rfl
      | act | loop => cases same
  | act action next ih =>
      cases second with
      | nil => cases same
      | act other later =>
          obtain ⟨head, tail⟩ := List.cons.inj same
          rw [instruction_injective head, ih tail]
      | loop count body later =>
          exact absurd (List.cons.inj same).1 (instruction_ne_repeatOpen action _ _)
  | loop count body next bodyIH nextIH =>
      cases second with
      | nil => cases same
      | act other later =>
          exact absurd (List.cons.inj same).1.symm (instruction_ne_repeatOpen other _ _)
      | loop other inner later =>
          obtain ⟨head, tail⟩ := List.cons.inj same
          obtain ⟨sameCount, exit⟩ := Instruction.repeatOpen.inj head
          -- Both exits are the start and the size of the body away from it, and one more.
          have sameSize : body.size = inner.size := by omega
          obtain ⟨inside, rest⟩ := List.append_inj tail (by simp [sameSize])
          rw [← sameSize] at rest
          rw [sameCount, bodyIH inside, nextIH (List.cons.inj rest).2]

/-- Nested code without jumps, calls and returns is the code of a score, by induction on the
nesting.
-/
theorem exists_of_nested {start : Nat} {code : List Instruction} (nested : Nested start code)
    (stays : ∀ instruction ∈ code, instruction.transfers = false)
    : ∃ score : Score, score.code start = code := by
  induction nested with
  | nil => exact ⟨.nil, rfl⟩
  | @plain start instruction rest simple _ ih =>
      obtain ⟨first, later⟩ := List.forall_mem_cons.mp stays
      obtain ⟨next, rfl⟩ := ih later
      cases instruction with
      | note frequency length => exact ⟨.act (.note frequency length) next, rfl⟩
      | rest length => exact ⟨.act (.rest length) next, rfl⟩
      | tempo beats => exact ⟨.act (.tempo beats) next, rfl⟩
      | breakpoint => exact ⟨.act .breakpoint next, rfl⟩
      | jump | call | comeBack => cases first
      | repeatOpen | repeatClose => cases simple
  | @loop start body rest count _ _ bodyIH restIH =>
      simp only [List.mem_cons, List.mem_append] at stays
      obtain ⟨inside, rfl⟩ := bodyIH fun instruction member =>
        stays instruction (.inr (.inl member))
      obtain ⟨next, rfl⟩ := restIH fun instruction member =>
        stays instruction (.inr (.inr (.inr member)))
      exact ⟨.loop count inside next, by simp [Score.code]⟩

end Score

end Chiptune
