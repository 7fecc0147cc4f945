import Chiptune.Program
import Mathlib.Data.List.Basic

/-! Programs without their breakpoints. The instructions that stay keep their order, and every
target becomes the number of instructions before it that stay.
-/

namespace Chiptune

/-- The instruction with the index that it can continue at changed. -/
def Instruction.mapTarget (f : Nat → Nat) : Instruction → Instruction
  | .jump target => .jump (f target)
  | .call target => .call (f target)
  | .repeatOpen count exit => .repeatOpen count (f exit)
  | .repeatClose body => .repeatClose (f body)
  | other => other

namespace Program

/-- The number of instructions before `index` that are no breakpoints. -/
def place (program : Program) (index : Nat) : Nat :=
  (program.code.toList.take index).countP (· ≠ .breakpoint)

/-- The program without its breakpoints. -/
def stripped (program : Program) : Program where
  code := (program.code.filter (· ≠ .breakpoint)).map (·.mapTarget program.place)
  cursor := program.place program.cursor

variable (program : Program)

theorem place_mono {first second : Nat} (le : first ≤ second)
    : program.place first ≤ program.place second :=
  (List.take_sublist_take_left le).countP_le

theorem place_succ {index : Nat} {instruction : Instruction}
    (here : program.code[index]? = some instruction)
    : program.place (index + 1)
      = program.place index + if instruction = .breakpoint then 0 else 1 := by
  rw [← Array.getElem?_toList] at here
  rw [place, List.take_add_one, here, List.countP_append, place]
  by_cases isBreakpoint : instruction = .breakpoint <;> simp [isBreakpoint]

/-- From the end on the place is the end of the stripped program. -/
theorem place_of_size_le {index : Nat} (le : program.size ≤ index)
    : program.place index = program.stripped.size := by
  rw [place, List.take_of_length_le le, List.countP_eq_length_filter]
  simp [stripped, size, ← Array.length_toList]

/-- The instructions that stay are found at their places. -/
theorem getElem?_stripped {index : Nat} {instruction : Instruction}
    (here : program.code[index]? = some instruction) (stays : instruction ≠ .breakpoint)
    : program.stripped.code[program.place index]?
      = some (instruction.mapTarget program.place) := by
  rw [← Array.getElem?_toList] at here
  obtain ⟨inside, same⟩ := List.getElem?_eq_some_iff.mp here
  have split : program.code.toList
      = program.code.toList.take index ++ instruction :: program.code.toList.drop (index + 1) := by
    rw [← same, List.getElem_cons_drop, List.take_append_drop]
  have kept : (program.code.toList.filter (· ≠ .breakpoint))[program.place index]?
      = some instruction := by
    conv => lhs; lhs; rw [split, List.filter_append]
    rw [place, List.countP_eq_length_filter, List.getElem?_append_right (Nat.le_refl _),
      Nat.sub_self, List.filter_cons_of_pos (by simpa using stays)]
    rfl
  rw [stripped, ← Array.getElem?_toList, Array.toList_map, Array.toList_filter, List.getElem?_map,
    kept]
  rfl

end Program

end Chiptune
