import Chiptune.Arithmetic

/-! Operations on machine integers that have a result. It is the one of the operation on integers
without bounds.
-/

namespace Chiptune

namespace Trap

/-- A computation goes on with the result of an operation that has one. -/
theorem ok_bind (value : α) (next : α → Except Trap β) : (.ok value >>= next) = next value := rfl

theorem toOption_eq_some_iff {result : Except Trap α} {value : α}
    : result.toOption = some value ↔ result = .ok value := by
  cases result <;> simp [Except.toOption]

theorem modify_eq_ok {array : Array α} {index : Nat} (inside : index < array.size)
    (change : α → α)
    : modify array index change = .ok (array.modify index change) :=
  if_pos inside

end Trap

namespace IntegerType

variable {type : IntegerType} {value : Int} {left right : Nat}

theorem hold_eq_ok (inside : type.Holds value) : type.hold value = .ok value :=
  if_pos inside

theorem holds_i32_iff : i32.Holds value ↔ -0x80000000 ≤ value ∧ value ≤ 0x7fffffff :=
  Iff.rfl

theorem holds_u32_iff (value : Nat) : u32.Holds value ↔ value < UInt32.size := by
  simp only [Holds, bounds, UInt32.size]
  omega

theorem holds_u64_iff (value : Nat) : u64.Holds value ↔ value < UInt64.size := by
  simp only [Holds, bounds, UInt64.size]
  omega

theorem add_eq_ok (inside : type.Holds (left + right : Nat))
    : type.add left right = .ok (left + right : Nat) := by
  rw [add, ← Int.natCast_add]
  exact hold_eq_ok inside

theorem mul_eq_ok (inside : type.Holds (left * right : Nat))
    : type.mul left right = .ok (left * right : Nat) := by
  rw [mul, ← Int.natCast_mul]
  exact hold_eq_ok inside

theorem div_eq_ok (positive : 0 < right) (inside : type.Holds (left / right : Nat))
    : type.div left right = .ok (left / right : Nat) := by
  have nonzero : (right : Int) ≠ 0 := by omega
  rw [div, if_neg nonzero, ← Int.ofNat_tdiv]
  exact hold_eq_ok inside

theorem rem_eq_ok (positive : 0 < right) (inside : type.Holds (left % right : Nat))
    : type.rem left right = .ok (left % right : Nat) := by
  have nonzero : (right : Int) ≠ 0 := by omega
  rw [rem, if_neg nonzero, ← Int.ofNat_tmod]
  exact hold_eq_ok inside

end IntegerType

end Chiptune
