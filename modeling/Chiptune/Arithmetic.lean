/-! Arithmetic on machine integers with all its checks. An operation has no result if that lies
outside the type, if the divisor is zero, or if a shift is as wide as the type or wider. Neither has
access to a list or an array outside its bounds. A program that comes to such an operation is
stopped.
-/

namespace Chiptune

/-- A type of machine integers. -/
inductive IntegerType where
  | i32
  | u32
  | u64
deriving DecidableEq

/-- Why an operation has no result. -/
inductive Trap where
  | outOfRange (type : IntegerType) (value : Int)
  | zeroDivisor
  | shiftTooFar (amount : Int)
  | indexPastEnd (index : Int)
deriving DecidableEq

namespace Trap

/-- The entry of a list at an index, which has to lie inside the list. -/
def entry (list : List α) (index : Int) : Except Trap α :=
  match if 0 ≤ index then list[index.toNat]? else none with
  | some value => .ok value
  | none => .error (.indexPastEnd index)

/-- The array with one entry changed, the index of which has to lie inside the array. -/
def modify (array : Array α) (index : Nat) (change : α → α) : Except Trap (Array α) :=
  if index < array.size then .ok (array.modify index change) else .error (.indexPastEnd index)

end Trap

namespace IntegerType

def bits : IntegerType → Nat
  | i32 => 32
  | u32 => 32
  | u64 => 64

/-- The least and the greatest integer of a type. -/
def bounds : IntegerType → Int × Int
  | i32 => (-0x80000000, 0x7fffffff)
  | u32 => (0, 0xffffffff)
  | u64 => (0, 0xffffffffffffffff)

def Holds (type : IntegerType) (value : Int) : Prop :=
  type.bounds.1 ≤ value ∧ value ≤ type.bounds.2

instance (type : IntegerType) (value : Int) : Decidable (type.Holds value) :=
  inferInstanceAs (Decidable (_ ∧ _))

/-- The exact result of an operation, if the type holds it. -/
def hold (type : IntegerType) (value : Int) : Except Trap Int :=
  if type.Holds value then .ok value else .error (.outOfRange type value)

def add (type : IntegerType) (left right : Int) : Except Trap Int :=
  type.hold (left + right)

def sub (type : IntegerType) (left right : Int) : Except Trap Int :=
  type.hold (left - right)

def mul (type : IntegerType) (left right : Int) : Except Trap Int :=
  type.hold (left * right)

/-- The quotient, rounded towards zero. -/
def div (type : IntegerType) (value divisor : Int) : Except Trap Int :=
  if divisor = 0 then .error .zeroDivisor else type.hold (value.tdiv divisor)

/-- What the division leaves. -/
def rem (type : IntegerType) (value divisor : Int) : Except Trap Int :=
  if divisor = 0 then .error .zeroDivisor else type.hold (value.tmod divisor)

/-- The integer of a type that has the same lowest bits. -/
def wrap (type : IntegerType) (value : Int) : Int :=
  let (least, greatest) := type.bounds
  (value - least) % (greatest - least + 1) + least

/-- The value moved up by `amount` bits. Bits that leave the type at the top are lost. -/
def shiftLeft (type : IntegerType) (value amount : Int) : Except Trap Int :=
  if 0 ≤ amount ∧ amount < type.bits then .ok (type.wrap (value <<< amount.toNat))
  else .error (.shiftTooFar amount)

/-- The value moved down by `amount` bits. -/
def shiftRight (type : IntegerType) (value amount : Int) : Except Trap Int :=
  if 0 ≤ amount ∧ amount < type.bits then .ok (value >>> amount.toNat)
  else .error (.shiftTooFar amount)

end IntegerType

end Chiptune
