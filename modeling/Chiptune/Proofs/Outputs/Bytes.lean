import Chiptune.Output.Speaker
import Chiptune.Output.WaveFile
import Mathlib.Data.Nat.Digits.Defs

/-! Numbers read from the bytes that outputs write, the lowest byte first. -/

namespace Chiptune

/-- The number that bytes stand for. -/
def unsignedValue (bytes : List UInt8) : Nat :=
  Nat.ofDigits 256 (bytes.map UInt8.toNat)

/-- The number that bytes stand for in two's complement. -/
def signedValue (bytes : List UInt8) : Int :=
  (unsignedValue bytes : Int).bmod (256 ^ bytes.length)

theorem WaveFile.unsignedValue_bytes32 {number : Nat} (fits : number < UInt32.size)
    : unsignedValue (bytes32 number) = number := by
  simp only [UInt32.size] at fits
  simp [unsignedValue, bytes32, bytes16, Nat.ofDigits]
  omega

theorem WaveFile.signedValue_sampleBytes (level : Level)
    : signedValue (sampleBytes level) = amplitude level := by
  cases level <;> decide +kernel

/-- Half of the numbers of 32 bits are read as they are, those that have no sign. -/
theorem Speaker.signedValue_littleEndian {number : Nat} (fits : number < 0x80000000)
    : signedValue (littleEndian 4 number) = number := by
  have value : unsignedValue (littleEndian 4 number) = number := by
    simp [unsignedValue, littleEndian, List.range_succ, Nat.ofDigits, Nat.shiftRight_eq_div_pow]
    omega
  have length : (littleEndian 4 number).length = 4 := by
    simp [littleEndian]
  rw [signedValue, value, length]
  exact Int.bmod_eq_of_le (by omega) (by omega)

end Chiptune
