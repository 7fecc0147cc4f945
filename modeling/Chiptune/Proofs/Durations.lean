import Chiptune.Length
import Chiptune.Proofs.Arithmetic
import Mathlib.Algebra.Order.Round
import Mathlib.Data.ENat.Basic
import Mathlib.Data.Rat.Floor
import Mathlib.Tactic.FieldSimp
import Mathlib.Tactic.Linarith
import Mathlib.Tactic.Ring

/-! Durations as exact numbers. The whole milliseconds of a length are its exact duration rounded,
halves up, wherever the length has a duration. They are the only ones as near to it, more ticks or
a slower tempo never shorten them, and they are computed without leaving 64 bits.
-/

namespace Chiptune.Length

/-- The exact duration of a length in milliseconds at a tempo above zero. -/
def exactMillis (tempo : UInt32) : Length → ℚ
  | .millis count => count.toNat
  | .ticks count => count.toNat * 60000 / (ticksPerBeat * tempo.toNat : ℕ)

/-- Adding half of an even divisor before a whole division rounds halves up. -/
theorem roundedMillis_eq_round (ticks : Nat) {beats : Nat} (positive : 0 < beats)
    : (roundedMillis ticks beats : ℤ) = round (ticks * 60000 / (ticksPerBeat * beats : ℕ) : ℚ) := by
  have even : ticksPerBeat * beats / 2 = 480 * beats := by unfold ticksPerBeat; omega
  have shifted
      : (ticks * 60000 / (ticksPerBeat * beats : ℕ) + 1 / 2 : ℚ)
        = (ticks * 60000 + 480 * beats : ℕ) / (ticksPerBeat * beats : ℕ) := by
    have nonzero : (beats : ℚ) ≠ 0 := by exact_mod_cast positive.ne'
    unfold ticksPerBeat
    push_cast
    field_simp
    ring
  rw [round_eq, shifted, Rat.floor_natCast_div_natCast, roundedMillis, even]
  norm_cast

theorem toNat_pos {tempo : UInt32} (positive : tempo ≠ 0) : 0 < tempo.toNat :=
  UInt32.lt_iff_toNat_lt.mp (UInt32.pos_iff_ne_zero.mpr positive)

theorem round_exactMillis_ticks (count : UInt32) {tempo : UInt32} (positive : tempo ≠ 0)
    : round ((ticks count).exactMillis tempo) = roundedMillis count.toNat tempo.toNat :=
  (roundedMillis_eq_round count.toNat (toNat_pos positive)).symm

/-- A length that has a duration lasts the exact one, rounded. -/
theorem round_exactMillis_of_some {length : Length} {tempo millis : UInt32}
    (lasts : length.toMillis? tempo = some millis)
    : round (length.exactMillis tempo) = millis.toNat := by
  cases length with
  | millis count =>
      cases lasts
      exact round_natCast _
  | ticks count =>
      simp only [toMillis?] at lasts
      split at lasts
      · cases lasts
      · next positive =>
        split at lasts
        · next fits =>
          rw [round_exactMillis_ticks count positive, ← Option.some.inj lasts,
            UInt32.toNat_ofNat_of_lt' fits]
        · cases lasts

/-- At a tempo above zero a length has no duration only if that does not fit in 32 bits. -/
theorem le_round_exactMillis_of_none {length : Length} {tempo : UInt32} (positive : tempo ≠ 0)
    (unresolved : length.toMillis? tempo = none)
    : (UInt32.size : ℤ) ≤ round (length.exactMillis tempo) := by
  cases length with
  | millis count => cases unresolved
  | ticks count =>
      simp only [toMillis?, if_neg positive] at unresolved
      split at unresolved
      · cases unresolved
      · next large =>
        rw [round_exactMillis_ticks count positive]
        exact_mod_cast Nat.le_of_not_lt large

-----------------------------------------------------------------------------------------
-- The nearest milliseconds
-----------------------------------------------------------------------------------------

/-- The whole milliseconds nearest to a number of ticks; of two that are as near, the greater. -/
def Nearest (ticks beats millis : Nat) : Prop :=
  (2 * millis - 1) * (960 * beats) ≤ (2 * (60000 * ticks) : ℤ)
  ∧ (2 * (60000 * ticks) : ℤ) < (2 * millis + 1) * (960 * beats)

theorem nearest_roundedMillis (ticks : Nat) {beats : Nat} (positive : 0 < beats)
    : Nearest ticks beats (roundedMillis ticks beats) := by
  have even : ticksPerBeat * beats / 2 = 480 * beats := by unfold ticksPerBeat; omega
  have parts : 0 < ticksPerBeat * beats := Nat.mul_pos (by decide) positive
  have below := Nat.div_mul_le_self (ticks * 60000 + 480 * beats) (ticksPerBeat * beats)
  have above := Nat.lt_div_mul_add parts (a := ticks * 60000 + 480 * beats)
  rw [Nearest, roundedMillis, even]
  generalize (ticks * 60000 + 480 * beats) / (ticksPerBeat * beats) = millis at below above
  unfold ticksPerBeat at below above
  zify at below above
  constructor <;> linarith

/-- More ticks at a slower tempo do not last shorter. -/
theorem Nearest.le {ticks beats millis moreTicks fewerBeats other : Nat}
    (nearest : Nearest ticks beats millis) (nearestToo : Nearest moreTicks fewerBeats other)
    (more : ticks ≤ moreTicks) (fewer : fewerBeats ≤ beats)
    : millis ≤ other := by
  have between : (2 * millis - 1 : ℤ) * (960 * beats) < (2 * other + 1) * (960 * beats) := by
    calc (2 * millis - 1 : ℤ) * (960 * beats)
      _ ≤ 2 * (60000 * ticks) := nearest.1
      _ ≤ 2 * (60000 * moreTicks) := by omega
      _ < (2 * other + 1) * (960 * fewerBeats) := nearestToo.2
      _ ≤ (2 * other + 1) * (960 * beats) := by gcongr
  have halves := lt_of_mul_lt_mul_right between (by positivity)
  omega

theorem Nearest.unique {ticks beats millis other : Nat} (nearest : Nearest ticks beats millis)
    (nearestToo : Nearest ticks beats other)
    : millis = other :=
  Nat.le_antisymm (nearest.le nearestToo le_rfl le_rfl) (nearestToo.le nearest le_rfl le_rfl)

theorem toMillis?_ticks (count : UInt32) {tempo : UInt32} (positive : tempo ≠ 0)
    : (ticks count).toMillis? tempo
      = if roundedMillis count.toNat tempo.toNat < UInt32.size then
          some (UInt32.ofNat (roundedMillis count.toNat tempo.toNat))
        else none := by
  rw [toMillis?, if_neg positive]

/-- The milliseconds of a length, which are without end where it has no duration. -/
def duration (tempo : UInt32) (length : Length) : ℕ∞ :=
  match length.toMillis? tempo with
  | some count => count.toNat
  | none => ⊤

theorem duration_ticks_le {count moreTicks tempo slower : UInt32} (more : count ≤ moreTicks)
    (slow : slower ≤ tempo)
    : (ticks count).duration tempo ≤ (ticks moreTicks).duration slower := by
  rcases eq_or_ne slower 0 with rfl | positive
  · exact le_top
  have positiveToo : tempo ≠ 0 := by
    rintro rfl
    exact positive (UInt32.le_zero_iff.mp slow)
  have ordered
      : roundedMillis count.toNat tempo.toNat ≤ roundedMillis moreTicks.toNat slower.toNat :=
    (nearest_roundedMillis _ (toNat_pos positiveToo)).le
      (nearest_roundedMillis _ (toNat_pos positive)) (UInt32.le_iff_toNat_le.mp more)
      (UInt32.le_iff_toNat_le.mp slow)
  rw [duration, duration, toMillis?_ticks _ positive, toMillis?_ticks _ positiveToo]
  by_cases fits : roundedMillis moreTicks.toNat slower.toNat < UInt32.size
  · have fitsToo := Nat.lt_of_le_of_lt ordered fits
    rw [if_pos fits, if_pos fitsToo]
    dsimp only
    rw [UInt32.toNat_ofNat_of_lt' fits, UInt32.toNat_ofNat_of_lt' fitsToo]
    exact_mod_cast ordered
  · rw [if_neg fits]
    exact le_top

-----------------------------------------------------------------------------------------
-- Machine integers
-----------------------------------------------------------------------------------------

open IntegerType

/-- A quotient rounded to the nearest whole number, halves up. -/
def roundedTrapping (numerator denominator : Int) : Except Trap Int := do
  let raised ← u64.add numerator (← u64.div denominator 2)
  u64.div raised denominator

/-- The duration of a length in milliseconds at a tempo, with all the checks of machine integers. -/
def toMillisTrapping (length : Length) (tempo : UInt32) : Except Trap (Option UInt32) :=
  match length with
  | .millis count => .ok (some count)
  | .ticks count =>
    if tempo = 0 then .ok none
    else do
      let numerator ← u64.mul count.toNat 60000
      let denominator ← u64.mul ticksPerBeat tempo.toNat
      let millis ← roundedTrapping numerator denominator
      return if u32.Holds millis then some (UInt32.ofNat millis.toNat) else none

theorem holds_of_lt {value : Nat} (small : value < 2 ^ 50) : u64.Holds value := by
  have size : UInt64.size = 2 ^ 64 := rfl
  rw [holds_u64_iff, size]
  omega

theorem roundedTrapping_eq {numerator denominator : Nat} (positive : 0 < denominator)
    (numeratorFits : numerator < 2 ^ 49) (denominatorFits : denominator < 2 ^ 49)
    : roundedTrapping numerator denominator
      = .ok ((numerator + denominator / 2) / denominator : Nat) := by
  have halfFits : denominator / 2 < 2 ^ 49 := by omega
  have raised : numerator + denominator / 2 < 2 ^ 50 := by omega
  have half : u64.div denominator 2 = .ok (denominator / 2 : Nat) :=
    div_eq_ok Nat.two_pos (holds_of_lt (Nat.lt_trans halfFits (by decide)))
  rw [roundedTrapping, half, Trap.ok_bind, add_eq_ok (holds_of_lt raised), Trap.ok_bind]
  exact div_eq_ok positive (holds_of_lt (Nat.lt_of_le_of_lt (Nat.div_le_self _ _) raised))

/-- The numerator and the denominator take up less than 49 of 64 bits. -/
theorem toMillisTrapping_eq (length : Length) (tempo : UInt32)
    : length.toMillisTrapping tempo = .ok (length.toMillis? tempo) := by
  cases length with
  | millis count => rfl
  | ticks count =>
      rw [toMillisTrapping, toMillis?]
      split
      · rfl
      · next positive =>
        have few := count.toNat_lt
        have fast := tempo.toNat_lt
        have numeratorFits : count.toNat * 60000 < 2 ^ 49 := by omega
        have denominatorFits : ticksPerBeat * tempo.toNat < 2 ^ 49 := by unfold ticksPerBeat; omega
        have product : u64.mul count.toNat 60000 = .ok (count.toNat * 60000 : Nat) :=
          mul_eq_ok (holds_of_lt (Nat.lt_trans numeratorFits (by decide)))
        have beatTicks
            : u64.mul ticksPerBeat tempo.toNat = .ok (ticksPerBeat * tempo.toNat : Nat) :=
          mul_eq_ok (holds_of_lt (Nat.lt_trans denominatorFits (by decide)))
        have parts : 0 < ticksPerBeat * tempo.toNat := Nat.mul_pos (by decide) (toNat_pos positive)
        rw [product, Trap.ok_bind, beatTicks, Trap.ok_bind,
          roundedTrapping_eq parts numeratorFits denominatorFits, Trap.ok_bind]
        simp only [holds_u32_iff]
        rfl

end Chiptune.Length
