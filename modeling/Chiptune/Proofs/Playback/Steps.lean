import Chiptune.Player

/-! The steps of an instruction, and what they leave behind when one of them fails. An instruction
makes its checks first. The steps after the first change of the machine or the cursor cannot fail,
so a failure finds the machine and the cursor as the instruction has found them.
-/

namespace Chiptune

/-- There is a next instruction or the end after the instruction under the cursor. -/
theorem Program.advance_of_current? {program : Program} {instruction : Instruction}
    (here : program.current? = some instruction)
    : program.advance = { program with cursor := program.cursor + 1 } := by
  have inside : program.cursor < program.size :=
    program.current?_isSome_iff.mp (Option.isSome_iff_exists.mpr ⟨instruction, here⟩)
  rw [advance, if_pos inside]

theorem Program.seek?_of_le {program : Program} {target : Nat} (inside : target ≤ program.size)
    : program.seek? target = some { program with cursor := target } :=
  if_pos inside

namespace Player

-----------------------------------------------------------------------------------------
-- Single steps
-----------------------------------------------------------------------------------------

section Steps

variable {player next stopped : Player σ} {fault : Fault}

theorem run_bind_of_ok {first : Steps σ α} {value : α}
    (succeeds : first.run player = .ok value next) (rest : α → Steps σ β)
    : (first >>= rest).run player = (rest value).run next := by
  simp only [EStateM.run_bind, succeeds]

theorem run_bind_of_error {first : Steps σ α} (fails : first.run player = .error fault stopped)
    (rest : α → Steps σ β)
    : (first >>= rest).run player = .error fault stopped := by
  simp only [EStateM.run_bind, fails]

theorem run_checkTarget (target cursor : Nat) (player : Player σ)
    : (checkTarget target cursor).run player
      = if target ≤ player.program.size then .ok () player
        else .error ⟨.targetPastEnd target player.program.size, cursor⟩ player := by
  rw [checkTarget, run_bind_of_ok (EStateM.run_get player)]
  split
  · next inside => simp only [if_neg (Nat.not_lt_of_le inside), EStateM.run_pure]
  · next past => simp only [if_pos (Nat.lt_of_not_le past), EStateM.run_throw]

theorem run_jump (target cursor : Nat) (player : Player σ)
    : (jump target cursor).run player
      = if target ≤ player.program.size then .ok () { player with program.cursor := target }
        else .error ⟨.targetPastEnd target player.program.size, cursor⟩ player := by
  rw [jump, EStateM.run_bind, run_checkTarget]
  by_cases inside : target ≤ player.program.size
  · simp only [if_pos inside, EStateM.run_modify, Program.seek?_of_le inside, Option.getD_some]
  · simp only [if_neg inside]

theorem run_push (frame : Frame) (cursor : Nat) (player : Player σ)
    : (push frame cursor).run player
      = if player.machine.stack.length < player.machine.maxDepth then
          .ok () { player with machine.stack := frame :: player.machine.stack }
        else .error ⟨.stackFull player.machine.maxDepth, cursor⟩ player := by
  rw [push, run_bind_of_ok (EStateM.run_get player)]
  split
  · next room => simp only [if_neg (Nat.not_le_of_lt room), EStateM.run_modify]
  · next full =>
    simp only [if_pos (Nat.le_of_not_lt full)]
    rfl

theorem run_resolve (range : ToneRange) (length : Length) (cursor : Nat) (player : Player σ)
    : (resolve range length cursor).run player
      = match player.machine.resolve range length with
        | .ok millis => .ok millis player
        | .error cause => .error ⟨cause, cursor⟩ player := by
  rw [resolve, run_bind_of_ok (EStateM.run_get player)]
  cases player.machine.resolve range length <;> rfl

theorem run_request [ToneSink σ] (tone : Tone) (cursor : Nat) (player : Player σ)
    : (request tone cursor).run player
      = match ToneSink.emit player.sink tone with
        | (sink, none) => .ok () { player with sink }
        | (sink, some error) => .error ⟨.refused error, cursor⟩ { player with sink } := by
  rw [request, run_bind_of_ok (EStateM.run_get player)]
  rcases ToneSink.emit player.sink tone with ⟨sink, _ | error⟩ <;> rfl

end Steps

-----------------------------------------------------------------------------------------
-- Failures
-----------------------------------------------------------------------------------------

variable {player : Player σ}

/-- What a failure leaves behind: the machine and the program with its cursor are those of `player`,
where the fault is said to be, and if the output has not refused a tone it was not asked for one.
-/
structure LeftBy (player : Player σ) (fault : Fault) (stopped : Player σ) : Prop where
  cursor : fault.cursor = player.program.cursor
  machine : stopped.machine = player.machine
  program : stopped.program = player.program
  untouched : fault.cause.kind ≠ .sinkFailure → stopped.sink = player.sink

/-- Steps that leave behind what they found if they fail, made from `player`. -/
def Atomic (steps : Steps σ α) (player : Player σ) : Prop :=
  ∀ fault stopped, steps.run player = .error fault stopped → player.LeftBy fault stopped

/-- Steps that leave behind what they found in any case, made from `player`. -/
structure Checks (steps : Steps σ α) (player : Player σ) : Prop where
  atomic : Atomic steps player
  unchanged {value next} (passes : steps.run player = .ok value next) : next = player

/-- Steps that do not fail, made from `player`. -/
def CannotFail (steps : Steps σ α) (player : Player σ) : Prop :=
  ∀ fault stopped, steps.run player ≠ .error fault stopped

theorem CannotFail.atomic {steps : Steps σ α} (cannotFail : CannotFail steps player)
    : Atomic steps player :=
  fun fault stopped fails => absurd fails (cannotFail fault stopped)

theorem LeftBy.of_throw {fault : Fault} (cursor : fault.cursor = player.program.cursor)
    : player.LeftBy fault player :=
  ⟨cursor, rfl, rfl, fun _ => rfl⟩

/-- After a check the instruction is where it was before, so the rest has to be atomic from there. -/
theorem Checks.bind {first : Steps σ α} {rest : α → Steps σ β} (first_checks : Checks first player)
    (rest_atomic : ∀ value, first.run player = .ok value player → Atomic (rest value) player)
    : Atomic (first >>= rest) player := by
  intro fault stopped fails
  cases result : first.run player with
  | ok value next =>
      obtain rfl := first_checks.unchanged result
      rw [run_bind_of_ok result] at fails
      exact rest_atomic value result fault stopped fails
  | error earlier left =>
      rw [run_bind_of_error result] at fails
      cases fails
      exact first_checks.atomic _ _ result

/-- After a change nothing may fail. -/
theorem Atomic.bind {first : Steps σ α} {rest : α → Steps σ β} (first_atomic : Atomic first player)
    (rest_cannotFail
      : ∀ value next, first.run player = .ok value next → CannotFail (rest value) next)
    : Atomic (first >>= rest) player := by
  intro fault stopped fails
  cases result : first.run player with
  | ok value next =>
      rw [run_bind_of_ok result] at fails
      exact absurd fails (rest_cannotFail value next result fault stopped)
  | error earlier left =>
      rw [run_bind_of_error result] at fails
      cases fails
      exact first_atomic _ _ result

-----------------------------------------------------------------------------------------
-- Which steps can fail
-----------------------------------------------------------------------------------------

theorem cannotFail_modify (change : Player σ → Player σ) (player : Player σ)
    : CannotFail (modify change) player := by
  intro fault stopped fails
  rw [EStateM.run_modify] at fails
  cases fails

theorem checks_get (player : Player σ) : Checks (get : Steps σ (Player σ)) player where
  atomic _ _ fails := nomatch fails
  unchanged passes := by
    rw [EStateM.run_get] at passes
    cases passes
    rfl

theorem checks_checkTarget (target : Nat) (player : Player σ)
    : Checks (checkTarget target player.program.cursor) player where
  atomic fault stopped fails := by
    rw [run_checkTarget] at fails
    split at fails
    · cases fails
    · cases fails; exact .of_throw rfl
  unchanged passes := by
    rw [run_checkTarget] at passes
    split at passes
    · cases passes; rfl
    · cases passes

/-- A target that was checked is still in the program when only the machine has changed. -/
theorem cannotFail_jump {next : Player σ} {target cursor : Nat}
    (passes : (checkTarget target cursor).run player = .ok () player)
    (same : next.program = player.program)
    : CannotFail (jump target cursor) next := by
  intro fault stopped fails
  rw [run_checkTarget] at passes
  split at passes
  · next inside =>
    rw [run_jump, same, if_pos inside] at fails
    cases fails
  · cases passes

theorem checks_resolve (range : ToneRange) (length : Length) (player : Player σ)
    : Checks (resolve range length player.program.cursor) player where
  atomic fault stopped fails := by
    rw [run_resolve] at fails
    split at fails
    · cases fails
    · cases fails; exact .of_throw rfl
  unchanged passes := by
    rw [run_resolve] at passes
    split at passes
    · cases passes; rfl
    · cases passes

theorem atomic_jump (target : Nat) (player : Player σ)
    : Atomic (jump target player.program.cursor) player :=
  (checks_checkTarget target player).bind fun _ _ => (cannotFail_modify _ player).atomic

theorem atomic_push (frame : Frame) (player : Player σ)
    : Atomic (push frame player.program.cursor) player := by
  intro fault stopped fails
  rw [run_push] at fails
  split at fails
  · cases fails
  · cases fails; exact .of_throw rfl

/-- A frame is put on the stack, and nothing else happens to the program. -/
theorem program_of_push {frame : Frame} {cursor : Nat} {next : Player σ}
    (fits : (push frame cursor).run player = .ok () next)
    : next.program = player.program := by
  rw [run_push] at fits
  split at fits
  · cases fits; rfl
  · cases fits

variable [ToneSink σ]

theorem atomic_request (tone : Tone) (player : Player σ)
    : Atomic (request tone player.program.cursor) player := by
  intro fault stopped fails
  rw [run_request] at fails
  split at fails
  · cases fails
  · cases fails
    exact ⟨rfl, rfl, rfl, fun answered => absurd rfl answered⟩

theorem atomic_sound (range : ToneRange) (hertz : UInt32) (length : Length) (player : Player σ)
    : Atomic (sound range hertz length player.program.cursor) player :=
  (checks_resolve range length player).bind fun millis _ =>
    (atomic_request ⟨hertz, millis⟩ player).bind fun _ next _ => cannotFail_modify _ next

/-- An instruction that fails leaves all but the output as it was, and the output too if it has not
refused a tone. It makes its checks, then at most one step that can fail and change something, and
after that only steps that cannot fail: a target was checked before the stack was changed.
-/
theorem atomic_execute (range : ToneRange) (instruction : Instruction) (player : Player σ)
    : Atomic (execute range instruction) player := by
  refine (checks_get player).bind fun _ found => ?_
  rw [EStateM.run_get] at found
  cases found
  cases instruction with
  | note hertz length =>
      dsimp only
      split
      · exact fun _ _ fails => by cases fails; exact .of_throw rfl
      · exact atomic_sound range hertz length player
  | rest length => exact atomic_sound range 0 length player
  | tempo beats =>
      exact (cannotFail_modify _ player).atomic.bind fun _ next _ => cannotFail_modify _ next
  | breakpoint => exact (cannotFail_modify _ player).atomic
  | jump target => exact atomic_jump target player
  | call target =>
      refine (checks_checkTarget target player).bind fun _ passes => ?_
      refine (atomic_push _ player).bind fun _ next fits => ?_
      exact cannotFail_jump passes (program_of_push fits)
  | comeBack =>
      refine (checks_get player).bind fun _ found => ?_
      rw [EStateM.run_get] at found
      cases found
      split
      · next returnTo outer pending =>
        refine (checks_checkTarget returnTo player).bind fun _ passes => ?_
        refine (cannotFail_modify _ player).atomic.bind fun _ next popped => ?_
        rw [EStateM.run_modify] at popped
        cases popped
        exact cannotFail_jump passes rfl
      · exact fun _ _ fails => by cases fails; exact .of_throw rfl
  | repeatOpen count exit =>
      dsimp only
      split
      · exact atomic_jump exit player
      · exact (atomic_push _ player).bind fun _ next _ => cannotFail_modify _ next
  | repeatClose body =>
      refine (checks_checkTarget body player).bind fun _ passes => ?_
      refine (checks_get player).bind fun _ found => ?_
      rw [EStateM.run_get] at found
      cases found
      split
      · next remaining outer opened =>
        split
        · refine (cannotFail_modify _ player).atomic.bind fun _ next counted => ?_
          rw [EStateM.run_modify] at counted
          cases counted
          exact cannotFail_jump passes rfl
        · exact (cannotFail_modify _ player).atomic.bind fun _ next _ => cannotFail_modify _ next
      · exact fun _ _ fails => by cases fails; exact .of_throw rfl

end Player

end Chiptune
