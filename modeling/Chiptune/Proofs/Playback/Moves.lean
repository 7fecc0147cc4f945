import Chiptune.Proofs.Playback
import Chiptune.Proofs.Playback.Move

/-! What one instruction can do. There is a case for every way to move the machine and for every
cause of a fault, with all that was checked before it. Facts about playbacks go by these cases.
-/

namespace Chiptune

/-- The length of a note or rest. -/
def Instruction.length? : Instruction → Option Length
  | .note _ length => some length
  | .rest length => some length
  | _ => none

theorem Program.mem_of_current? {program : Program} {instruction : Instruction}
    (here : program.current? = some instruction)
    : program.cursor < program.size ∧ instruction ∈ program.code.toList := by
  obtain ⟨inside, same⟩ := Array.getElem?_eq_some_iff.mp here
  exact ⟨inside, same ▸ Array.getElem_mem_toList inside⟩

/-- The tones that a range admits: none of them is too long, and none too low or too high, unless
it is silence.
-/
def ToneRange.Admits (range : ToneRange) (tone : Tone) : Prop :=
  tone.millis ≤ range.maxMillis
  ∧ (tone.frequency = 0
    ∨ (range.minHertz ≤ tone.frequency ∧ tone.frequency ≤ range.maxHertz))

theorem toNat_sub_one {count : UInt32} (positive : count ≠ 0)
    : (count - 1).toNat + 1 = count.toNat := by
  have atLeast : 1 ≤ count.toNat := UInt32.lt_iff_toNat_lt.mp (UInt32.pos_iff_ne_zero.mpr positive)
  have one : (1 : UInt32) ≤ count := UInt32.le_iff_toNat_le.mpr atLeast
  rw [UInt32.toNat_sub_of_le _ _ one]
  exact Nat.sub_add_cancel atLeast

namespace Machine

variable {machine : Machine} {range : ToneRange} {size cursor : Nat} {move : Move}
variable {cause : FaultCause}

/-- A length is resolved if it has a duration, and one that the range can hold. -/
theorem resolve_eq_ok_iff {length : Length} {millis : UInt32}
    : machine.resolve range length = .ok millis
      ↔ length.toMillis? machine.tempo = some millis ∧ millis ≤ range.maxMillis := by
  unfold resolve
  cases length.toMillis? machine.tempo with
  | none => simp
  | some found =>
      by_cases held : found ≤ range.maxMillis
      · have accepted : range.acceptsDuration found := decide_eq_true held
        simp only [if_pos accepted, Except.ok.injEq, Option.some.injEq]
        exact ⟨fun same => ⟨same, same ▸ held⟩, And.left⟩
      · have refused : ¬range.acceptsDuration found := fun accepted =>
          held (of_decide_eq_true accepted)
        simp only [if_neg refused, Option.some.injEq]
        refine ⟨nofun, ?_⟩
        rintro ⟨rfl, within⟩
        exact absurd within held

/-- The moves of instructions at `cursor` in a program of `size` instructions. -/
inductive Moves (machine : Machine) (range : ToneRange) (size cursor : Nat)
    : Instruction → Move → Prop
  | note {hertz length millis} (inRange : range.acceptsFrequency hertz)
    (lasts : machine.resolve range length = .ok millis)
    : Moves machine range size cursor (.note hertz length)
        ⟨machine, cursor + 1, some ⟨hertz, millis⟩⟩
  | rest {length millis} (lasts : machine.resolve range length = .ok millis)
    : Moves machine range size cursor (.rest length) ⟨machine, cursor + 1, some ⟨0, millis⟩⟩
  | tempo (beats : UInt32)
    : Moves machine range size cursor (.tempo beats)
        ⟨{ machine with tempo := beats }, cursor + 1, none⟩
  | breakpoint : Moves machine range size cursor .breakpoint ⟨machine, cursor + 1, none⟩
  | jump {target} (inside : target ≤ size)
    : Moves machine range size cursor (.jump target) ⟨machine, target, none⟩
  | call {target} (inside : target ≤ size) (room : machine.stack.length < machine.maxDepth)
    : Moves machine range size cursor (.call target)
        ⟨{ machine with stack := .call (cursor + 1) :: machine.stack }, target, none⟩
  | comeBack {returnTo outer} (pending : machine.stack = .call returnTo :: outer)
    (inside : returnTo ≤ size)
    : Moves machine range size cursor .comeBack
        ⟨{ machine with stack := outer }, returnTo, none⟩
  | skip {exit} (inside : exit ≤ size)
    : Moves machine range size cursor (.repeatOpen 0 exit) ⟨machine, exit, none⟩
  | enter {count exit} (positive : count ≠ 0) (room : machine.stack.length < machine.maxDepth)
    : Moves machine range size cursor (.repeatOpen count exit)
        ⟨{ machine with stack := .loop (count - 1) :: machine.stack }, cursor + 1, none⟩
  | again {body remaining outer} (inside : body ≤ size)
    (opened : machine.stack = .loop remaining :: outer) (more : remaining ≠ 0)
    : Moves machine range size cursor (.repeatClose body)
        ⟨{ machine with stack := .loop (remaining - 1) :: outer }, body, none⟩
  | leave {body outer} (inside : body ≤ size) (opened : machine.stack = .loop 0 :: outer)
    : Moves machine range size cursor (.repeatClose body)
        ⟨{ machine with stack := outer }, cursor + 1, none⟩

/-- The causes for which instructions have no move in a program of `size` instructions. -/
inductive Raises (machine : Machine) (range : ToneRange) (size : Nat)
    : Instruction → FaultCause → Prop
  | frequency {hertz length} (outside : range.acceptsFrequency hertz = false)
    : Raises machine range size (.note hertz length) (.frequencyOutOfRange hertz range)
  | duration {instruction length cause} (carries : instruction.length? = some length)
    (fails : machine.resolve range length = .error cause)
    : Raises machine range size instruction cause
  | target {instruction target} (carries : instruction.target? = some target)
    (past : size < target)
    : Raises machine range size instruction (.targetPastEnd target size)
  | returnTo {returnTo outer} (pending : machine.stack = .call returnTo :: outer)
    (past : size < returnTo)
    : Raises machine range size .comeBack (.targetPastEnd returnTo size)
  | full {instruction target} (carries : instruction.target? = some target)
    (noRoom : machine.maxDepth ≤ machine.stack.length)
    : Raises machine range size instruction (.stackFull machine.maxDepth)
  | noCall (idle : ∀ returnTo, machine.stack.head? ≠ some (.call returnTo))
    : Raises machine range size .comeBack .returnWithoutCall
  | noLoop {body} (idle : ∀ remaining, machine.stack.head? ≠ some (.loop remaining))
    : Raises machine range size (.repeatClose body) .closeWithoutOpen

/-- What follows from the answer of a function of the machine, for a move and for a fault. -/
def Answers (answer : Except FaultCause Move) (moves : Move → Prop) (raises : FaultCause → Prop)
    : Prop :=
  match answer with
  | .ok move => moves move
  | .error cause => raises cause

section Answers

variable {moves : Move → Prop} {raises : FaultCause → Prop}

theorem answers_goTo {target : Nat} (inside : target ≤ size → moves ⟨machine, target, none⟩)
    (past : size < target → raises (.targetPastEnd target size))
    : Answers (machine.goTo size target) moves raises := by
  unfold goTo
  split
  · next bounded => exact inside bounded
  · next beyond => exact past (Nat.lt_of_not_le beyond)

theorem answers_enter {frame : Frame} {target : Nat}
    (room
      : machine.stack.length < machine.maxDepth
        → moves ⟨{ machine with stack := frame :: machine.stack }, target, none⟩)
    (full : machine.maxDepth ≤ machine.stack.length → raises (.stackFull machine.maxDepth))
    : Answers (machine.enter frame target) moves raises := by
  unfold enter
  split
  · next fits => exact room fits
  · next crowded => exact full (Nat.le_of_not_lt crowded)

theorem answers_sound {hertz : UInt32} {length : Length} {target : Nat}
    (lasts
      : ∀ millis, machine.resolve range length = .ok millis
        → moves ⟨machine, target, some ⟨hertz, millis⟩⟩)
    (fails : ∀ cause, machine.resolve range length = .error cause → raises cause)
    : Answers (machine.sound range hertz length target) moves raises := by
  unfold sound
  cases resolved : machine.resolve range length with
  | ok millis => exact lasts millis resolved
  | error cause => exact fails cause resolved

end Answers

/-- An instruction makes one of the moves or raises one of the causes, by cases on it. -/
theorem answers_move (machine : Machine) (range : ToneRange) (size cursor : Nat)
    (instruction : Instruction)
    : Answers (machine.move range size cursor instruction)
        (Moves machine range size cursor instruction) (Raises machine range size instruction) := by
  cases instruction with
  | note hertz length =>
      rw [Machine.move]
      split
      · next inRange => exact answers_sound (fun _ => .note inRange) fun _ => .duration rfl
      · next outside => exact .frequency (Bool.eq_false_iff.mpr outside)
  | rest length => exact answers_sound (fun _ => .rest) fun _ => .duration rfl
  | tempo beats => exact .tempo beats
  | breakpoint => exact .breakpoint
  | jump target => exact answers_goTo .jump (.target rfl)
  | call target =>
      rw [Machine.move]
      split
      · next inside => exact answers_enter (.call inside) (.full rfl)
      · next past => exact .target rfl (Nat.lt_of_not_le past)
  | comeBack =>
      rw [Machine.move, comeBack]
      split
      · next returnTo outer pending =>
        exact answers_goTo (.comeBack pending) (.returnTo pending)
      · next idle =>
        refine .noCall fun returnTo head => ?_
        obtain ⟨outer, pending⟩ := List.head?_eq_some_iff.mp head
        exact idle returnTo outer pending
  | repeatOpen count exit =>
      rw [Machine.move]
      split
      · next none => subst none; exact answers_goTo .skip (.target rfl)
      · next positive => exact answers_enter (.enter positive) (.full rfl)
  | repeatClose body =>
      rw [Machine.move, repeatClose]
      split
      · next inside =>
        split
        · next remaining outer opened =>
          split
          · next last => subst last; exact .leave inside opened
          · next more => exact .again inside opened more
        · next idle =>
          refine .noLoop fun remaining head => ?_
          obtain ⟨outer, opened⟩ := List.head?_eq_some_iff.mp head
          exact idle remaining outer opened
      · next past => exact .target rfl (Nat.lt_of_not_le past)

theorem moves_of_move {instruction : Instruction}
    (moves : machine.move range size cursor instruction = .ok move)
    : Moves machine range size cursor instruction move := by
  have answers := answers_move machine range size cursor instruction
  rwa [moves] at answers

theorem raises_of_move {instruction : Instruction}
    (raises : machine.move range size cursor instruction = .error cause)
    : Raises machine range size instruction cause := by
  have answers := answers_move machine range size cursor instruction
  rwa [raises] at answers

/-- A call that is pending after a move was pending before it, or was made by it. -/
theorem Moves.call_mem {instruction : Instruction} {returnTo : Nat}
    (moves : machine.Moves range size cursor instruction move)
    (pending : .call returnTo ∈ move.machine.stack)
    : .call returnTo ∈ machine.stack ∨ returnTo = cursor + 1 := by
  cases moves with
  | note | rest | tempo | breakpoint | jump | skip => exact .inl pending
  | call =>
      rcases List.mem_cons.mp pending with same | earlier
      · exact .inr (Frame.call.inj same)
      · exact .inl earlier
  | enter => exact .inl ((List.mem_cons.mp pending).resolve_left nofun)
  | comeBack opened => exact .inl (opened ▸ List.mem_cons_of_mem _ pending)
  | again _ opened =>
      have earlier := (List.mem_cons.mp pending).resolve_left nofun
      exact .inl (opened ▸ List.mem_cons_of_mem _ earlier)
  | leave _ opened => exact .inl (opened ▸ List.mem_cons_of_mem _ pending)

/-- A move asks for tones that the range admits only, by cases on the move. -/
theorem Moves.admits {instruction : Instruction} {tone : Tone}
    (moves : machine.Moves range size cursor instruction move) (asks : move.tone = some tone)
    : range.Admits tone := by
  cases moves with
  | note inRange lasts =>
      cases asks
      exact ⟨(resolve_eq_ok_iff.mp lasts).2, .inr (ToneRange.acceptsFrequency_iff.mp inRange)⟩
  | rest lasts => cases asks; exact ⟨(resolve_eq_ok_iff.mp lasts).2, .inl rfl⟩
  | tempo | breakpoint | jump | call | comeBack | skip | enter | again | leave => cases asks

/-- The last fault has no influence on moves, by cases on the instruction. -/
theorem move_lastFault (machine : Machine) (range : ToneRange) (size cursor : Nat)
    (instruction : Instruction) (lastFault : Option Fault)
    : { machine with lastFault }.move range size cursor instruction
      = (machine.move range size cursor instruction).map fun move =>
          { move with machine := { move.machine with lastFault } } := by
  cases instruction with
  | note hertz length =>
      simp only [Machine.move, sound, resolve]
      split
      · split
        · rfl
        · split <;> rfl
      · rfl
  | rest length =>
      simp only [Machine.move, sound, resolve]
      split
      · rfl
      · split <;> rfl
  | tempo | breakpoint => rfl
  | jump target => simp only [Machine.move, goTo]; split <;> rfl
  | call target =>
      simp only [Machine.move, enter]
      split
      · split <;> rfl
      · rfl
  | comeBack =>
      simp only [Machine.move, comeBack, goTo]
      split
      · split <;> rfl
      · rfl
  | repeatOpen count exit =>
      simp only [Machine.move, goTo, enter]
      split
      · split <;> rfl
      · split <;> rfl
  | repeatClose body =>
      simp only [Machine.move, repeatClose]
      split
      · split
        · split <;> rfl
        · rfl
      · rfl

end Machine

namespace Player

variable [ToneSink σ] {range : ToneRange} {player next stopped : Player σ} {fault : Fault}

/-- An attempt that succeeds makes a move of the instruction under the cursor, and the output takes
the tone that the move asks for, if it asks for one.
-/
structure Performs (player : Player σ) (range : ToneRange) (instruction : Instruction)
    (move : Move) (next : Player σ)
    : Prop where
  here : player.program.current? = some instruction
  moves
    : player.machine.Moves range player.program.size player.program.cursor instruction move
  machine : next.machine = move.machine
  program : next.program = { player.program with cursor := move.cursor }
  untouched : move.tone = none → next.sink = player.sink
  taken
    : ∀ tone, move.tone = some tone → ToneSink.emit player.sink tone = (next.sink, none)

/-- An attempt that fails leaves all but the last fault and the output as it was. Either the
instruction under the cursor raises the cause of the fault, or the output refuses its tone.
-/
structure Fails (player : Player σ) (range : ToneRange) (instruction : Instruction)
    (fault : Fault) (stopped : Player σ)
    : Prop where
  here : player.program.current? = some instruction
  machine : stopped.machine = { player.machine with lastFault := some fault }
  program : stopped.program = player.program
  cursor : fault.cursor = player.program.cursor
  reason
    : (player.machine.move range player.program.size player.program.cursor instruction
          = .error fault.cause
        ∧ stopped.sink = player.sink)
      ∨ ∃ move tone error,
          player.machine.move range player.program.size player.program.cursor instruction
            = .ok move
          ∧ move.tone = some tone
          ∧ ToneSink.emit player.sink tone = (stopped.sink, some error)
          ∧ fault.cause = .refused error

/-- What an attempt did, by cases on the move and on the answer of the output. -/
theorem attempt?_cases {result : Player σ × Option Fault}
    (attempted : player.attempt? range = some result)
    : ∃ instruction,
        (∃ move, player.Performs range instruction move result.1 ∧ result.2 = none)
        ∨ ∃ fault, player.Fails range instruction fault result.1 ∧ result.2 = some fault := by
  obtain ⟨instruction, here, rfl⟩ := Option.map_eq_some_iff.mp attempted
  refine ⟨instruction, ?_⟩
  cases answer
      : player.machine.move range player.program.size player.program.cursor instruction with
  | error cause =>
      rw [attempt_of_error here answer]
      exact .inr ⟨⟨cause, player.program.cursor⟩,
        ⟨here, rfl, rfl, rfl, .inl ⟨answer, rfl⟩⟩, rfl⟩
  | ok move =>
      have moves := Machine.moves_of_move answer
      cases asks : move.tone with
      | none =>
          rw [attempt_of_silent here answer asks]
          refine .inl ⟨move, ⟨here, moves, rfl, rfl, fun _ => rfl, ?_⟩, rfl⟩
          simp [asks]
      | some tone =>
          match taken : ToneSink.emit player.sink tone with
          | (sink, none) =>
            rw [attempt_of_taken here answer asks taken]
            refine .inl ⟨move, ⟨here, moves, rfl, rfl, ?_, ?_⟩, rfl⟩
            · simp [asks]
            · rintro _ same
              obtain rfl := Option.some.inj (asks.symm.trans same)
              exact taken
          | (sink, some error) =>
            rw [attempt_of_refused here answer asks taken]
            exact .inr ⟨⟨.refused error, player.program.cursor⟩,
              ⟨here, rfl, rfl, rfl, .inr ⟨move, tone, error, answer, asks, taken, rfl⟩⟩, rfl⟩

/-- An attempt makes one request of the output, which is in range, or none. -/
theorem sink_attempt? {result : Player σ × Option Fault}
    (attempted : player.attempt? range = some result)
    : result.1.sink = player.sink
      ∨ ∃ tone,
          range.Admits tone ∧ result.1.sink = (ToneSink.emit player.sink tone).1 := by
  obtain ⟨instruction, ⟨move, performs, -⟩ | ⟨fault, fails, -⟩⟩ := attempt?_cases attempted
  · cases asks : move.tone with
    | none => exact .inl (performs.untouched asks)
    | some tone =>
        have taken := congrArg Prod.fst (performs.taken tone asks)
        exact .inr ⟨tone, performs.moves.admits asks, taken.symm⟩
  · rcases fails.reason with ⟨-, same⟩ | ⟨move, tone, error, moves, asks, refused, -⟩
    · exact .inl same
    · have admitted := (Machine.moves_of_move moves).admits asks
      exact .inr ⟨tone, admitted, (congrArg Prod.fst refused).symm⟩

theorem performs_of_attempt? (succeeds : player.attempt? range = some (next, none))
    : ∃ instruction move, player.Performs range instruction move next := by
  obtain ⟨instruction, ⟨move, performs, -⟩ | ⟨fault, -, raised⟩⟩ := attempt?_cases succeeds
  · exact ⟨instruction, move, performs⟩
  · cases raised

theorem fails_of_attempt? (raised : player.attempt? range = some (stopped, some fault))
    : ∃ instruction, player.Fails range instruction fault stopped := by
  obtain ⟨instruction, ⟨move, -, succeeds⟩ | ⟨other, fails, same⟩⟩ := attempt?_cases raised
  · cases succeeds
  · exact ⟨instruction, Option.some.inj same ▸ fails⟩

end Player

end Chiptune
