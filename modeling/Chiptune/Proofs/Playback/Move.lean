import Chiptune.Proofs.Playback.Steps

/-! Instructions as single moves. The steps of an instruction amount to one of three things: they
make a move, or the instruction has a cause for a fault and changes nothing, or the output refuses
the tone of the move and nothing but the output is changed.
-/

namespace Chiptune

/-- Where an instruction leads. -/
structure Move where
  machine : Machine
  cursor : Nat
  /-- The tone that has to be played first. -/
  tone : Option Tone
deriving DecidableEq

namespace Machine

/-- Continue at `target`, if that is in a program of `size` instructions or its end. -/
def goTo (machine : Machine) (size target : Nat) : Except FaultCause Move :=
  if target ≤ size then .ok ⟨machine, target, none⟩ else .error (.targetPastEnd target size)

/-- Put a frame on the control stack, if it is not full, and continue at `target`. -/
def enter (machine : Machine) (frame : Frame) (target : Nat) : Except FaultCause Move :=
  if machine.stack.length < machine.maxDepth then
    .ok ⟨{ machine with stack := frame :: machine.stack }, target, none⟩
  else .error (.stackFull machine.maxDepth)

/-- Play a frequency for a length and continue at `target`. -/
def sound (machine : Machine) (range : ToneRange) (hertz : UInt32) (length : Length)
    (target : Nat)
    : Except FaultCause Move :=
  (machine.resolve range length).map fun millis => ⟨machine, target, some ⟨hertz, millis⟩⟩

/-- Return from the call made last. -/
def comeBack (machine : Machine) (size : Nat) : Except FaultCause Move :=
  match machine.stack with
  | .call returnTo :: outer => { machine with stack := outer }.goTo size returnTo
  | _ => .error .returnWithoutCall

/-- Play the innermost loop once more, or leave it and continue at `next`. -/
def repeatClose (machine : Machine) (size body next : Nat) : Except FaultCause Move :=
  if body ≤ size then
    match machine.stack with
    | .loop remaining :: outer =>
      if remaining = 0 then .ok ⟨{ machine with stack := outer }, next, none⟩
      else .ok ⟨{ machine with stack := .loop (remaining - 1) :: outer }, body, none⟩
    | _ => .error .closeWithoutOpen
  else .error (.targetPastEnd body size)

/-- The move of an instruction at `cursor` in a program of `size` instructions. -/
def move (machine : Machine) (range : ToneRange) (size cursor : Nat)
    : Instruction → Except FaultCause Move
  | .note hertz length =>
    if range.acceptsFrequency hertz then machine.sound range hertz length (cursor + 1)
    else .error (.frequencyOutOfRange hertz range)
  | .rest length => machine.sound range 0 length (cursor + 1)
  | .tempo beats => .ok ⟨{ machine with tempo := beats }, cursor + 1, none⟩
  | .breakpoint => .ok ⟨machine, cursor + 1, none⟩
  | .jump target => machine.goTo size target
  | .call target =>
    if target ≤ size then machine.enter (.call (cursor + 1)) target
    else .error (.targetPastEnd target size)
  | .comeBack => machine.comeBack size
  | .repeatOpen count exit =>
    if count = 0 then machine.goTo size exit
    else machine.enter (.loop (count - 1)) (cursor + 1)
  | .repeatClose body => machine.repeatClose size body (cursor + 1)

end Machine

namespace Player

-----------------------------------------------------------------------------------------
-- Moves
-----------------------------------------------------------------------------------------

variable [ToneSink σ] {player : Player σ} {range : ToneRange} {instruction : Instruction}

/-- What a move leads to. If its tone is refused, nothing but the output is changed. -/
def makeMove (player : Player σ) (move : Move) : EStateM.Result Fault (Player σ) Unit :=
  let moved (sink : σ) : Player σ :=
    ⟨move.machine, { player.program with cursor := move.cursor }, sink⟩
  match move.tone with
  | none => .ok () (moved player.sink)
  | some tone =>
    match ToneSink.emit player.sink tone with
    | (sink, none) => .ok () (moved sink)
    | (sink, some error) => .error ⟨.refused error, player.program.cursor⟩ { player with sink }

/-- What follows from the answer of the machine to an instruction. -/
def follow (player : Player σ) : Except FaultCause Move → EStateM.Result Fault (Player σ) Unit
  | .ok move => player.makeMove move
  | .error cause => .error ⟨cause, player.program.cursor⟩ player

omit [ToneSink σ] in
theorem run_checkTarget_bind (target cursor : Nat) (rest : Unit → Steps σ α) (player : Player σ)
    : (checkTarget target cursor >>= rest).run player
      = if target ≤ player.program.size then (rest ()).run player
        else .error ⟨.targetPastEnd target player.program.size, cursor⟩ player := by
  rw [EStateM.run_bind, run_checkTarget]
  by_cases inside : target ≤ player.program.size
  · simp only [if_pos inside]
  · simp only [if_neg inside]

omit [ToneSink σ] in
theorem run_push_bind (frame : Frame) (cursor : Nat) (rest : Unit → Steps σ α)
    (player : Player σ)
    : (push frame cursor >>= rest).run player
      = if player.machine.stack.length < player.machine.maxDepth then
          (rest ()).run { player with machine.stack := frame :: player.machine.stack }
        else .error ⟨.stackFull player.machine.maxDepth, cursor⟩ player := by
  rw [EStateM.run_bind, run_push]
  by_cases room : player.machine.stack.length < player.machine.maxDepth
  · simp only [if_pos room]
  · simp only [if_neg room]

theorem run_jump_eq (player : Player σ) (target : Nat)
    : (jump target player.program.cursor).run player
      = player.follow (player.machine.goTo player.program.size target) := by
  rw [run_jump, Machine.goTo, apply_ite player.follow]
  rfl

theorem run_sound_eq (here : player.program.current? = some instruction) (hertz : UInt32)
    (length : Length)
    : (sound range hertz length player.program.cursor).run player
      = player.follow
          (player.machine.sound range hertz length (player.program.cursor + 1)) := by
  rw [sound, Machine.sound]
  cases lasts : player.machine.resolve range length with
  | error cause =>
      rw [run_bind_of_error (by rw [run_resolve, lasts])]
      rfl
  | ok millis =>
      rw [run_bind_of_ok (by rw [run_resolve, lasts])]
      simp only [Except.map, follow, makeMove]
      rcases answer : ToneSink.emit player.sink ⟨hertz, millis⟩ with ⟨sink, _ | error⟩
      · rw [run_bind_of_ok (by rw [run_request, answer]), advance, EStateM.run_modify,
          Program.advance_of_current? here]
      · rw [run_bind_of_error (by rw [run_request, answer])]

/-- The steps of the instruction under the cursor amount to its move, by cases on it. -/
theorem run_execute (here : player.program.current? = some instruction) (range : ToneRange)
    : (execute range instruction).run player
      = player.follow
          (player.machine.move range player.program.size player.program.cursor instruction) := by
  have next := Program.advance_of_current? here
  rw [execute, run_bind_of_ok (EStateM.run_get player)]
  cases instruction with
  | note hertz length =>
      rw [Machine.move]
      by_cases accepted : range.acceptsFrequency hertz
      · simp only [accepted, Bool.not_true, Bool.false_eq_true, if_false, if_true]
        exact run_sound_eq here hertz length
      · simp only [accepted, Bool.not_false, if_true, Bool.false_eq_true, if_false]
        rfl
  | rest length => exact run_sound_eq here 0 length
  | tempo beats =>
      simp only [run_bind_of_ok (EStateM.run_modify _ player), advance, EStateM.run_modify, next]
      rfl
  | breakpoint =>
      simp only [advance, EStateM.run_modify, next]
      rfl
  | jump target => exact run_jump_eq player target
  | call target =>
      rw [run_checkTarget_bind, Machine.move, apply_ite player.follow]
      refine ite_congr rfl (fun inside => ?_) fun _ => rfl
      rw [run_push_bind, Machine.enter, apply_ite player.follow]
      refine ite_congr rfl (fun _ => ?_) fun _ => rfl
      rw [run_jump, if_pos inside]
      rfl
  | comeBack =>
      rw [run_bind_of_ok (EStateM.run_get player), Machine.move, Machine.comeBack]
      match stack : player.machine.stack with
      | [] | .loop _ :: _ => rfl
      | .call returnTo :: outer =>
        simp only [Machine.goTo, apply_ite player.follow, run_checkTarget_bind]
        refine ite_congr rfl (fun inside => ?_) fun _ => rfl
        rw [pop, run_bind_of_ok (EStateM.run_modify _ player), run_jump, if_pos inside]
        simp only [stack, List.tail_cons]
        rfl
  | repeatOpen count exit =>
      by_cases none : count = 0
      · simp only [if_pos none, Machine.move]
        exact run_jump_eq player exit
      · simp only [if_neg none, Machine.move]
        rw [run_push_bind, Machine.enter, apply_ite player.follow]
        refine ite_congr rfl (fun _ => ?_) fun _ => rfl
        rw [advance, EStateM.run_modify, next]
        rfl
  | repeatClose body =>
      rw [run_checkTarget_bind, Machine.move, Machine.repeatClose, apply_ite player.follow]
      refine ite_congr rfl (fun inside => ?_) fun _ => rfl
      rw [run_bind_of_ok (EStateM.run_get player)]
      match stack : player.machine.stack with
      | [] | .call _ :: _ => rfl
      | .loop remaining :: outer =>
        by_cases last : remaining = 0
        · have noMore : ¬0 < remaining := by rw [last]; exact Nat.lt_irrefl 0
          simp only [if_pos last, if_neg noMore]
          rw [pop, run_bind_of_ok (EStateM.run_modify _ player), advance, EStateM.run_modify]
          simp only [stack, List.tail_cons, next]
          rfl
        · have more : 0 < remaining := UInt32.pos_iff_ne_zero.mpr last
          simp only [if_neg last, if_pos more]
          rw [replaceTop, run_bind_of_ok (EStateM.run_modify _ player), run_jump, if_pos inside]
          simp only [stack, List.tail_cons]
          rfl

-----------------------------------------------------------------------------------------
-- Attempts
-----------------------------------------------------------------------------------------

/-- What a fault leads to: it leaves all but the output and the last fault as it was. -/
def halt (machine : Machine) (program : Program) (sink : σ) (cause : FaultCause)
    : Player σ × Option Fault :=
  let fault : Fault := ⟨cause, program.cursor⟩
  (⟨{ machine with lastFault := some fault }, program, sink⟩, some fault)

/-- What a move leads to. -/
def moved (program : Program) (sink : σ) (move : Move) : Player σ × Option Fault :=
  (⟨move.machine, { program with cursor := move.cursor }, sink⟩, none)

section Attempts

variable {move : Move} {cause : FaultCause} {tone : Tone} {sink : σ}

theorem attempt_of_error (here : player.program.current? = some instruction)
    (moves
      : player.machine.move range player.program.size player.program.cursor instruction
        = .error cause)
    : player.attempt range instruction
      = halt player.machine player.program player.sink cause := by
  simp only [attempt, run_execute here, moves, follow]
  rfl

theorem attempt_of_silent (here : player.program.current? = some instruction)
    (moves
      : player.machine.move range player.program.size player.program.cursor instruction
        = .ok move)
    (silent : move.tone = none)
    : player.attempt range instruction = moved player.program player.sink move := by
  simp only [attempt, run_execute here, moves, follow, makeMove, silent]
  rfl

theorem attempt_of_taken (here : player.program.current? = some instruction)
    (moves
      : player.machine.move range player.program.size player.program.cursor instruction
        = .ok move)
    (asks : move.tone = some tone) (taken : ToneSink.emit player.sink tone = (sink, none))
    : player.attempt range instruction = moved player.program sink move := by
  simp only [attempt, run_execute here, moves, follow, makeMove, asks, taken]
  rfl

theorem attempt_of_refused {error : SinkError}
    (here : player.program.current? = some instruction)
    (moves
      : player.machine.move range player.program.size player.program.cursor instruction
        = .ok move)
    (asks : move.tone = some tone)
    (refused : ToneSink.emit player.sink tone = (sink, some error))
    : player.attempt range instruction
      = halt player.machine player.program sink (.refused error) := by
  simp only [attempt, run_execute here, moves, follow, makeMove, asks, refused]
  rfl

end Attempts

end Player

end Chiptune
