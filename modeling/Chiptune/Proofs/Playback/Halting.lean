import Chiptune.Output.Recorder
import Chiptune.Proofs.Playback.Moves
import Chiptune.Proofs.Playback.Resuming
import Chiptune.Proofs.Text.AsciiText
import Chiptune.Proofs.TwoPass.Image
import Mathlib.Algebra.Group.Nat.Defs

/-! Compiled songs without jumps end. The cursor may move backwards, in a call or at the end of a
loop, but then a frame is put on the control stack or a loop is counted down. So the places that
the frames lead back to only move forward, and a loop is closed by no other closing than its own.
-/

namespace Chiptune

-----------------------------------------------------------------------------------------
-- Places in loops
-----------------------------------------------------------------------------------------

/-- The instruction at `place` lies in the loop whose body starts at `body` and whose closing is at
`closing`, and in no loop within that one.
-/
def InLoop (code : List Instruction) (body closing place : Nat) : Prop :=
  ∃ inside rest,
    code.drop place = inside ++ .repeatClose body :: rest
    ∧ Nested place inside
    ∧ place + inside.length = closing

/-- The place after an instruction and, if that opens a loop, after its closing. -/
def Instruction.after (place : Nat) : Instruction → Nat
  | .repeatOpen _ exit => exit
  | _ => place + 1

/-- An opening in nested code leads into its own loop, by induction on the nesting. -/
theorem Nested.exists_loop {start : Nat} {code : List Instruction} (nested : Nested start code)
    {index : Nat} {count : UInt32} {exit : Nat}
    (here : code[index]? = some (.repeatOpen count exit))
    : ∃ inside rest,
        code.drop (index + 1) = inside ++ .repeatClose (start + index + 1) :: rest
        ∧ Nested (start + index + 1) inside
        ∧ exit = start + index + inside.length + 2 := by
  induction nested generalizing index with
  | nil => cases here
  | @plain start instruction rest simple _ ih =>
      cases index with
      | zero =>
          cases here
          cases simple
      | succ index =>
          have loop := ih here
          rw [Nat.add_right_comm start 1 index] at loop
          exact loop
  | @loop start body rest count inside tail insideIH tailIH =>
      cases index with
      | zero =>
          cases here
          exact ⟨body, rest, rfl, inside, rfl⟩
      | succ index =>
          rw [List.getElem?_cons_succ] at here
          rw [List.drop_succ_cons]
          -- The opening is in the body of this loop, or is taken for its closing, or comes later.
          rcases Nat.lt_trichotomy index body.length with before | rfl | behind
          · rw [List.getElem?_append_left before] at here
            have loop := insideIH here
            rw [show start + 1 + index = start + (index + 1) by omega] at loop
            obtain ⟨within, later, split, nested, leads⟩ := loop
            refine ⟨within, later ++ .repeatClose (start + 1) :: rest, ?_, nested, leads⟩
            rw [List.drop_append_of_le_length before, split]
            simp
          · rw [List.getElem?_append_right (Nat.le_refl _), Nat.sub_self] at here
            cases here
          · obtain ⟨offset, rfl⟩ := Nat.exists_eq_add_of_lt behind
            have skipped : body.length + offset + 1 = body.length + (offset + 1) := rfl
            rw [skipped, List.getElem?_append_right (Nat.le_add_right _ _),
              Nat.add_sub_cancel_left, List.getElem?_cons_succ] at here
            have loop := tailIH here
            rw [show start + body.length + 2 + offset = start + (body.length + offset + 1 + 1) by
              omega] at loop
            have dropped
                : (body ++ .repeatClose (start + 1) :: rest).drop (body.length + offset + 1 + 1)
                  = rest.drop (offset + 1) := by
              rw [Nat.add_assoc, Nat.add_assoc, List.drop_length_add_append]
              rfl
            rw [dropped]
            exact loop

/-- The loop of an opening, as seen from its body. -/
theorem Nested.inLoop {code : List Instruction} (nested : Nested 0 code) {place : Nat}
    {count : UInt32} {exit : Nat} (here : code[place]? = some (.repeatOpen count exit))
    : ∃ closing,
        exit = closing + 1 ∧ place < closing ∧ InLoop code (place + 1) closing (place + 1) := by
  obtain ⟨inside, rest, split, nestedInside, leads⟩ := nested.exists_loop here
  rw [Nat.zero_add] at split nestedInside leads
  refine ⟨place + 1 + inside.length, ?_, ?_, inside, rest, split, nestedInside, rfl⟩ <;> omega

namespace InLoop

variable {code : List Instruction} {body closing place : Nat} {instruction : Instruction}

/-- Only its own closing closes a loop. -/
theorem closes {other : Nat} (within : InLoop code body closing place)
    (here : code[place]? = some (.repeatClose other))
    : place = closing ∧ other = body := by
  obtain ⟨inside, rest, split, nested, rfl⟩ := within
  rw [← List.head?_drop, split] at here
  cases nested with
  | nil => cases here; exact ⟨rfl, rfl⟩
  | plain simple => cases here; cases simple
  | loop => cases here

/-- After every other instruction than the closing, the next one lies in the same loop. -/
theorem next (within : InLoop code body closing place) (here : code[place]? = some instruction)
    (goesOn : ∀ body, instruction ≠ .repeatClose body)
    : InLoop code body closing (instruction.after place) := by
  obtain ⟨inside, rest, split, nested, rfl⟩ := within
  rw [← List.head?_drop, split] at here
  cases nested with
  | nil =>
      cases here
      exact absurd rfl (goesOn body)
  | @plain _ _ later simple tail =>
      cases here
      have moves : instruction.after place = place + 1 := by
        cases instruction with
        | repeatOpen => cases simple
        | _ => rfl
      rw [moves]
      refine ⟨later, rest, ?_, tail, by simp [Nat.add_comm, Nat.add_left_comm]⟩
      rw [← List.drop_drop, split]
      rfl
  | @loop _ inner later count _ tail =>
      cases here
      refine ⟨later, rest, ?_, tail, ?_⟩
      · rw [Instruction.after, Nat.add_assoc, ← List.drop_drop, split]
        simp
      · simp [Instruction.after]
        omega

end InLoop

/-- In nested code an instruction that does not close a loop leads on. -/
theorem Nested.lt_after {code : List Instruction} (nested : Nested 0 code) {place : Nat}
    {instruction : Instruction} (here : code[place]? = some instruction)
    : place < instruction.after place := by
  cases instruction with
  | repeatOpen count exit =>
      obtain ⟨closing, rfl, later, -⟩ := nested.inLoop here
      exact Nat.lt_succ_of_lt later
  | _ => exact Nat.lt_succ_self place

-----------------------------------------------------------------------------------------
-- Layers of a playback
-----------------------------------------------------------------------------------------

/-- A layer of a playback: its place, and how often the loop that it is in is played again. -/
structure Layer where
  rounds : Nat
  place : Nat

/-- A playback stands at `place` with a control stack. The song has a layer, and so has every frame,
the innermost first. The place of an outer layer is the one that the frame within leads back to.
-/
inductive Stands (code : List Instruction) : List Frame → Nat → List Layer → Prop
  | song (place : Nat) : Stands code [] place [⟨0, place⟩]
  | call {returnTo stack layers} (place : Nat) (outer : Stands code stack returnTo layers)
    : Stands code (.call returnTo :: stack) place (⟨0, place⟩ :: layers)
  | loop {remaining stack layers body closing place} (whole : InLoop code body closing body)
    (rest : InLoop code body closing place) (outer : Stands code stack (closing + 1) layers)
    : Stands code (.loop remaining :: stack) place (⟨remaining.toNat, place⟩ :: layers)

namespace Layer

/-- The digit of a layer is lowered by every step forward and by every round of its loop. -/
def digit (size : Nat) (layer : Layer) : Nat :=
  layer.rounds * (size + 1) + (size - layer.place) + 1

/-- A number that is greater than every digit. -/
def radix (size : Nat) : Nat :=
  UInt32.size * (size + 1) + 1

/-- The layers as one number, with the greatest weight on the outermost one. -/
def rank (size depth : Nat) : List Layer → Nat
  | [] => 0
  | layer :: outer =>
    layer.digit size * radix size ^ (depth - outer.length) + rank size depth outer

variable {size depth rounds place body : Nat} {layer later inner : Layer} {outer : List Layer}

theorem digit_lt_of_place (inside : place < size) (forward : place < body)
    : digit size ⟨rounds, body⟩ < digit size ⟨rounds, place⟩ := by
  simp only [digit]
  omega

theorem digit_lt_of_rounds : digit size ⟨rounds, body⟩ < digit size ⟨rounds + 1, place⟩ := by
  simp only [digit, Nat.succ_mul]
  omega

theorem digit_lt_radix (bounded : layer.rounds < UInt32.size)
    : layer.digit size < radix size := by
  have rounds : (layer.rounds + 1) * (size + 1) ≤ UInt32.size * (size + 1) :=
    Nat.mul_le_mul_right (size + 1) bounded
  rw [Nat.succ_mul] at rounds
  exact Nat.succ_lt_succ (by omega)

theorem weight_pos (exponent : Nat) : 0 < radix size ^ exponent :=
  Nat.pow_pos (Nat.succ_pos _)

theorem rank_advance (lower : later.digit size < layer.digit size)
    : rank size depth (later :: outer) < rank size depth (layer :: outer) :=
  Nat.add_lt_add_right (Nat.mul_lt_mul_of_pos_right lower (weight_pos _)) _

theorem rank_pop : rank size depth outer < rank size depth (layer :: outer) :=
  Nat.lt_add_of_pos_left (Nat.mul_pos (Nat.succ_pos _) (weight_pos _))

/-- A new layer is worth less than what the layer under it loses. -/
theorem rank_push (bounded : inner.rounds < UInt32.size)
    (lower : later.digit size < layer.digit size) (room : outer.length < depth)
    : rank size depth (inner :: later :: outer) < rank size depth (layer :: outer) := by
  obtain ⟨free, rfl⟩ := Nat.exists_eq_add_of_lt room
  have new : outer.length + free + 1 - (later :: outer).length = free := by
    rw [List.length_cons]
    omega
  have old : outer.length + free + 1 - outer.length = free + 1 := by omega
  rw [rank, rank, rank, new, old, ← Nat.add_assoc]
  refine Nat.add_lt_add_right ?_ _
  calc inner.digit size * radix size ^ free + later.digit size * radix size ^ (free + 1)
    _ < radix size * radix size ^ free + later.digit size * radix size ^ (free + 1) :=
        Nat.add_lt_add_right
          (Nat.mul_lt_mul_of_pos_right (digit_lt_radix bounded) (weight_pos free)) _
    _ = (later.digit size + 1) * radix size ^ (free + 1) := by
        rw [← Nat.pow_succ', Nat.succ_mul, Nat.add_comm]
    _ ≤ layer.digit size * radix size ^ (free + 1) := Nat.mul_le_mul_right _ lower

theorem rank_singleton_le (size depth place : Nat)
    : rank size depth [⟨0, place⟩] ≤ (size + 1) * (UInt32.size * (size + 1) + 1) ^ depth := by
  rw [rank, rank, List.length_nil, Nat.add_zero, Nat.sub_zero, digit, radix, Nat.zero_mul]
  exact Nat.mul_le_mul_right _ (by omega)

end Layer

namespace Stands

variable {code : List Instruction} {stack : List Frame} {place : Nat} {layers : List Layer}

theorem length_eq (stands : Stands code stack place layers)
    : layers.length = stack.length + 1 := by
  induction stands with
  | song => rfl
  | call _ _ ih => exact congrArg Nat.succ ih
  | loop _ _ _ ih => exact congrArg Nat.succ ih

theorem rank_pos {size depth : Nat} (stands : Stands code stack place layers)
    : 0 < Layer.rank size depth layers := by
  cases stands <;> exact Nat.zero_lt_of_lt Layer.rank_pop

/-- An instruction that does not close a loop moves the innermost layer forward. -/
theorem exists_next {instruction : Instruction} (stands : Stands code stack place layers)
    (here : code[place]? = some instruction) (goesOn : ∀ body, instruction ≠ .repeatClose body)
    : ∃ rounds outer,
        layers = ⟨rounds, place⟩ :: outer
        ∧ outer.length = stack.length
        ∧ Stands code stack (instruction.after place)
            (⟨rounds, instruction.after place⟩ :: outer) := by
  have length := stands.length_eq
  cases stands with
  | song => exact ⟨0, [], rfl, rfl, .song _⟩
  | @call _ _ outer _ under => exact ⟨0, outer, rfl, Nat.succ.inj length, .call _ under⟩
  | @loop remaining _ outer _ _ _ whole rest under =>
      exact ⟨remaining.toNat, outer, rfl, Nat.succ.inj length,
        .loop whole (rest.next here goesOn) under⟩

end Stands

-----------------------------------------------------------------------------------------
-- Descent
-----------------------------------------------------------------------------------------

namespace Machine

variable {machine : Machine} {range : ToneRange} {size cursor : Nat} {move : Move}
variable {instruction : Instruction}

/-- Every move in nested code without jumps lowers the rank, by cases on the move. A step forward
lowers a digit. A call or an entered loop adds a layer over one that has moved forward. The end of
a call or loop removes a layer. Another round starts at the body again, but it is one of fewer.
-/
theorem Moves.descends {code : List Instruction} {layers : List Layer}
    (moves : machine.Moves range code.length cursor instruction move)
    (nested : Nested 0 code) (here : code[cursor]? = some instruction)
    (noJump : ∀ target, instruction ≠ .jump target)
    (stands : Stands code machine.stack cursor layers)
    : ∃ later,
        Stands code move.machine.stack move.cursor later
        ∧ Layer.rank code.length machine.maxDepth later
          < Layer.rank code.length machine.maxDepth layers := by
  obtain ⟨inside, -⟩ := List.getElem?_eq_some_iff.mp here
  have lower (rounds : Nat)
      : Layer.digit code.length ⟨rounds, instruction.after cursor⟩
        < Layer.digit code.length ⟨rounds, cursor⟩ :=
    Layer.digit_lt_of_place inside (nested.lt_after here)
  cases moves with
  | note | rest | tempo | breakpoint | skip =>
      obtain ⟨rounds, outer, rfl, -, next⟩ := stands.exists_next here nofun
      exact ⟨_, next, Layer.rank_advance (lower rounds)⟩
  | jump => exact absurd rfl (noJump _)
  | @call target _ room =>
      obtain ⟨rounds, outer, rfl, length, next⟩ := stands.exists_next here nofun
      rw [← length] at room
      exact ⟨_, .call target next, Layer.rank_push (Nat.succ_pos _) (lower rounds) room⟩
  | @enter count _ _ room =>
      obtain ⟨rounds, outer, rfl, length, next⟩ := stands.exists_next here nofun
      obtain ⟨closing, rfl, -, whole⟩ := nested.inLoop here
      rw [← length] at room
      exact ⟨_, .loop whole whole next,
        Layer.rank_push (count - 1).toNat_lt_size (lower rounds) room⟩
  | comeBack pending =>
      rw [pending] at stands
      cases stands with
      | call _ under => exact ⟨_, under, Layer.rank_pop⟩
  | again _ opened more =>
      rw [opened] at stands
      cases stands with
      | loop whole rest under =>
          obtain ⟨rfl, rfl⟩ := rest.closes here
          refine ⟨_, .loop whole whole under, Layer.rank_advance ?_⟩
          rw [← toNat_sub_one more]
          exact Layer.digit_lt_of_rounds
  | leave _ opened =>
      rw [opened] at stands
      cases stands with
      | loop whole rest under =>
          obtain ⟨rfl, rfl⟩ := rest.closes here
          exact ⟨_, under, Layer.rank_pop⟩

theorem Moves.maxDepth_eq (moves : machine.Moves range size cursor instruction move)
    : move.machine.maxDepth = machine.maxDepth := by
  cases moves <;> rfl

end Machine

namespace Player

variable [ToneSink σ] {range : ToneRange} {reporter : ρ → Nat → Nat → ρ}
variable {player next : Player σ} {instruction : Instruction} {move : Move}

theorem Performs.descends {layers : List Layer}
    (performs : player.Performs range instruction move next)
    (nested : Nested 0 player.program.code.toList)
    (noJump : ∀ target, .jump target ∉ player.program.code)
    (stands
      : Stands player.program.code.toList player.machine.stack player.program.cursor layers)
    : ∃ later,
        Stands next.program.code.toList next.machine.stack next.program.cursor later
        ∧ Layer.rank next.program.size next.machine.maxDepth later
          < Layer.rank player.program.size player.machine.maxDepth layers := by
  obtain ⟨-, member⟩ := Program.mem_of_current? performs.here
  have here : player.program.code.toList[player.program.cursor]? = some instruction := by
    rw [Array.getElem?_toList]
    exact performs.here
  obtain ⟨later, standing, lower⟩ := performs.moves.descends nested here
    (fun target same => noJump target (same ▸ Array.mem_toList_iff.mp member)) stands
  rw [performs.machine, performs.program, performs.moves.maxDepth_eq]
  exact ⟨later, standing, lower⟩

/-- In nested code without jumps every player plays to an end, by induction on the rank. -/
theorem exists_plays_of_stands (nested : Nested 0 player.program.code.toList)
    (noJump : ∀ target, .jump target ∉ player.program.code) {layers : List Layer}
    (stands
      : Stands player.program.code.toList player.machine.stack player.program.cursor layers)
    (report : ρ)
    : ∃ attempts final,
        attempts ≤ Layer.rank player.program.size player.machine.maxDepth layers
        ∧ Plays range reporter attempts player report final := by
  induction bound : Layer.rank player.program.size player.machine.maxDepth layers
    using Nat.strongRecOn generalizing player layers report with
  | ind bound ih =>
  subst bound
  -- Each attempt that succeeds spends at least one of what the rank allows.
  match answer : player.attempt? range with
  | none => exact ⟨0, _, Nat.zero_le _, .ended answer⟩
  | some (stopped, some fault) => exact ⟨1, _, stands.rank_pos, .faulted answer⟩
  | some (later, none) =>
    obtain ⟨instruction, move, performs⟩ := performs_of_attempt? answer
    obtain ⟨layers, standing, lower⟩ := performs.descends nested noJump stands
    have sameCode : later.program.code = player.program.code := by rw [performs.program]
    obtain ⟨attempts, final, bounded, rest⟩ :=
      ih _ lower (sameCode ▸ nested) (sameCode ▸ noJump) standing
        (reporter report later.program.cursor later.program.size) rfl
    exact ⟨attempts + 1, final, Nat.lt_of_le_of_lt bounded lower, .step answer rest⟩

end Player

/-- A compiled song without jumps plays to its end or to a fault, wherever it starts with no frames
on the stack, on every output. The attempts that it takes are bounded by the size of the song and
the depth of the stack, whatever is called on the way.
-/
theorem Program.halts {source : List UInt8} {program : Program}
    (compiled : compile source = .ok program) (noJump : ∀ target, .jump target ∉ program.code)
    {machine : Machine} (idle : machine.stack = []) (cursor : Nat) [ToneSink σ] (sink : σ)
    (reporter : ρ → Nat → Nat → ρ) (report : ρ)
    : let player : Player σ := ⟨machine, { program with cursor }, sink⟩
      let bound :=
        (program.size + 1) * (UInt32.size * (program.size + 1) + 1) ^ machine.maxDepth
      ∃ attempts final,
        attempts ≤ bound
        ∧ Player.Plays (ToneSink.range sink) reporter attempts player report final
        ∧ (∀ budget, attempts ≤ budget
          → player.run .continuous reporter report budget = final)
        ∧ (final.outcome = some .ended ∨ ∃ fault, final.outcome = some (.faulted fault)) := by
  intro player bound
  have nested : Nested 0 player.program.code.toList := (wellFormed_of_compile compiled).nested
  have stands
      : Stands player.program.code.toList player.machine.stack player.program.cursor
          [⟨0, cursor⟩] := by
    rw [show player.machine.stack = [] from idle]
    exact .song cursor
  obtain ⟨attempts, final, bounded, plays⟩ :=
    player.exists_plays_of_stands nested noJump stands report
  exact ⟨attempts, final, Nat.le_trans bounded (Layer.rank_singleton_le _ _ cursor), plays,
    fun budget enough => plays.runWithin_continuous enough, Run.isOver_iff.mp plays.isOver⟩

/-- A song that calls itself from its loop until the stack is full. -/
theorem Program.halts_recursion
    : let source := Ascii.encode "LABEL a\nREPEAT 2\nA4 5ms\nCALL a\nEND".toList
      let program : Program :=
        { code := #[.repeatOpen 2 4, .note 440 (.millis 5), .call 0, .repeatClose 1] }
      let player : Player Recorder := ⟨.new 120 4, { program with cursor := 1 }, {}⟩
      compile source = .ok program
      ∧ (∀ target, .jump target ∉ program.code)
      ∧ (player.play .continuous 30).outcome = some (.faulted ⟨.stackFull 4, 2⟩)
      ∧ ∃ attempts final,
          attempts ≤ 5 * (UInt32.size * 5 + 1) ^ 4
          ∧ Player.Plays .pcSpeaker (fun _ _ _ => ()) attempts player () final := by
  intro source program player
  have compiled : compile source = .ok program := by decide +kernel
  have noJump : ∀ target, .jump target ∉ program.code := by simp [program]
  obtain ⟨attempts, final, bounded, plays, -, -⟩ :=
    halts compiled noJump (rfl : (Machine.new 120 4).stack = []) 1 ({} : Recorder)
      (fun _ _ _ => ()) ()
  exact ⟨compiled, noJump, by decide +kernel, attempts, final, bounded, plays⟩

end Chiptune
