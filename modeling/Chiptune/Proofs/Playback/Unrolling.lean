import Chiptune.Output.Recorder
import Chiptune.Proofs.Playback.Moves
import Chiptune.Proofs.Playback.Rendition
import Chiptune.Proofs.Playback.Tap
import Chiptune.Proofs.Text.AsciiText
import Chiptune.Proofs.TwoPass.Image

/-! Songs without jumps are played as they are written. The machine finds its way through the code
of a score by the frames on its stack, and what it plays on the way is the rendition of the score.
-/

namespace Chiptune

open ToneSink (NeverRefuses after)

-----------------------------------------------------------------------------------------
-- Places in code
-----------------------------------------------------------------------------------------

/-- The instructions stand in the code from the index `start` on. -/
def Located (code : Array Instruction) (start : Nat) (segment : List Instruction) : Prop :=
  ∃ before later, code.toList = before ++ segment ++ later ∧ before.length = start

namespace Located

variable {code : Array Instruction} {start : Nat} {instruction : Instruction}
variable {first second : List Instruction}

theorem head (located : Located code start (instruction :: first))
    : code[start]? = some instruction := by
  obtain ⟨before, later, same, rfl⟩ := located
  rw [← Array.getElem?_toList, same]
  simp

theorem append (located : Located code start (first ++ second))
    : Located code start first ∧ Located code (start + first.length) second := by
  obtain ⟨before, later, same, rfl⟩ := located
  exact ⟨⟨before, second ++ later, by simp [same], rfl⟩,
    ⟨before ++ first, later, by simp [same], by simp⟩⟩

theorem tail (located : Located code start (instruction :: first))
    : Located code (start + 1) first := by
  have parts : Located code start ([instruction] ++ first) := located
  exact parts.append.2

end Located

-----------------------------------------------------------------------------------------
-- Parts of a playback
-----------------------------------------------------------------------------------------

/-- A reporter that counts how often it is told. -/
def countReports (reports _cursor _size : Nat) : Nat :=
  reports + 1

/-- Where a playback stands: its control stack and its cursor. -/
structure Place where
  stack : List Frame
  cursor : Nat

variable (range : ToneRange) (base : Machine) (code : Array Instruction)
variable (σ : Type) [ToneSink σ]

def Place.machine (place : Place) (tempo : UInt32) : Machine :=
  { base with tempo, stack := place.stack }

/-- A player that plays `code` and stands at a place. -/
def Place.player {σ : Type} (place : Place) (tempo : UInt32) (sink : σ) : Player σ :=
  ⟨place.machine base tempo, { code, cursor := place.cursor }, sink⟩

/-- Playing from one place at a tempo to another place, in a number of steps, sounds like a
rendition, and it is cut off by the same fault.
-/
structure Carries (here : Place) (tempo : UInt32) (rendition : Rendition) (steps : Nat)
    (there : Place)
    : Prop where
  completes (sink : σ) (steady : NeverRefuses sink) (reports : Nat)
    : rendition.fault = none
      → Player.Reaches range countReports (here.player base code tempo sink) reports
          (there.player base code rendition.tempo (after sink rendition.tones))
          (reports + steps)
  breaks (sink : σ) (steady : NeverRefuses sink) (reports : Nat) (fault : Fault)
    : rendition.fault = some fault
      → ∃ attempts run,
          Player.Plays range countReports attempts (here.player base code tempo sink) reports run
          ∧ run.outcome = some (.faulted fault)
          ∧ run.player.sink = after sink rendition.tones

namespace Carries

variable {range base code σ} {here middle there : Place} {tempo tempoAfter : UInt32}
variable {rendition : Rendition} {steps more : Nat} {instruction : Instruction}

/-- One part after another sounds like one rendition after another. -/
theorem andThen {next : UInt32 → Rendition}
    (first : Carries range base code σ here tempo rendition steps middle)
    (second : ∀ tempo, Carries range base code σ middle tempo (next tempo) more there)
    : Carries range base code σ here tempo (rendition.andThen next) (steps + more) there where
  completes sink steady reports complete := by
    cases broken : rendition.fault with
    | some fault =>
        rw [Rendition.andThen_of_fault_eq_some broken] at complete
        cases broken.symm.trans complete
    | none =>
        rw [Rendition.andThen_of_fault_eq_none broken] at complete ⊢
        have way := first.completes sink steady reports broken
        have rest := (second _).completes _ (steady.after rendition.tones) (reports + steps)
          complete
        rw [← ToneSink.after_append] at rest
        rw [← Nat.add_assoc]
        exact way.trans rest
  breaks sink steady reports fault raised := by
    cases broken : rendition.fault with
    | some earlier =>
        rw [Rendition.andThen_of_fault_eq_some broken] at raised ⊢
        exact first.breaks sink steady reports fault raised
    | none =>
        rw [Rendition.andThen_of_fault_eq_none broken] at raised ⊢
        have way := first.completes sink steady reports broken
        obtain ⟨attempts, run, rest, outcome, played⟩ :=
          (second _).breaks _ (steady.after rendition.tones) (reports + steps) fault raised
        obtain ⟨whole, plays⟩ := way.plays rest
        exact ⟨whole, run, plays, outcome, by rw [played, ToneSink.after_append]⟩

theorem stay (here : Place) (tempo : UInt32)
    : Carries range base code σ here tempo (.silent tempo) 0 here where
  completes _ _ _ _ := .refl _ _
  breaks _ _ _ _ raised := nomatch raised

theorem attempt?_player (located : code[here.cursor]? = some instruction) (sink : σ)
    : (here.player base code tempo sink).attempt? range
      = some ((here.player base code tempo sink).attempt range instruction) := by
  simp [Player.attempt?, Program.current?, Place.player, located]

/-- A move without a tone sounds like nothing. -/
theorem move (located : code[here.cursor]? = some instruction)
    (moves
      : (here.machine base tempo).move range code.size here.cursor instruction
        = .ok ⟨there.machine base tempoAfter, there.cursor, none⟩)
    : Carries range base code σ here tempo (.silent tempoAfter) 1 there where
  completes sink _ reports _ := by
    let player := here.player base code tempo sink
    have stands : player.program.current? = some instruction := located
    have movesPlayer
        : player.machine.move range player.program.size player.program.cursor instruction
          = .ok ⟨there.machine base tempoAfter, there.cursor, none⟩ := moves
    refine .step ?_ (.refl _ _)
    rw [attempt?_player located, Player.attempt_of_silent stands movesPlayer rfl]
    rfl
  breaks _ _ _ _ raised := nomatch raised

/-- A move with a tone sounds like the tone. -/
theorem tone (located : code[here.cursor]? = some instruction) {tone : Tone}
    (moves
      : (here.machine base tempo).move range code.size here.cursor instruction
        = .ok ⟨there.machine base tempo, there.cursor, some tone⟩)
    : Carries range base code σ here tempo ⟨[tone], tempo, none⟩ 1 there where
  completes sink steady reports _ := by
    let player := here.player base code tempo sink
    have stands : player.program.current? = some instruction := located
    have movesPlayer
        : player.machine.move range player.program.size player.program.cursor instruction
          = .ok ⟨there.machine base tempo, there.cursor, some tone⟩ := moves
    refine .step ?_ (.refl _ _)
    rw [attempt?_player located,
      Player.attempt_of_taken stands movesPlayer rfl (steady.emit tone)]
    rfl
  breaks _ _ _ _ raised := nomatch raised

/-- An instruction without a move cuts the rendition off. -/
theorem cutOff (located : code[here.cursor]? = some instruction) {cause : FaultCause}
    (moves
      : (here.machine base tempo).move range code.size here.cursor instruction = .error cause)
    : Carries range base code σ here tempo (.cutOff tempo cause here.cursor) steps there where
  completes _ _ _ complete := nomatch complete
  breaks sink _ reports fault raised := by
    obtain rfl := Option.some.inj raised
    let player := here.player base code tempo sink
    have stands : player.program.current? = some instruction := located
    have movesPlayer
        : player.machine.move range player.program.size player.program.cursor instruction
          = .error cause := moves
    have halts := Player.attempt_of_error stands movesPlayer
    exact ⟨1, _, .faulted ((attempt?_player located sink).trans (congrArg some halts)), rfl, rfl⟩

/-- A tone that has to be resolved sounds like its rendition, by cases on its duration. -/
theorem sound (located : code[here.cursor]? = some instruction) {hertz : UInt32}
    {length : Length}
    (moves
      : (here.machine base tempo).move range code.size here.cursor instruction
        = (here.machine base tempo).sound range hertz length (here.cursor + 1))
    : Carries range base code σ here tempo (.sound range here.cursor tempo hertz length) 1
        ⟨here.stack, here.cursor + 1⟩ := by
  have same : (here.machine base tempo).tempo = tempo := rfl
  simp only [Machine.sound, Machine.resolve, same] at moves
  unfold Rendition.sound
  cases duration : length.toMillis? tempo with
  | none =>
      simp only [duration] at moves ⊢
      exact cutOff located moves
  | some millis =>
      simp only [duration, ToneRange.acceptsDuration, decide_eq_true_eq] at moves ⊢
      split
      · next short =>
        rw [if_pos short] at moves
        exact tone located moves
      · next long =>
        rw [if_neg long] at moves
        exact cutOff located moves

theorem act {stack : List Frame} {start : Nat} {action : Action}
    (located : code[start]? = some action.instruction) (tempo : UInt32)
    : Carries range base code σ ⟨stack, start⟩ tempo (action.rendition range start tempo) 1
        ⟨stack, start + 1⟩ := by
  cases action with
  | note hertz length =>
      simp only [Action.rendition]
      split
      · next inRange =>
        refine sound located ?_
        simp [Action.instruction, Machine.move, ToneRange.acceptsFrequency, inRange]
      · next outside =>
        refine cutOff located ?_
        simp [Action.instruction, Machine.move, ToneRange.acceptsFrequency, outside]
  | rest length => exact sound located rfl
  | tempo beats => exact move located rfl
  | breakpoint => exact move located rfl

-----------------------------------------------------------------------------------------
-- Loops and scores
-----------------------------------------------------------------------------------------

/-- The rounds of a loop that is open sound like its body, once more than its frame says, by
induction on the rounds that remain.
-/
theorem rounds {stack : List Frame} {start size : Nat} {part : UInt32 → Rendition}
    (closing : code[start + size]? = some (.repeatClose start))
    (inside
      : ∀ remaining tempo,
          Carries range base code σ ⟨.loop remaining :: stack, start⟩ tempo (part tempo) steps
            ⟨.loop remaining :: stack, start + size⟩)
    (remaining : UInt32) (tempo : UInt32)
    : Carries range base code σ ⟨.loop remaining :: stack, start⟩ tempo
        (.times part (remaining.toNat + 1) tempo) ((remaining.toNat + 1) * (steps + 1))
        ⟨stack, start + size + 1⟩ := by
  have bounded : start ≤ code.size := by
    have inCode := (Array.getElem?_eq_some_iff.mp closing).1
    omega
  induction left : remaining.toNat generalizing remaining tempo with
  | zero =>
      obtain rfl : remaining = 0 := UInt32.toNat_inj.mp left
      -- The last closing drops the frame.
      have close (tempo : UInt32)
          : Carries range base code σ ⟨.loop 0 :: stack, start + size⟩ tempo (.silent tempo) 1
              ⟨stack, start + size + 1⟩ :=
        move closing (by simp [Machine.move, Machine.repeatClose, bounded, Place.machine])
      simpa [Rendition.times] using (inside 0 tempo).andThen close
  | succ count ih =>
      have more : remaining ≠ 0 := by
        rintro rfl
        cases left
      have fewer : (remaining - 1).toNat = count := by
        have next := toNat_sub_one more
        omega
      -- Every other closing counts the frame down and leads back to the start.
      have close (tempo : UInt32)
          : Carries range base code σ ⟨.loop remaining :: stack, start + size⟩ tempo
              (.silent tempo) 1 ⟨.loop (remaining - 1) :: stack, start⟩ :=
        move closing (by simp [Machine.move, Machine.repeatClose, bounded, Place.machine, more])
      have again (tempo : UInt32) := (close tempo).andThen fun tempo =>
        ih (remaining - 1) tempo fewer
      have total : (count + 1 + 1) * (steps + 1) = steps + (1 + (count + 1) * (steps + 1)) := by
        rw [Nat.succ_mul (count + 1)]
        omega
      rw [total]
      exact (inside remaining tempo).andThen again

/-- A loop sounds like its body, as often as its opening says. -/
theorem loop {stack : List Frame} {start size : Nat} {count : UInt32}
    {part : UInt32 → Rendition}
    (opening : code[start]? = some (.repeatOpen count (start + size + 2)))
    (closing : code[start + 1 + size]? = some (.repeatClose (start + 1)))
    (inside
      : ∀ remaining tempo,
          Carries range base code σ ⟨.loop remaining :: stack, start + 1⟩ tempo (part tempo)
            steps ⟨.loop remaining :: stack, start + 1 + size⟩)
    (tempo : UInt32)
    : Carries range base code σ ⟨stack, start⟩ tempo
        (if count = 0 then .silent tempo
        else if stack.length < base.maxDepth then .times part count.toNat tempo
        else .cutOff tempo (.stackFull base.maxDepth) start)
        (1 + count.toNat * (steps + 1)) ⟨stack, start + size + 2⟩ := by
  have bounded := (Array.getElem?_eq_some_iff.mp closing).1
  split
  · next none =>
    subst none
    have inCode : start + size + 2 ≤ code.size := by omega
    have leave
        : Carries range base code σ ⟨stack, start⟩ tempo (.silent tempo) 1
            ⟨stack, start + size + 2⟩ :=
      move opening (by simp [Machine.move, Machine.goTo, inCode]; rfl)
    simpa using leave
  · next some =>
    split
    · next room =>
      have enter
          : Carries range base code σ ⟨stack, start⟩ tempo (.silent tempo) 1
              ⟨.loop (count - 1) :: stack, start + 1⟩ :=
        move opening (by simp [Machine.move, Machine.enter, some, Place.machine, room])
      have played := enter.andThen fun tempo => rounds closing inside (count - 1) tempo
      have ending : start + 1 + size + 1 = start + size + 2 := by omega
      rw [toNat_sub_one some, ending] at played
      exact played
    · next full =>
      exact cutOff opening
        (by simp [Machine.move, Machine.enter, some, Place.machine, full])

end Carries

/-- Code that is located is played like its score, by induction on the score. -/
theorem Score.carries {start : Nat} (score : Score)
    (located : Located code start (score.code start)) (stack : List Frame) (tempo : UInt32)
    : Carries range base code σ ⟨stack, start⟩ tempo
        (score.rendition range base.maxDepth start stack.length tempo) score.steps
        ⟨stack, start + score.size⟩ := by
  induction score generalizing start stack tempo with
  | nil => exact .stay ⟨stack, start⟩ tempo
  | act action next ih =>
      have rest (tempo : UInt32) := ih located.tail stack tempo
      have first
          : Carries range base code σ ⟨stack, start⟩ tempo (action.rendition range start tempo) 1
              ⟨stack, start + 1⟩ :=
        .act located.head tempo
      have whole := first.andThen rest
      simpa [Score.rendition, Score.steps, Score.size, Nat.add_assoc, Nat.add_comm 1] using whole
  | loop count body next bodyIH nextIH =>
      obtain ⟨bodyLocated, restLocated⟩ := located.tail.append
      rw [length_code] at restLocated
      let part (tempo : UInt32) :=
        body.rendition range base.maxDepth (start + 1) (stack.length + 1) tempo
      have inside (remaining tempo : UInt32)
          : Carries range base code σ ⟨.loop remaining :: stack, start + 1⟩ tempo (part tempo)
              body.steps ⟨.loop remaining :: stack, start + 1 + body.size⟩ :=
        bodyIH bodyLocated (.loop remaining :: stack) tempo
      have played := Carries.loop located.head restLocated.head inside tempo
      have nextLocated := restLocated.tail
      have sameStart : start + 1 + body.size + 1 = start + body.size + 2 := by omega
      rw [sameStart] at nextLocated
      have rest (tempo : UInt32) := nextIH nextLocated stack tempo
      have whole := played.andThen rest
      simpa [Score.rendition, Score.steps, Score.size, Nat.add_assoc] using whole

-----------------------------------------------------------------------------------------
-- Whole songs
-----------------------------------------------------------------------------------------

open Player (Plays)

variable {σ}

/-- The playback of a score from its start to its end or to the fault that cuts it off. -/
theorem Score.plays (score : Score) (located : code.toList = score.code 0) (sink : σ)
    (steady : NeverRefuses sink) (tempo : UInt32) (maxDepth : Nat)
    : let rendition := score.rendition range maxDepth 0 0 tempo
      let machine := Machine.new tempo maxDepth
      ∃ attempts run,
        Plays range countReports attempts ⟨machine, { code }, sink⟩ 0 run
        ∧ run.player.sink = after sink rendition.tones
        ∧ run.outcome = some rendition.outcome
        ∧ (rendition.fault = none
          → run.player.machine = { machine with tempo := rendition.tempo }
            ∧ run.player.program = { code, cursor := code.size }
            ∧ run.report = score.steps) := by
  intro rendition machine
  have carries
      : Carries range machine code σ ⟨[], 0⟩ tempo rendition score.steps ⟨[], 0 + score.size⟩ :=
    Score.carries range machine code σ score ⟨[], [], by simp [located], rfl⟩ [] tempo
  have size : 0 + score.size = code.size := by
    rw [Nat.zero_add, ← length_code 0 score, ← located, Array.length_toList]
  cases broken : rendition.fault with
  | none =>
      have way := carries.completes sink steady 0 broken
      have finished
          : (Place.player machine code ⟨[], 0 + score.size⟩ rendition.tempo
              (after sink rendition.tones)).attempt? range = none := by
        simp [Player.attempt?, Program.current?, Place.player, size]
      obtain ⟨attempts, plays⟩ := way.plays (.ended finished)
      have ending : rendition.outcome = .ended := by rw [Rendition.outcome, broken]
      refine ⟨attempts, _, plays, rfl, by rw [ending], fun _ => ⟨rfl, ?_, Nat.zero_add _⟩⟩
      simp [Place.player, size]
  | some fault =>
      obtain ⟨attempts, run, plays, outcome, played⟩ := carries.breaks sink steady 0 fault broken
      have ending : rendition.outcome = .faulted fault := by rw [Rendition.outcome, broken]
      refine ⟨attempts, run, plays, played, by rw [outcome, ending], fun complete => ?_⟩
      cases complete

/-- A compiled song without jumps, calls and returns has one score, and playing the song from its
start is performing the score: the output is asked for the tones of the rendition, up to the
first tone that is out of range and the first loop too many. If there is neither, the song ends
with the tempo that was set last and with as many reports as the score has steps.
-/
theorem Program.run_eq_rendition {source : List UInt8} {program : Program}
    (compiled : compile source = .ok program)
    (stays : ∀ instruction ∈ program.code.toList, instruction.transfers = false)
    : ∃ score : Score,
        score.code 0 = program.code.toList
        ∧ (∀ other : Score, other.code 0 = program.code.toList → other = score)
        ∧ ∀ (σ : Type) [ToneSink σ] (sink : σ), NeverRefuses sink
          → ∀ (tempo : UInt32) (maxDepth : Nat),
            let rendition := score.rendition (ToneSink.range sink) maxDepth 0 0 tempo
            let machine := Machine.new tempo maxDepth
            let player : Player σ := ⟨machine, program, sink⟩
            ∃ final : Run (Tap σ) Nat,
              (∃ enough, ∀ budget, enough ≤ budget
                → player.tapped.run .continuous countReports 0 budget = final
                  ∧ player.run .continuous countReports 0 budget = final.viewed Tap.sink)
              ∧ final.player.sink.requests = rendition.tones
              ∧ final.outcome = some rendition.outcome
              ∧ (rendition.fault = none
                → final.player.machine = { machine with tempo := rendition.tempo }
                  ∧ final.player.program = { program with cursor := program.size }
                  ∧ final.report = score.steps)
              ∧ ∀ fault, rendition.fault = some fault
                → fault.cause.kind = .outOfRangeTone ∨ fault.cause.kind = .stackOverflow := by
  obtain ⟨score, code⟩ := Score.exists_of_nested (wellFormed_of_compile compiled).nested stays
  refine ⟨score, code, fun other same => Score.code_injective (same.trans code.symm), ?_⟩
  intro σ _ sink steady tempo maxDepth rendition machine player
  have start : program = { code := program.code } := by
    rw [← cursor_of_compile compiled]
  obtain ⟨attempts, final, plays, played, outcome, complete⟩ :=
    score.plays (ToneSink.range sink) program.code code.symm (⟨sink, []⟩ : Tap σ)
      (steady.tap []) tempo maxDepth
  rw [← start] at plays
  have whole (budget : Nat) (enough : attempts ≤ budget)
      : player.tapped.run .continuous countReports 0 budget = final :=
    plays.runWithin_continuous enough
  refine ⟨final, ⟨attempts, fun budget enough => ⟨whole budget enough, ?_⟩⟩, ?_, outcome,
    complete, score.rendition_fault _ maxDepth 0 0 tempo⟩
  · rw [← whole budget enough]
    exact Player.run_viewed Tap.isView_sink player.tapped .continuous countReports 0 budget
  · rw [played, ToneSink.after_tap]
    rfl

/-- Two rounds of a loop on a recorder, of which the second one is as fast as the first one sets
the tempo.
-/
theorem Program.run_eq_rendition_loop
    : let source := Ascii.encode "REPEAT 2\nA4 Q\nTEMPO 60\nEND".toList
      let program : Program :=
        { code := #[.repeatOpen 2 4, .note 440 (.ticks 960), .tempo 60, .repeatClose 1] }
      let player : Player Recorder := ⟨.new 120 1, program, {}⟩
      compile source = .ok program
      ∧ (∀ instruction ∈ program.code.toList, instruction.transfers = false)
      ∧ ∃ enough, ∀ budget, enough ≤ budget
        → (player.tapped.run .continuous countReports 0 budget).player.sink.requests
            = [⟨440, 500⟩, ⟨440, 1000⟩]
          ∧ (player.tapped.run .continuous countReports 0 budget).report = 7 := by
  have compiled : compile (Ascii.encode "REPEAT 2\nA4 Q\nTEMPO 60\nEND".toList)
      = .ok { code := #[.repeatOpen 2 4, .note 440 (.ticks 960), .tempo 60, .repeatClose 1] } := by
    decide +kernel
  have stays : ∀ instruction ∈ #[Instruction.repeatOpen 2 4, .note 440 (.ticks 960), .tempo 60,
      .repeatClose 1].toList, instruction.transfers = false := by
    decide
  obtain ⟨score, -, only, plays⟩ := run_eq_rendition compiled stays
  obtain rfl := only (.loop 2 (.act (.note 440 (.ticks 960)) (.act (.tempo 60) .nil)) .nil) rfl
  obtain ⟨final, ⟨enough, whole⟩, requests, -, complete, -⟩ :=
    plays Recorder {} (Recorder.neverRefuses rfl) 120 1
  refine ⟨compiled, stays, enough, fun budget more => ?_⟩
  rw [(whole budget more).1]
  exact ⟨requests, (complete rfl).2.2⟩

end Chiptune
