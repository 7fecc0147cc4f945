import Chiptune.Output.Recorder
import Chiptune.Proofs.Playback.Sessions

/-! Frames of the control stack. An instruction touches the innermost frame alone, so the frames
below an open call or loop stay as they are until the call returns or the loop is left. A call
returns to where it was made, and a loop is closed as often as it was to be played.
-/

namespace Chiptune

/-- An instruction that was executed, by the sessions before and after it. -/
structure Execution where
  before : Session
  after : Session
deriving DecidableEq

namespace Execution

def instruction? (execution : Execution) : Option Instruction :=
  execution.before.program.current?

/-- Whether the end of a loop is executed while the stack holds `depth` frames. -/
def closesAt (depth : Nat) (execution : Execution) : Bool :=
  match execution.instruction? with
  | some (.repeatClose _) => execution.before.machine.stack.length = depth
  | _ => false

end Execution

namespace Player

variable [ToneSink σ]

/-- The instructions that a run executes, of which there are at most `budget`. -/
def executions (range : ToneRange) (mode : Mode) : (budget : Nat) → Player σ → List Execution
  | 0, _ => []
  | budget + 1, player =>
    match player.attempt? range with
    | some (next, none) =>
      ⟨player.session, next.session⟩
        :: if next.suspends mode then [] else executions range mode budget next
    | _ => []

/-- The instructions that an operation executes. -/
def executed (player : Player σ) : Operation → List Execution
  | .run mode budget => executions (ToneSink.range player.sink) mode budget player
  | _ => []

end Player

/-- Whether an action empties the control stack. -/
def Session.Action.resets : Session.Action → Bool
  | @Session.Action.operate _ _ _ operation => operation = .reset
  | .load _ => false

namespace Session

/-- The instructions that an action executes. -/
def executed (session : Session) : Action → List Execution
  | @Action.operate _ _ sink operation => (session.on sink).executed operation
  | .load _ => []

/-- The instructions that actions execute one after another. -/
def executions (session : Session) : List Action → List Execution
  | [] => []
  | action :: later => session.executed action ++ (session.perform action).executions later

end Session

-----------------------------------------------------------------------------------------
-- Executions one after another
-----------------------------------------------------------------------------------------

/-- An execution makes a move of the instruction under the cursor. -/
structure Execution.Makes (execution : Execution) (range : ToneRange) (instruction : Instruction)
    (move : Move)
    : Prop where
  here : execution.instruction? = some instruction
  moves
    : execution.before.machine.Moves range execution.before.program.size
        execution.before.program.cursor instruction move
  machine : execution.after.machine = move.machine
  cursor : execution.after.program.cursor = move.cursor

/-- Executions lead from one control stack to another. -/
inductive Leads : List Frame → List Execution → List Frame → Prop
  | nil (stack) : Leads stack [] stack
  | cons {execution later last range instruction move}
    (makes : execution.Makes range instruction move)
    (rest : Leads execution.after.machine.stack later last)
    : Leads execution.before.machine.stack (execution :: later) last

namespace Leads

variable {stack middle last : List Frame} {first second : List Execution}

theorem append (leads : Leads stack first middle) (rest : Leads middle second last)
    : Leads stack (first ++ second) last := by
  induction leads with
  | nil => exact rest
  | cons makes _ ih => exact .cons makes (ih rest)

theorem of_append (leads : Leads stack (first ++ second) last)
    : ∃ middle, Leads stack first middle ∧ Leads middle second last := by
  induction first generalizing stack with
  | nil => exact ⟨stack, .nil stack, leads⟩
  | cons execution first ih =>
      cases leads with
      | cons makes rest =>
        obtain ⟨middle, before, after⟩ := ih rest
        exact ⟨middle, .cons makes before, after⟩

end Leads

namespace Player

variable [ToneSink σ] {range : ToneRange} {mode : Mode} {reporter : ρ → Nat → Nat → ρ}

/-- The executions of a run are the ones that its reporter learns of, by induction on the budget. -/
theorem report_runWithin (budget : Nat) (player : Player σ) (report : ρ)
    : (runWithin range mode reporter budget player report).report
      = (executions range mode budget player).foldl
          (fun report execution =>
            reporter report execution.after.program.cursor execution.after.program.size)
          report := by
  induction budget generalizing player report with
  | zero =>
      cases next : player.attempt? range with
      | none => rw [runWithin_ended next]; rfl
      | some result => rw [runWithin_zero next]; rfl
  | succ budget ih =>
      rw [executions]
      match next : player.attempt? range with
      | none => rw [runWithin_ended next]; rfl
      | some (stopped, some fault) => rw [runWithin_faulted next]; rfl
      | some (later, none) =>
        rw [runWithin_step next]
        simp only [List.foldl_cons]
        split
        · rfl
        · exact ih later _

/-- What holds of a player that stays where it is or has a fault, and of every instruction that is
executed in front of others, holds of all that a run executes; by induction on the budget.
-/
theorem executions_induction (related : Player σ → List Execution → Player σ → Prop)
    (stays : ∀ player, related player [] player)
    (faulted
      : ∀ {player instruction fault stopped},
          player.Fails range instruction fault stopped → related player [] stopped)
    (step
      : ∀ {player instruction move next executed last},
          player.Performs range instruction move next
          → related next executed last
          → related player (⟨player.session, next.session⟩ :: executed) last)
    (budget : Nat) (player : Player σ) (report : ρ)
    : related player (executions range mode budget player)
        (runWithin range mode reporter budget player report).player := by
  induction budget generalizing player report with
  | zero =>
      cases next : player.attempt? range with
      | none => rw [runWithin_ended next]; exact stays player
      | some result => rw [runWithin_zero next]; exact stays player
  | succ budget ih =>
      rw [executions]
      rcases next : player.attempt? range with _ | ⟨later, _ | fault⟩
      · rw [runWithin_ended next]
        exact stays player
      · obtain ⟨instruction, move, performs⟩ := performs_of_attempt? next
        rw [runWithin_step next]
        apply step performs
        split
        · exact stays later
        · exact ih later _
      · obtain ⟨instruction, fails⟩ := fails_of_attempt? next
        rw [runWithin_faulted next]
        exact faulted fails

/-- The executions of a run lead to its last stack, because faults leave the stack as it is. -/
theorem leads_executions (budget : Nat) (player : Player σ) (report : ρ)
    : Leads player.machine.stack (executions range mode budget player)
        (runWithin range mode reporter budget player report).player.machine.stack := by
  refine executions_induction
    (fun player executed last => Leads player.machine.stack executed last.machine.stack)
    (fun player => .nil _) ?_ ?_ budget player report
  · intro player instruction fault stopped fails
    rw [fails.machine]
    exact .nil _
  · intro player instruction move next executed last performs rest
    have makes : Execution.Makes ⟨player.session, next.session⟩ range instruction move :=
      ⟨performs.here, performs.moves, performs.machine,
        congrArg Program.cursor performs.program⟩
    exact .cons makes rest

theorem leads_executed (player : Player σ) {operation : Operation} (keeps : operation ≠ .reset)
    : Leads player.machine.stack (player.executed operation)
        (player.perform operation).machine.stack := by
  cases operation with
  | run mode budget => exact leads_executions budget player ()
  | rewind | seek target => exact .nil _
  | reset => exact absurd rfl keeps

end Player

theorem Session.leads_executions {actions : List Action} (session : Session)
    (keeps : ∀ action ∈ actions, action.resets = false)
    : Leads session.machine.stack (session.executions actions)
        (session.performAll actions).machine.stack := by
  induction actions generalizing session with
  | nil => exact .nil _
  | cons action later ih =>
      have rest := ih (session.perform action) fun other member =>
        keeps other (List.mem_cons_of_mem _ member)
      refine Leads.append ?_ rest
      cases action with
      | operate sink operation =>
          have notReset := keeps _ List.mem_cons_self
          exact Player.leads_executed (session.on sink) (of_decide_eq_false notReset)
      | load code => exact .nil _

-----------------------------------------------------------------------------------------
-- One execution and one frame
-----------------------------------------------------------------------------------------

/-- What an execution does to a frame that lies on `outer` frames, below the `inner` ones. -/
inductive Execution.Treats (execution : Execution) (inner outer : List Frame) : Frame → Prop
  /-- The frame stays, and it is not the end of its loop that is executed. -/
  | spares {frame others} (stack : execution.after.machine.stack = others ++ frame :: outer)
    (other : execution.closesAt (outer.length + 1) = false)
    : Treats execution inner outer frame
  | round {remaining} (more : remaining ≠ 0)
    (closes : execution.closesAt (outer.length + 1))
    (body : execution.instruction? = some (.repeatClose execution.after.program.cursor))
    (stack : execution.after.machine.stack = .loop (remaining - 1) :: outer)
    : Treats execution inner outer (.loop remaining)
  | leaves (closes : execution.closesAt (outer.length + 1))
    (stack : execution.after.machine.stack = outer)
    (cursor : execution.after.program.cursor = execution.before.program.cursor + 1)
    : Treats execution inner outer (.loop 0)
  | returns {returnTo} (here : execution.instruction? = some .comeBack)
    (stack : execution.after.machine.stack = outer)
    (cursor : execution.after.program.cursor = returnTo)
    : Treats execution inner outer (.call returnTo)

namespace Execution

variable {execution : Execution} {range : ToneRange} {instruction : Instruction} {move : Move}
variable {inner outer : List Frame} {frame : Frame}

theorem closesAt_of_repeatClose {body : Nat}
    (here : execution.instruction? = some (.repeatClose body)) (depth : Nat)
    : execution.closesAt depth = decide (execution.before.machine.stack.length = depth) := by
  rw [closesAt, here]

theorem closesAt_of_other (here : execution.instruction? = some instruction)
    (other : ∀ body, instruction ≠ .repeatClose body) (depth : Nat)
    : execution.closesAt depth = false := by
  rw [closesAt, here]
  cases instruction with
  | repeatClose body => exact absurd rfl (other body)
  | _ => rfl

/-- An instruction changes the innermost frame at most, by cases on the move. -/
theorem Makes.treats (makes : execution.Makes range instruction move)
    (stack : execution.before.machine.stack = inner ++ frame :: outer)
    : execution.Treats inner outer frame := by
  obtain ⟨here, moves, machine, cursor⟩ := makes
  have after := congrArg Machine.stack machine
  have onTop (none : inner = []) {body : Nat}
      (closes : execution.instruction? = some (.repeatClose body))
      : execution.closesAt (outer.length + 1) := by
    rw [closesAt_of_repeatClose closes, stack, none]
    simp
  -- Where there are frames above, the innermost one is not the frame in question.
  have below {top : Frame} {others : List Frame} (above : inner = top :: others) {body : Nat}
      (closes : execution.instruction? = some (.repeatClose body))
      : execution.closesAt (outer.length + 1) = false := by
    rw [closesAt_of_repeatClose closes, stack, above, decide_eq_false_iff_not]
    simp only [List.cons_append, List.length_cons, List.length_append]
    omega
  cases moves with
  | note | rest | tempo | breakpoint | jump | skip =>
      exact .spares (after.trans stack) (closesAt_of_other here nofun _)
  | call | enter =>
      have pushed : _ = (_ :: inner) ++ frame :: outer := after.trans (congrArg (_ :: ·) stack)
      exact .spares pushed (closesAt_of_other here nofun _)
  | comeBack pending inside =>
      have popped := stack.symm.trans pending
      cases inner with
      | nil => cases popped; exact .returns here after cursor
      | cons top others => cases popped; exact .spares after (closesAt_of_other here nofun _)
  | again inside opened more =>
      have changed := stack.symm.trans opened
      cases inner with
      | nil => cases changed; exact .round more (onTop rfl here) (cursor ▸ here) after
      | cons top others =>
          cases changed
          have below := below rfl here
          exact .spares (show _ = (_ :: others) ++ frame :: outer from after) below
  | leave inside opened =>
      have popped := stack.symm.trans opened
      cases inner with
      | nil => cases popped; exact .leaves (onTop rfl here) after cursor
      | cons top others => cases popped; exact .spares after (below rfl here)

theorem Makes.stack_of_call (makes : execution.Makes range instruction move) {target : Nat}
    (here : execution.instruction? = some (.call target))
    : execution.after.machine.stack
      = .call (execution.before.program.cursor + 1) :: execution.before.machine.stack := by
  obtain ⟨same, moves, machine, -⟩ := makes
  cases same.symm.trans here
  rw [machine]
  cases moves
  rfl

theorem Makes.stack_of_repeatOpen (makes : execution.Makes range instruction move)
    {count : UInt32} {exit : Nat} (here : execution.instruction? = some (.repeatOpen count exit))
    (positive : count ≠ 0)
    : execution.after.machine.stack = .loop (count - 1) :: execution.before.machine.stack := by
  obtain ⟨same, moves, machine, -⟩ := makes
  cases same.symm.trans here
  rw [machine]
  cases moves with
  | skip => exact absurd rfl positive
  | enter => rfl

end Execution

-----------------------------------------------------------------------------------------
-- Executions until a frame is left
-----------------------------------------------------------------------------------------

/-- What a frame has become after a number of rounds: only loops have rounds, and each of them
takes one off.
-/
inductive Frame.Becomes : Frame → (rounds : Nat) → Frame → Prop
  | refl (frame) : Becomes frame 0 frame
  | round {remaining rounds last} (more : remaining ≠ 0)
    (rest : Becomes (.loop (remaining - 1)) rounds last)
    : Becomes (.loop remaining) (rounds + 1) last

theorem Frame.Becomes.eq_call {returnTo rounds : Nat} {last : Frame}
    (becomes : Becomes (.call returnTo) rounds last)
    : last = .call returnTo := by
  cases becomes
  rfl

/-- The rounds of a loop that were played and those that are left add up, by induction on them. -/
theorem Frame.Becomes.exists_loop {remaining : UInt32} {rounds : Nat} {last : Frame}
    (becomes : Becomes (.loop remaining) rounds last)
    : ∃ left, last = .loop left ∧ rounds + left.toNat = remaining.toNat := by
  induction rounds generalizing remaining with
  | zero => cases becomes; exact ⟨remaining, rfl, Nat.zero_add _⟩
  | succ rounds ih =>
      cases becomes with
      | round more rest =>
        obtain ⟨left, same, sum⟩ := ih rest
        refine ⟨left, same, ?_⟩
        rw [← toNat_sub_one more, ← sum]
        omega

/-- The ends of a loop whose frame lies on `depth - 1` others. -/
def closings (depth : Nat) (executions : List Execution) : List Execution :=
  executions.filter (·.closesAt depth)

/-- As long as the stack does not come down to `outer`, the frame on it stays, apart from its
rounds; by induction on the executions.
-/
theorem Leads.exists_eq {stack last inner outer : List Frame} {frame : Frame}
    {executions : List Execution} (leads : Leads stack executions last)
    (starts : stack = inner ++ frame :: outer)
    (away
      : ∀ execution ∈ executions, execution.after.machine.stack.length ≠ outer.length)
    : (∃ others latest,
        last = others ++ latest :: outer
        ∧ frame.Becomes (closings (outer.length + 1) executions).length latest)
      ∧ (∀ execution ∈ executions, outer <:+ execution.after.machine.stack)
      ∧ ∀ round ∈ closings (outer.length + 1) executions,
          round.instruction? = some (.repeatClose round.after.program.cursor) := by
  induction leads generalizing inner frame with
  | nil =>
      exact ⟨⟨inner, frame, starts, .refl frame⟩, List.forall_mem_nil _, List.forall_mem_nil _⟩
  | @cons execution later last range instruction move makes rest ih =>
      have notYet := away _ List.mem_cons_self
      have awayLater := fun other member => away other (List.mem_cons_of_mem _ member)
      cases makes.treats starts with
      | @spares _ others kept other =>
          obtain ⟨ending, suffixes, rounds⟩ := ih kept awayLater
          rw [closings, List.filter_cons_of_neg (by rw [other]; exact Bool.false_ne_true)]
          refine ⟨ending, List.forall_mem_cons.mpr ⟨?_, suffixes⟩, rounds⟩
          rw [kept]
          exact ⟨others ++ [frame], by simp⟩
      | round more closes body kept =>
          obtain ⟨⟨others, latest, same, becomes⟩, suffixes, rounds⟩ :=
            ih (show _ = [] ++ .loop _ :: outer from kept) awayLater
          rw [closings, List.filter_cons_of_pos closes]
          refine ⟨⟨others, latest, same, .round more becomes⟩,
            List.forall_mem_cons.mpr ⟨?_, suffixes⟩, List.forall_mem_cons.mpr ⟨body, rounds⟩⟩
          rw [kept]
          exact List.suffix_cons _ _
      | leaves _ left => exact absurd (congrArg List.length left) notYet
      | returns _ left => exact absurd (congrArg List.length left) notYet

/-- What becomes of a frame on `outer` until an execution that may bring the stack down to `outer`:
the stack below the frame does not change, the frame loses its rounds, and then that execution
treats what is left of it.
-/
theorem Leads.exists_treats {outer last : List Frame} {frame : Frame}
    {between rest : List Execution} (leads : Leads (frame :: outer) (between ++ rest) last)
    (away
      : ∀ execution ∈ between, execution.after.machine.stack.length ≠ outer.length)
    : ((∀ execution ∈ between, outer <:+ execution.after.machine.stack)
        ∧ (rest = [] → outer <:+ last))
      ∧ ∃ latest,
          frame.Becomes (closings (outer.length + 1) between).length latest
          ∧ (∀ round ∈ closings (outer.length + 1) between,
              round.instruction? = some (.repeatClose round.after.program.cursor))
          ∧ ∀ closing later, rest = closing :: later
            → ∃ others, closing.Treats others outer latest := by
  obtain ⟨middle, leadsBetween, leadsRest⟩ := leads.of_append
  obtain ⟨⟨others, latest, same, becomes⟩, suffixes, rounds⟩ :=
    leadsBetween.exists_eq (show _ = [] ++ frame :: outer from rfl) away
  refine ⟨⟨suffixes, ?_⟩, latest, becomes, rounds, ?_⟩
  · rintro rfl
    cases leadsRest with
    | nil => exact same ▸ ⟨others ++ [latest], by simp⟩
  · rintro closing later rfl
    cases leadsRest with
    | cons makes _ => exact ⟨others, makes.treats same⟩

/-- The execution that brings the stack down to `outer` ends what the frame on it stands for. -/
theorem Execution.Treats.ends {execution : Execution} {inner outer : List Frame} {frame : Frame}
    (treats : execution.Treats inner outer frame)
    (back : execution.after.machine.stack.length = outer.length)
    : execution.after.machine.stack = outer
      ∧ ((frame = .loop 0
          ∧ execution.closesAt (outer.length + 1)
          ∧ execution.after.program.cursor = execution.before.program.cursor + 1)
        ∨ (execution.instruction? = some .comeBack
          ∧ frame = .call execution.after.program.cursor)) := by
  cases treats with
  | spares kept =>
      rw [kept, List.length_append, List.length_cons] at back
      omega
  | round _ _ _ kept =>
      rw [kept, List.length_cons] at back
      omega
  | leaves closes left next => exact ⟨left, .inl ⟨rfl, closes, next⟩⟩
  | returns here left place => exact ⟨left, .inr ⟨here, place ▸ rfl⟩⟩

namespace Session

/-- A call in a session without resets puts a frame on the stack. The first instruction after which
the stack is as high as before is a return. It restores the stack and leads to the place after the
call. In the same way the frame of a loop is taken away by the end of the loop, which is executed as
often as the loop is to be played, each time but the last one leading to the loop's body. Until then
the stack below the frame does not change.
-/
theorem executions_matched (session : Session) {actions : List Action}
    (noReset : ∀ action ∈ actions, action.resets = false) {opening : Execution}
    {before between rest : List Execution}
    (executed : session.executions actions = before ++ opening :: (between ++ rest))
    (away
      : ∀ execution ∈ between,
          execution.after.machine.stack.length ≠ opening.before.machine.stack.length)
    : let stack := opening.before.machine.stack
      let next := opening.before.program.cursor + 1
      let unchanged :=
        (∀ execution ∈ between, stack <:+ execution.after.machine.stack)
        ∧ (rest = [] → stack <:+ (session.performAll actions).machine.stack)
      (∀ target, opening.instruction? = some (.call target)
        → opening.after.machine.stack = .call next :: stack
          ∧ unchanged
          ∧ ∀ closing later, rest = closing :: later
            → closing.after.machine.stack.length = stack.length
              → closing.instruction? = some .comeBack
                ∧ closing.after.machine.stack = stack
                ∧ closing.after.program.cursor = next)
      ∧ ∀ count exit, opening.instruction? = some (.repeatOpen count exit) → count ≠ 0
        → opening.after.machine.stack = .loop (count - 1) :: stack
          ∧ unchanged
          ∧ ∀ closing later, rest = closing :: later
            → closing.after.machine.stack.length = stack.length
              → closing.closesAt (stack.length + 1)
                ∧ closing.after.machine.stack = stack
                ∧ (closings (stack.length + 1) (between ++ [closing])).length = count.toNat
                ∧ closing.after.program.cursor = closing.before.program.cursor + 1
                ∧ ∀ round ∈ closings (stack.length + 1) between,
                    round.instruction? = some (.repeatClose round.after.program.cursor) := by
  intro stack next unchanged
  have leads := session.leads_executions noReset
  rw [executed] at leads
  obtain ⟨_, -, leads⟩ := leads.of_append
  cases leads with
  | cons makes leads =>
  refine ⟨fun target call => ?_, fun count exit opens positive => ?_⟩
  · have pushed := makes.stack_of_call call
    rw [pushed] at leads
    obtain ⟨unchanged, latest, becomes, -, closes⟩ := leads.exists_treats away
    refine ⟨pushed, unchanged, fun closing later follows back => ?_⟩
    obtain ⟨others, treats⟩ := closes closing later follows
    cases becomes.eq_call
    obtain ⟨restored, ⟨loop, -⟩ | ⟨here, same⟩⟩ := treats.ends back
    · cases loop
    · exact ⟨here, restored, (Frame.call.inj same).symm⟩
  · have pushed := makes.stack_of_repeatOpen opens positive
    rw [pushed] at leads
    obtain ⟨unchanged, latest, becomes, rounds, closes⟩ := leads.exists_treats away
    refine ⟨pushed, unchanged, fun closing later follows back => ?_⟩
    obtain ⟨others, treats⟩ := closes closing later follows
    obtain ⟨left, rfl, sum⟩ := becomes.exists_loop
    obtain ⟨restored, ⟨last, closesHere, falls⟩ | ⟨-, call⟩⟩ := treats.ends back
    · cases last
      refine ⟨closesHere, restored, ?_, falls, rounds⟩
      rw [closings, List.filter_append, List.filter_cons_of_pos closesHere, List.length_append,
        ← toNat_sub_one positive, ← sum]
      rfl
    · cases call

/-- A loop that calls a subroutine is closed twice, also if its session is a step, a seek to where
it already is and a run.
-/
theorem executions_matched_loop
    : let code : Array Instruction :=
        #[.repeatOpen 2 3, .call 4, .repeatClose 1, .jump 5, .comeBack]
      let reach (stack : List Frame) (cursor : Nat) : Session :=
        ⟨{ Machine.new 120 2 with stack }, { code, cursor }⟩
      let recorder : Recorder := {}
      let actions : List Action :=
        [.operate recorder (.run .singleStep 9), .operate recorder (.seek 1),
          .operate recorder (.run .continuous 9)]
      let between : List Execution :=
        [⟨reach [.loop 1] 1, reach [.call 2, .loop 1] 4⟩,
          ⟨reach [.call 2, .loop 1] 4, reach [.loop 1] 2⟩,
          ⟨reach [.loop 1] 2, reach [.loop 0] 1⟩,
          ⟨reach [.loop 0] 1, reach [.call 2, .loop 0] 4⟩,
          ⟨reach [.call 2, .loop 0] 4, reach [.loop 0] 2⟩]
      let closing : Execution := ⟨reach [.loop 0] 2, reach [] 3⟩
      (new 120 2 code).executions actions
        = ⟨reach [] 0, reach [.loop 1] 1⟩ :: (between ++ [closing, ⟨reach [] 3, reach [] 5⟩])
      ∧ (closings 1 (between ++ [closing])).length = 2
      ∧ closing.after.program.cursor = closing.before.program.cursor + 1 := by
  intro code reach recorder actions between closing
  have executed
      : (new 120 2 code).executions actions
        = [] ++ ⟨reach [] 0, reach [.loop 1] 1⟩
          :: (between ++ [closing, ⟨reach [] 3, reach [] 5⟩]) := by
    decide +kernel
  have noReset : ∀ action ∈ actions, action.resets = false := by decide
  obtain ⟨-, loop⟩ := executions_matched (new 120 2 code) noReset executed (by decide)
  obtain ⟨-, -, closes⟩ := loop 2 3 rfl (by decide)
  obtain ⟨-, -, count, falls, -⟩ := closes closing _ rfl rfl
  exact ⟨executed, count, falls⟩

end Session

end Chiptune
