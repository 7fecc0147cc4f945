import Chiptune.Output.Recorder
import Chiptune.Proofs.Playback.Resuming

/-! Where runs are suspended. A run attempts the instruction under its cursor in every mode, and
after that it stops before the first instruction that its mode stops at. So runs of one mode, made
one after another, stop before each such instruction of the whole playback but for the first one,
and once before each of them.
-/

namespace Chiptune

/-- Where a run was suspended, and the player that it left there. -/
def Run.suspension? (run : Run σ ρ) : Option (Nat × Player σ) :=
  match run.outcome with
  | some (.suspended cursor) => some (cursor, run.player)
  | _ => none

namespace Player

/-- A player and the place of its cursor. -/
def placed (player : Player σ) : Nat × Player σ :=
  (player.program.cursor, player)

variable [ToneSink σ]

/-- The player before the attempt with this number, counted from zero, of a continuous run; none if
the run makes fewer attempts. It is where a budget of that many attempts is spent.
-/
def before? (range : ToneRange) (player : Player σ) (number : Nat) : Option (Player σ) :=
  let run := runWithin range .continuous (fun _ _ _ => ()) number player ()
  if run.outcome.isNone then some run.player else none

/-- The players before the attempts of a continuous run, for the first `limit` attempts. -/
def attempted (range : ToneRange) (player : Player σ) (limit : Nat) : List (Player σ) :=
  (List.range limit).filterMap (player.before? range)

/-- The players before those of the first `limit` attempts of a continuous run at which a mode
stops. No mode stops at the first attempt.
-/
def stops (range : ToneRange) (mode : Mode) (player : Player σ) (limit : Nat) : List (Player σ) :=
  (player.attempted range limit).tail.filter (·.suspends mode)

/-- The runs that are made in these modes, each one from where the last one was suspended. -/
def successive (budget : Nat) (player : Player σ) : List Mode → List (Run σ Unit)
  | [] => []
  | mode :: later =>
    let run := player.play mode budget
    run :: if run.suspension?.isSome then successive budget run.player later else []

variable {range : ToneRange} {mode : Mode} {reporter : ρ → Nat → Nat → ρ} {report : ρ}
variable {player next later : Player σ} {made : Nat}

-----------------------------------------------------------------------------------------
-- Attempts of a continuous run
-----------------------------------------------------------------------------------------

theorem before?_zero {result : Player σ × Option Fault}
    (attempts : player.attempt? range = some result)
    : player.before? range 0 = some player := by
  simp [before?, runWithin_zero attempts]

theorem before?_step (succeeds : player.attempt? range = some (next, none)) (number : Nat)
    : player.before? range (number + 1) = next.before? range number := by
  simp [before?, runWithin_step succeeds]

theorem attempted_ended (finished : player.attempt? range = none) (limit : Nat)
    : player.attempted range limit = [] := by
  simp [attempted, before?, runWithin_ended finished]

theorem attempted_faulted {stopped : Player σ} {fault : Fault}
    (raised : player.attempt? range = some (stopped, some fault)) (limit : Nat)
    : player.attempted range (limit + 1) = [player] := by
  have none (number : Nat) : player.before? range (number + 1) = none := by
    simp [before?, runWithin_faulted raised]
  simp [attempted, List.range_succ_eq_map, before?_zero raised, none]

theorem attempted_step (succeeds : player.attempt? range = some (next, none)) (limit : Nat)
    : player.attempted range (limit + 1) = player :: next.attempted range limit := by
  simp only [attempted, List.range_succ_eq_map, List.filterMap_cons, before?_zero succeeds,
    List.filterMap_map]
  congr 2
  funext number
  exact before?_step succeeds number

/-- The first attempt is made by the player itself. -/
theorem exists_attempted_succ {result : Player σ × Option Fault}
    (attempts : player.attempt? range = some result) (limit : Nat)
    : ∃ others, player.attempted range (limit + 1) = player :: others := by
  match result with
  | (stopped, some fault) => exact ⟨[], attempted_faulted attempts limit⟩
  | (next, none) => exact ⟨next.attempted range limit, attempted_step attempts limit⟩

theorem exists_attempt?_of_before? (reached : player.before? range made = some later)
    : ∃ result, player.attempt? range = some result := by
  cases attempts : player.attempt? range with
  | none => simp [before?, runWithin_ended attempts] at reached
  | some result => exact ⟨result, rfl⟩

/-- A continuous run goes on from where a smaller budget is spent, by induction on that budget. -/
theorem runWithin_before? (reached : player.before? range made = some later) (more : Nat)
    : runWithin range .continuous (fun _ _ _ => ()) (made + more) player ()
      = runWithin range .continuous (fun _ _ _ => ()) more later () := by
  induction made generalizing player with
  | zero =>
      obtain ⟨result, attempts⟩ := exists_attempt?_of_before? reached
      obtain rfl := Option.some.inj ((before?_zero attempts).symm.trans reached)
      rw [Nat.zero_add]
  | succ made ih =>
      obtain ⟨⟨next, _ | fault⟩, attempts⟩ := exists_attempt?_of_before? reached
      · rw [before?_step attempts] at reached
        rw [Nat.succ_add, runWithin_step attempts, suspends_continuous,
          if_neg Bool.false_ne_true]
        exact ih reached
      · simp [before?, runWithin_faulted attempts] at reached

theorem before?_add (reached : player.before? range made = some later) (more : Nat)
    : player.before? range (made + more) = later.before? range more := by
  simp only [before?, runWithin_before? reached]

theorem attempted_add (reached : player.before? range made = some later) (more : Nat)
    : player.attempted range (made + more)
      = player.attempted range made ++ later.attempted range more := by
  simp only [attempted, List.range_add, List.filterMap_append, List.filterMap_map]
  congr 2
  funext number
  exact before?_add reached number

theorem attempted_isPrefix (range : ToneRange) (player : Player σ) {limit greater : Nat}
    (within : limit ≤ greater)
    : player.attempted range limit <+: player.attempted range greater := by
  obtain ⟨more, rfl⟩ := Nat.exists_eq_add_of_le within
  rw [attempted, attempted, List.range_add, List.filterMap_append]
  exact List.prefix_append _ _

/-- A playback of so many attempts attempts something as often, by induction on it. -/
theorem Plays.length_attempted {attempts limit : Nat} {run : Run σ ρ}
    (plays : Plays range reporter attempts player report run) (enough : attempts ≤ limit)
    : (player.attempted range limit).length = attempts := by
  induction plays generalizing limit with
  | ended finished => rw [attempted_ended finished]; rfl
  | faulted raised =>
      obtain ⟨limit, rfl⟩ := Nat.exists_eq_add_of_le' enough
      rw [attempted_faulted raised]
      rfl
  | @step _ _ _ attempts _ succeeds _ ih =>
      obtain ⟨limit, rfl⟩ := Nat.exists_eq_add_one.mpr
        (Nat.lt_of_lt_of_le attempts.succ_pos enough)
      rw [attempted_step succeeds, List.length_cons, ih (Nat.le_of_succ_le_succ enough)]

/-- A continuous run that is over has made the attempts of its playback, by induction on it. -/
theorem Plays.attempts_le {attempts budget : Nat} {run : Run σ ρ}
    (plays : Plays range reporter attempts player report run)
    (isOver : (runWithin range .continuous reporter budget player report).isOver)
    : attempts ≤ budget := by
  induction plays generalizing budget with
  | ended => exact Nat.zero_le _
  | faulted raised =>
      cases budget with
      | zero => rw [runWithin_zero raised] at isOver; cases isOver
      | succ budget => exact Nat.succ_le_succ (Nat.zero_le _)
  | step succeeds _ ih =>
      cases budget with
      | zero => rw [runWithin_zero succeeds] at isOver; cases isOver
      | succ budget =>
          rw [runWithin_step succeeds, suspends_continuous, if_neg Bool.false_ne_true] at isOver
          exact Nat.succ_le_succ (ih isOver)

/-- After its end a continuous run attempts nothing more. -/
theorem attempted_isPrefix_of_isOver {whole : Nat}
    (isOver : (runWithin range .continuous reporter whole player report).isOver) (limit : Nat)
    : player.attempted range limit <+: player.attempted range whole := by
  rcases Nat.le_total limit whole with within | beyond
  · exact attempted_isPrefix range player within
  · obtain ⟨attempts, plays⟩ := plays_of_isOver isOver
    have enough := plays.attempts_le isOver
    have sameLength := (plays.length_attempted enough).trans
      (plays.length_attempted (Nat.le_trans enough beyond)).symm
    exact (attempted_isPrefix range player beyond).eq_of_length sameLength ▸ List.prefix_refl _

-----------------------------------------------------------------------------------------
-- Attempts at which a mode stops
-----------------------------------------------------------------------------------------

theorem stops_isPrefix (mode : Mode) {limit greater : Nat}
    (within : player.attempted range limit <+: player.attempted range greater)
    : player.stops range mode limit <+: player.stops range mode greater := by
  obtain ⟨others, whole⟩ := within
  rw [stops, stops, ← whole]
  cases player.attempted range limit with
  | nil => exact List.nil_prefix
  | cons first rest =>
      rw [List.tail_cons, List.cons_append, List.tail_cons, List.filter_append]
      exact List.prefix_append _ _

/-- No mode stops at the first attempt. -/
theorem stops_one (player : Player σ) : player.stops range mode 1 = [] := by
  cases first : player.before? range 0 <;> simp [stops, attempted, List.range_succ, first]

theorem exists_attempt?_of_suspends (stops : player.suspends mode) (range : ToneRange)
    : ∃ result, player.attempt? range = some result := by
  cases here : player.program.current? with
  | none => simp [suspends, here] at stops
  | some instruction => exact ⟨_, congrArg (Option.map _) here⟩

/-- A player at which the mode does not stop adds no stop. -/
theorem filter_attempted_eq_stops (passes : ¬player.suspends mode) (limit : Nat)
    : (player.attempted range limit).filter (·.suspends mode) = player.stops range mode limit := by
  rw [stops]
  cases limit with
  | zero => rfl
  | succ limit =>
      cases attempts : player.attempt? range with
      | none => rw [attempted_ended attempts]; rfl
      | some result =>
          obtain ⟨others, first⟩ := exists_attempted_succ attempts limit
          simp only [first, List.filter_cons, if_neg passes, List.tail_cons]

/-- A run is not suspended, and its mode stops at none of the attempts that its budget allows; or it
is suspended before the first attempt that its mode stops at. By induction on the budget.
-/
theorem suspension_cases (range : ToneRange) (mode : Mode) (reporter : ρ → Nat → Nat → ρ)
    (budget : Nat) (player : Player σ) (report : ρ)
    : let run := runWithin range mode reporter budget player report
      (run.suspension? = none ∧ player.stops range mode (budget + 1) = [])
      ∨ ∃ made < budget,
          run.suspension? = some run.player.placed
          ∧ player.before? range (made + 1) = some run.player
          ∧ run.player.suspends mode
          ∧ player.stops range mode (made + 1) = [] := by
  induction budget generalizing player report with
  | zero =>
      refine .inl ⟨?_, stops_one player⟩
      cases attempts : player.attempt? range with
      | none => rw [runWithin_ended attempts]; rfl
      | some result => rw [runWithin_zero attempts]; rfl
  | succ budget ih =>
      match attempts : player.attempt? range with
      | none =>
        rw [runWithin_ended attempts, stops, attempted_ended attempts]
        exact .inl ⟨rfl, rfl⟩
      | some (stopped, some fault) =>
        rw [runWithin_faulted attempts, stops, attempted_faulted attempts]
        exact .inl ⟨rfl, rfl⟩
      | some (next, none) =>
        have shift (limit : Nat)
            : player.stops range mode (limit + 1)
              = (next.attempted range limit).filter (·.suspends mode) := by
          rw [stops, attempted_step attempts, List.tail_cons]
        rw [runWithin_step attempts]
        split
        · next stopsNext =>
          obtain ⟨result, attemptsNext⟩ := exists_attempt?_of_suspends stopsNext range
          refine .inr ⟨0, budget.succ_pos, rfl, ?_, stopsNext, shift 0⟩
          rw [before?_step attempts, before?_zero attemptsNext]
        · next passes =>
          rw [shift, filter_attempted_eq_stops passes]
          rcases ih next (reporter report next.program.cursor next.program.size)
            with ⟨goesOn, none⟩ | ⟨made, within, suspended, reached, stopsLater, none⟩
          · exact .inl ⟨goesOn, none⟩
          · refine .inr ⟨made + 1, Nat.succ_lt_succ within, suspended, ?_, stopsLater, ?_⟩
            · rw [before?_step attempts, reached]
            · rw [shift, filter_attempted_eq_stops passes, none]

/-- The stops from one of them on are that one and those that come after it. -/
theorem stops_add (reached : player.before? range (made + 1) = some later)
    (stopsLater : later.suspends mode) (none : player.stops range mode (made + 1) = [])
    (more : Nat)
    : player.stops range mode (made + 1 + (more + 1))
      = later :: later.stops range mode (more + 1) := by
  obtain ⟨result, attempts⟩ := exists_attempt?_of_before? reached
  obtain ⟨others, first⟩ := exists_attempted_succ attempts made
  obtain ⟨resultLater, attemptsLater⟩ := exists_attempt?_of_suspends stopsLater range
  obtain ⟨othersLater, firstLater⟩ := exists_attempted_succ attemptsLater more
  rw [stops, first, List.tail_cons] at none
  rw [stops, attempted_add reached, first, List.cons_append, List.tail_cons, List.filter_append,
    none, stops, firstLater, List.tail_cons, List.nil_append, List.filter_cons, if_pos stopsLater]

/-- A run is suspended before the first attempt that its mode stops at, if its budget allows it to
come there.
-/
theorem suspension?_play (player : Player σ) (mode : Mode) (budget : Nat)
    : (player.play mode budget).suspension?
      = (player.stops (ToneSink.range player.sink) mode (budget + 1)).head?.map placed := by
  rcases suspension_cases (ToneSink.range player.sink) mode (fun _ _ _ => ()) budget player ()
    with ⟨goesOn, none⟩ | ⟨made, within, suspended, reached, stops, none⟩
  · rw [none]
    exact goesOn
  · obtain ⟨more, rfl⟩ := Nat.exists_eq_add_of_lt within
    have limit : made + more + 1 + 1 = made + 1 + (more + 1) := by omega
    rw [limit, stops_add reached stops none more]
    exact suspended

-----------------------------------------------------------------------------------------
-- Runs one after another
-----------------------------------------------------------------------------------------

/-- Wherever the mode stops, the output has the range that the song is played in. -/
def KeepsRange (range : ToneRange) (mode : Mode) (player : Player σ) : Prop :=
  ∀ limit, ∀ stop ∈ player.stops range mode limit, ToneSink.range stop.sink = range

theorem KeepsRange.of_stop (keeps : player.KeepsRange range mode)
    (reached : player.before? range (made + 1) = some later) (stopsLater : later.suspends mode)
    (none : player.stops range mode (made + 1) = [])
    : ToneSink.range later.sink = range ∧ later.KeepsRange range mode := by
  constructor
  · refine keeps (made + 1 + (0 + 1)) later ?_
    rw [stops_add reached stopsLater none]
    exact List.mem_cons_self
  · intro limit stop member
    refine keeps (made + 1 + (limit + 1)) stop ?_
    rw [stops_add reached stopsLater none]
    have longer := attempted_isPrefix range later (Nat.le_succ limit)
    exact List.mem_cons_of_mem _ ((stops_isPrefix mode longer).mem member)

/-- Runs of one mode are suspended where the mode stops, by induction on their number. -/
theorem exists_suspensions_eq (keeps : player.KeepsRange range mode)
    (same : ToneSink.range player.sink = range) (budget calls : Nat)
    : ∃ limit,
        (player.successive budget (List.replicate calls mode)).filterMap Run.suspension?
          = (player.stops range mode (limit + 1)).map placed := by
  induction calls generalizing player with
  | zero => exact ⟨0, by rw [stops_one]; rfl⟩
  | succ calls ih =>
      rw [List.replicate_succ, successive, play, run, same]
      rcases suspension_cases range mode (fun _ _ _ => ()) budget player ()
        with ⟨goesOn, -⟩ | ⟨made, -, suspended, reached, stops, none⟩
      · exact ⟨0, by simp [goesOn, stops_one]⟩
      · obtain ⟨sameLater, keepsLater⟩ := keeps.of_stop reached stops none
        obtain ⟨limit, rest⟩ := ih keepsLater sameLater
        refine ⟨made + 1 + limit, ?_⟩
        rw [Nat.add_assoc, stops_add reached stops none limit]
        simp [suspended, rest]

/-- With enough budget and enough runs, all stops are reached, by induction on the runs. -/
theorem stops_isPrefix_suspensions (keeps : player.KeepsRange range mode)
    (same : ToneSink.range player.sink = range) {limit budget calls : Nat}
    (enough : limit ≤ budget) (more : limit ≤ calls)
    : (player.stops range mode limit).map placed
      <+: (player.successive budget (List.replicate calls mode)).filterMap Run.suspension? := by
  induction calls generalizing player limit with
  | zero =>
      obtain rfl := Nat.le_zero.mp more
      exact List.nil_prefix
  | succ calls ih =>
      rw [List.replicate_succ, successive, play, run, same]
      rcases suspension_cases range mode (fun _ _ _ => ()) budget player ()
        with ⟨-, none⟩ | ⟨made, -, suspended, reached, stops, none⟩
      · have noStop :=
          stops_isPrefix mode (attempted_isPrefix range player (Nat.le_succ_of_le enough))
        rw [none, List.prefix_nil] at noStop
        rw [noStop]
        exact List.nil_prefix
      · simp only [suspended, Option.isSome_some, if_true, List.filterMap_cons]
        by_cases before : limit ≤ made + 1
        · have noStop := stops_isPrefix mode (attempted_isPrefix range player before)
          rw [none, List.prefix_nil] at noStop
          rw [noStop]
          exact List.nil_prefix
        · obtain ⟨rest, rfl⟩ := Nat.exists_eq_add_of_lt (Nat.lt_of_not_le before)
          obtain ⟨sameLater, keepsLater⟩ := keeps.of_stop reached stops none
          rw [Nat.add_assoc, stops_add reached stops none, List.map_cons]
          exact (List.prefix_cons_inj _).mpr
            (ih keepsLater sameLater (by omega) (by omega))

/-- Of runs one after another all but the last one are suspended. -/
theorem length_successive (budget : Nat) (player : Player σ) (modes : List Mode)
    : (player.successive budget modes).length
      = min modes.length
          (((player.successive budget modes).filterMap Run.suspension?).length + 1) := by
  induction modes generalizing player with
  | nil => rfl
  | cons mode modes ih =>
      rw [successive]
      cases suspended : (player.play mode budget).suspension? with
      | none => simp [suspended]
      | some suspension =>
          simp only [suspended, Option.isSome_some, if_true, List.length_cons,
            List.filterMap_cons]
          have rest := ih (player.play mode budget).player
          omega

/-- An output whose range no request changes keeps it. -/
theorem KeepsRange.of_hasFixedRange [ToneSink.HasFixedRange σ] (mode : Mode) (player : Player σ)
    : player.KeepsRange (ToneSink.range player.sink) mode := by
  intro limit stop member
  have attempt := List.mem_of_mem_tail (List.mem_filter.mp member).1
  obtain ⟨number, -, reached⟩ := List.mem_filterMap.mp attempt
  rw [before?] at reached
  split at reached
  · exact Option.some.inj reached ▸ range_runWithin .continuous number player ()
  · cases reached

/-- When a continuous run is over, so are runs of another mode with the same budget, after all stops
and one run more than there are stops.
-/
theorem suspensions_of_isOver (keeps : player.KeepsRange range mode)
    (same : ToneSink.range player.sink = range) {whole budget calls : Nat}
    (isOver : (runWithin range .continuous reporter whole player report).isOver)
    (enough : whole ≤ budget) (more : whole < calls)
    : let runs := player.successive budget (List.replicate calls mode)
      runs.filterMap Run.suspension? = (player.stops range mode whole).map placed
      ∧ runs.length = (runs.filterMap Run.suspension?).length + 1 := by
  intro runs
  obtain ⟨limit, suspensions⟩ := exists_suspensions_eq keeps same budget calls
  have all : runs.filterMap Run.suspension? = (player.stops range mode whole).map placed := by
    refine List.IsPrefix.eq_of_length_le ?_
      (stops_isPrefix_suspensions keeps same enough (Nat.le_of_lt more)).length_le
    rw [suspensions]
    exact (stops_isPrefix mode (attempted_isPrefix_of_isOver isOver (limit + 1))).map placed
  have count : (player.stops range mode whole).length ≤ whole := by
    calc (player.stops range mode whole).length
      _ ≤ (player.attempted range whole).tail.length := List.length_filter_le ..
      _ ≤ (player.attempted range whole).length := by simp
      _ ≤ (List.range whole).length := List.length_filterMap_le ..
      _ = whole := List.length_range
  refine ⟨all, ?_⟩
  have length
      : runs.length = min (List.replicate calls mode).length
          ((runs.filterMap Run.suspension?).length + 1) :=
    length_successive budget player (List.replicate calls mode)
  rw [all, List.length_map, List.length_replicate] at length
  rw [all, List.length_map]
  omega

/-- A run to the next breakpoint stops at breakpoints alone. -/
theorem stops_untilBreakpoint (range : ToneRange) (player : Player σ) (limit : Nat)
    : player.stops range .untilBreakpoint limit
      = (player.attempted range limit).tail.filter
          (·.program.current? = some .breakpoint) := by
  rw [stops]
  congr 1
  funext other
  cases here : other.program.current? <;> simp [suspends, here, Mode.suspends]

/-- A run over one instruction stops before each of them. -/
theorem stops_singleStep (range : ToneRange) (player : Player σ) (limit : Nat)
    : player.stops range .singleStep limit = (player.attempted range limit).tail := by
  rw [stops, List.filter_eq_self]
  intro other member
  obtain ⟨number, -, reached⟩ := List.mem_filterMap.mp (List.mem_of_mem_tail member)
  obtain ⟨_, attempts⟩ := exists_attempt?_of_before? (before?_add reached 0 ▸ reached)
  obtain ⟨instruction, here, -⟩ := Option.map_eq_some_iff.mp attempts
  simp [suspends, here, Mode.suspends]

/-- Runs of a mode, made one after another, are suspended at `stops`, which are given for a number
of attempts: at the first ones of them, in the same order and once at each. With enough runs every
stop is come to; and if the song ends, one more run than there are stops is made, which is not
suspended.
-/
structure SuspendedAt (player : Player σ) (mode : Mode) (stops : Nat → List (Player σ)) : Prop where
  within (budget calls : Nat)
    : ∃ limit,
        (player.successive budget (List.replicate calls mode)).filterMap Run.suspension?
          = (stops limit).map placed
  reached {limit budget calls : Nat} (enough : limit ≤ budget) (more : limit ≤ calls)
    : (stops limit).map placed
      <+: (player.successive budget (List.replicate calls mode)).filterMap Run.suspension?
  all {whole budget calls : Nat} (isOver : (player.play .continuous whole).isOver)
    (enough : whole ≤ budget) (more : whole < calls)
    : let runs := player.successive budget (List.replicate calls mode)
      runs.filterMap Run.suspension? = (stops whole).map placed
      ∧ runs.length = (stops whole).length + 1

theorem KeepsRange.suspendedAt (keeps : player.KeepsRange (ToneSink.range player.sink) mode)
    : player.SuspendedAt mode (player.stops (ToneSink.range player.sink) mode) where
  within budget calls := by
    obtain ⟨limit, same⟩ := exists_suspensions_eq keeps rfl budget calls
    exact ⟨limit + 1, same⟩
  reached enough more := stops_isPrefix_suspensions keeps rfl enough more
  all isOver enough more := by
    obtain ⟨all, length⟩ := suspensions_of_isOver keeps rfl isOver enough more
    refine ⟨all, ?_⟩
    rw [length, all, List.length_map]

/-- A run to the next breakpoint is suspended before the first attempt, its very first one left out,
that a continuous run makes at a breakpoint; a run over one instruction before the second attempt of
a continuous run. Such runs, made one after another, are suspended before all those attempts of one
continuous run, if there the output has the range that it had at the start: once before each of them
and in the same order, with the cursor on the instruction and in the state that the continuous run
has there.
-/
theorem suspensions_eq_stops (player : Player σ)
    : let range := ToneSink.range player.sink
      let attempted := player.attempted range
      let atBreakpoints limit :=
        (attempted limit).tail.filter (·.program.current? = some .breakpoint)
      (∀ budget,
        (player.play .untilBreakpoint budget).suspension?
          = (atBreakpoints (budget + 1)).head?.map placed
        ∧ (player.play .singleStep budget).suspension?
          = (attempted (budget + 1)).tail.head?.map placed)
      ∧ ((∀ limit, ∀ stop ∈ atBreakpoints limit, ToneSink.range stop.sink = range)
        → player.SuspendedAt .untilBreakpoint atBreakpoints)
      ∧ ((∀ limit, ∀ stop ∈ (attempted limit).tail, ToneSink.range stop.sink = range)
        → player.SuspendedAt .singleStep fun limit => (attempted limit).tail) := by
  intro range attempted atBreakpoints
  have breakpoints : player.stops range .untilBreakpoint = atBreakpoints :=
    funext (stops_untilBreakpoint range player)
  have steps : player.stops range .singleStep = fun limit => (attempted limit).tail :=
    funext (stops_singleStep range player)
  refine ⟨fun budget => ⟨?_, ?_⟩, ?_, ?_⟩
  · exact breakpoints ▸ player.suspension?_play .untilBreakpoint budget
  · exact congrFun steps (budget + 1) ▸ player.suspension?_play .singleStep budget
  · intro keeps
    rw [← breakpoints] at keeps ⊢
    exact KeepsRange.suspendedAt keeps
  · intro keeps
    rw [← steps]
    refine KeepsRange.suspendedAt fun limit stop member => keeps limit stop ?_
    exact congrFun steps limit ▸ member

/-- A breakpoint under the cursor at the start, and two in a row in a loop that is played twice. -/
theorem suspensions_eq_stops_loop
    : let player : Player Recorder :=
        ⟨.new 120 1, { code := #[.breakpoint, .repeatOpen 2 5, .breakpoint, .breakpoint,
          .repeatClose 2, .note 440 (.millis 5)] }, {}⟩
      let range := ToneSink.range player.sink
      let atBreakpoints limit :=
        (player.attempted range limit).tail.filter (·.program.current? = some .breakpoint)
      let suspensions mode :=
        (player.successive 9 (List.replicate 10 mode)).filterMap Run.suspension?
      (∀ limit, ∀ stop ∈ (player.attempted range limit).tail, ToneSink.range stop.sink = range)
      ∧ (player.play .continuous 9).outcome = some .ended
      ∧ suspensions .untilBreakpoint = (atBreakpoints 9).map placed
      ∧ (suspensions .untilBreakpoint).map Prod.fst = [2, 3, 2, 3]
      ∧ suspensions .singleStep = (player.attempted range 9).tail.map placed
      ∧ (suspensions .singleStep).map Prod.fst = [1, 2, 3, 4, 2, 3, 4, 5] := by
  intro player range atBreakpoints suspensions
  have keeps (limit)
      : ∀ stop ∈ (player.attempted range limit).tail, ToneSink.range stop.sink = range := by
    rw [← stops_singleStep]
    exact KeepsRange.of_hasFixedRange .singleStep player limit
  have isOver : (player.play .continuous 9).isOver := by decide +kernel
  obtain ⟨-, untilBreakpoint, singleStep⟩ := suspensions_eq_stops player
  obtain ⟨atAll, -⟩ :=
    (untilBreakpoint fun limit stop member => keeps limit stop (List.mem_filter.mp member).1).all
      isOver (Nat.le_refl 9) (Nat.lt_add_one 9)
  obtain ⟨beforeAll, -⟩ := (singleStep keeps).all isOver (Nat.le_refl 9) (Nat.lt_add_one 9)
  exact ⟨keeps, by decide +kernel, atAll, by decide +kernel, beforeAll, by decide +kernel⟩

/-- On an output that can hold no tones after the first one, the run after the first breakpoint has
a fault that the continuous run does not have, and the second breakpoint is not come to. No run is
suspended at a breakpoint in a loop that both passes jump over.
-/
theorem suspensions_eq_stops_shifting
    : let player : Player Shifting :=
        ⟨.new 120 1, { code := #[.note 440 (.millis 5), .breakpoint, .note 440 (.millis 5),
          .breakpoint] }, ⟨[60000, 0]⟩⟩
      let attempted := player.attempted (ToneSink.range player.sink) 9
      let runs := player.successive 9 (List.replicate 9 .untilBreakpoint)
      let skipping : Player Recorder :=
        ⟨.new 120 1, { code := #[.repeatOpen 2 4, .jump 3, .breakpoint, .repeatClose 1] }, {}⟩
      (player.play .continuous 9).outcome = some .ended
      ∧ (attempted.tail.filter (·.program.current? = some .breakpoint)).map (·.program.cursor)
        = [1, 3]
      ∧ runs.map (·.outcome)
        = [some (.suspended 1), some (.faulted ⟨.durationTooLong 5 0, 2⟩)]
      ∧ (skipping.attempted (ToneSink.range skipping.sink) 9).map (·.program.cursor)
        = [0, 1, 3, 1, 3]
      ∧ (skipping.play .untilBreakpoint 9).outcome = some .ended := by
  decide +kernel

end Player

end Chiptune
