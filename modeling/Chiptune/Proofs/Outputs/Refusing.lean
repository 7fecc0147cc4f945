import Chiptune.Output.Recorder
import Chiptune.Proofs.Outputs.Journal
import Mathlib.Data.List.DropRight

/-! Recorders that are told to refuse. Since it was cleared last, such a recorder takes just as many
tones as it was told, and after them none, but it always falls silent. A run on it is a run on an
output that never refuses, up to the instruction that asks for one tone too many.
-/

namespace Chiptune

open ToneSink (NeverRefuses answer entries used)

namespace Recorder

/-- The owner of a recorder clears it. -/
def cleared (recorder : Recorder) : Recorder × Option SinkError :=
  (recorder.clear, none)

/-- The entries since the recorder was cleared last. -/
def sinceCleared (entries : List Entry) : List Entry :=
  entries.rtakeWhile (·.request ≠ .handling)

/-- How many tones were asked for, apart from requests for silence. -/
def tonesAsked (entries : List Entry) : Nat :=
  entries.countP (·.request.tone?.isSome)

/-- What a request has made sound, if it was not refused. -/
def granted? : Entry → Option Tone
  | ⟨.sound tone, none⟩ => some tone
  | ⟨.silence, _⟩ => some .stop
  | _ => none

/-- A recorder that takes `limit` tones refuses those that are asked for after them. -/
def refusalAfter (limit : Nat) (earlier : List Entry) (request : SinkRequest) : Option SinkError :=
  if request.tone?.isSome ∧ limit ≤ tonesAsked (sinceCleared earlier) then some (.injected limit)
  else none

variable {recorder : Recorder} {limit : Nat} {tone : Tone}

-----------------------------------------------------------------------------------------
-- Answers of recorders
-----------------------------------------------------------------------------------------

theorem emit_of_full (refuses : recorder.failAt = some limit) (sounds : tone ≠ .stop)
    (full : recorder.played.length = limit)
    : ToneSink.emit recorder tone = (recorder, some (.injected limit)) := by
  have refused : recorder.refusal? tone = some (.injected limit) := by
    simp [refusal?, refuses, sounds, full]
  simp only [ToneSink.emit, Recorder.emit, refused]

theorem emit_of_room (refuses : recorder.failAt = some limit)
    (room : tone ≠ .stop → recorder.played.length ≠ limit)
    : ToneSink.emit recorder tone = (recorder.record tone, none) := by
  have granted : recorder.refusal? tone = none := by
    simpa [refusal?, refuses] using room
  simp only [ToneSink.emit, Recorder.emit, granted]

theorem length_played_record (within : recorder.played.length ≤ limit)
    (room : tone ≠ .stop → recorder.played.length ≠ limit)
    : (recorder.record tone).played.length ≤ limit := by
  by_cases stops : tone = .stop
  · rwa [stops, played_record_stop]
  · rw [played_record recorder stops, List.length_append]
    exact Nat.lt_of_le_of_ne within (room stops)

-----------------------------------------------------------------------------------------
-- Recorders in use
-----------------------------------------------------------------------------------------

theorem sinceCleared_concat (entries : List Entry) (entry : Entry)
    (other : entry.request ≠ .handling)
    : sinceCleared (entries ++ [entry]) = sinceCleared entries ++ [entry] :=
  List.rtakeWhile_concat_pos _ _ _ (decide_eq_true other)

theorem sinceCleared_handling (entries : List Entry)
    : sinceCleared (entries ++ [⟨.handling, none⟩]) = [] :=
  List.rtakeWhile_concat_neg _ _ _ (by decide)

/-- A recorder that has taken what its journal says, and refused what is one tone too many. -/
structure Rations (range : ToneRange) (limit : Nat) (journal : Journal Recorder) : Prop where
  range : journal.sink.range = range
  failAt : journal.sink.failAt = some limit
  tones : journal.sink.tones.toList = (sinceCleared journal.entries).filterMap granted?
  played : journal.sink.played.length = min limit (tonesAsked (sinceCleared journal.entries))
  answered : Answered (refusalAfter limit) journal.entries

namespace Rations

variable {range : ToneRange} {journal : Journal Recorder}

/-- Silence is recorded, and that changes nothing else. -/
theorem stop (rations : Rations range limit journal) {request : SinkRequest}
    (silent : request.tone? = none) (other : request ≠ .handling)
    (granted : granted? ⟨request, none⟩ = some .stop)
    : Rations range limit (journal.write request (journal.sink.record .stop, none)) := by
  have since := sinceCleared_concat journal.entries ⟨request, none⟩ other
  refine ⟨rations.range, rations.failAt, ?_, ?_, rations.answered.concat ?_⟩
  · simp [Journal.write, record, since, granted, rations.tones]
  · simp [Journal.write, since, played_record_stop, tonesAsked, silent, rations.played]
  · simp [refusalAfter, silent]

/-- A tone is recorded if there is room, and is refused otherwise. -/
theorem sound (rations : Rations range limit journal) (sounds : tone ≠ .stop)
    : Rations range limit (journal.write (.sound tone) (ToneSink.emit journal.sink tone)) := by
  let asked := tonesAsked (sinceCleared journal.entries)
  have since (refusal : Option SinkError) :=
    sinceCleared_concat journal.entries ⟨.sound tone, refusal⟩ nofun
  have asks : SinkRequest.tone? (.sound tone) = some tone := if_neg sounds
  have onceMore (refusal : Option SinkError)
      : tonesAsked (sinceCleared journal.entries ++ [⟨.sound tone, refusal⟩]) = asked + 1 := by
    simp [tonesAsked, asked, asks]
  have played : journal.sink.played.length = min limit asked := rations.played
  by_cases room : asked < limit
  · rw [Nat.min_eq_right (Nat.le_of_lt room)] at played
    rw [emit_of_room rations.failAt fun _ => Nat.ne_of_lt (played.trans_lt room)]
    refine ⟨rations.range, rations.failAt, ?_, ?_, rations.answered.concat ?_⟩
    · simp [Journal.write, record, since, granted?, rations.tones]
    · rw [Journal.write, since, onceMore, Nat.min_eq_right room, played_record _ sounds,
        List.length_append, played, List.length_singleton]
    · exact (if_neg fun refuses => room.not_ge refuses.2).symm
  · have full : limit ≤ asked := Nat.le_of_not_lt room
    rw [Nat.min_eq_left full] at played
    rw [emit_of_full rations.failAt sounds played]
    refine ⟨rations.range, rations.failAt, ?_, ?_, rations.answered.concat ?_⟩
    · simp [Journal.write, since, granted?, rations.tones]
    · rw [Journal.write, since, onceMore, Nat.min_eq_left (Nat.le_succ_of_le full), played]
    · exact (if_pos ⟨Option.isSome_of_eq_some asks, full⟩).symm

/-- The recorder goes on like that after every request, by cases on the request. -/
theorem write (rations : Rations range limit journal) (request : SinkRequest)
    : Rations range limit (journal.write request (answer cleared journal.sink request)) := by
  cases request with
  | sound tone =>
      rw [answer]
      by_cases stops : tone = .stop
      · subst stops
        rw [emit_of_room rations.failAt (absurd rfl)]
        exact rations.stop (by decide) nofun rfl
      · exact rations.sound stops
  | silence => exact rations.stop rfl nofun rfl
  | handling =>
      have since := sinceCleared_handling journal.entries
      refine ⟨rations.range, rations.failAt, ?_, ?_, rations.answered.concat ?_⟩
      · simp [Journal.write, answer, cleared, clear, since]
      · simp [Journal.write, answer, cleared, clear, since, Recorder.played, tonesAsked]
      · simp [answer, cleared, refusalAfter, SinkRequest.tone?]

theorem used (rations : Rations range limit journal) (usages : List Usage)
    : Rations range limit (used (Journal.handled cleared) journal usages) :=
  Journal.preserves_used (Rations range limit) (fun request rations => rations.write request)
    rations usages

end Rations

end Recorder

-----------------------------------------------------------------------------------------
-- Runs up to the first refusal
-----------------------------------------------------------------------------------------

namespace Player

/-- The tones among requests, without those that fall silent at once. -/
def sounding (requests : List Tone) : List Tone :=
  requests.filter (· ≠ .stop)

variable [ToneSink τ]

/-- A player on a recorder that has taken all that another output was asked for, which refuses
nothing.
-/
structure Shadows (limit : Nat) (limited : Player Recorder) (wide : Player (Tap τ)) : Prop where
  machine : limited.machine = wide.machine
  program : limited.program = wide.program
  tones : limited.sink.tones.toList = wide.sink.requests
  failAt : limited.sink.failAt = some limit
  within : limited.sink.played.length ≤ limit
  steady : NeverRefuses wide.sink

/-- An attempt that asks for one tone more than the limit allows. -/
structure Exceeds (limit : Nat) (range : ToneRange) (before : Player (Tap τ)) (tone : Tone)
    (after : Player (Tap τ))
    : Prop where
  sounds : tone ≠ .stop
  allowed : (sounding before.sink.requests).length = limit
  succeeds : before.attempt? range = some (after, none)
  asked : after.sink.requests = before.sink.requests ++ [tone]

/-- What is left of a player when the recorder refuses. -/
structure Stops (limit : Nat) (before : Player (Tap τ)) (stopped : Player Recorder) (fault : Fault)
    : Prop where
  cause : fault = ⟨.refused (.injected limit), before.program.cursor⟩
  machine : stopped.machine = { before.machine with lastFault := some fault }
  program : stopped.program = before.program
  tones : stopped.sink.tones.toList = before.sink.requests
  within : stopped.sink.played.length ≤ limit

/-- What attempts on both lead to: the same, unless the recorder stops one tone too many. -/
inductive SameOrStops (limit : Nat) (range : ToneRange) (before : Player (Tap τ))
    : Option (Player Recorder × Option Fault) → Option (Player (Tap τ) × Option Fault) → Prop
  | ended : SameOrStops limit range before none none
  | same {limited wide fault} (shadows : Shadows limit limited wide)
    : SameOrStops limit range before (some (limited, fault)) (some (wide, fault))
  | stops {stopped fault tone after} (exceeds : Exceeds limit range before tone after)
    (stops : Stops limit before stopped fault)
    : SameOrStops limit range before (some (stopped, some fault)) (some (after, none))

namespace Shadows

variable {limit : Nat} {limited : Player Recorder} {wide : Player (Tap τ)}

theorem played_eq (shadows : Shadows limit limited wide)
    : limited.sink.played = sounding wide.sink.requests :=
  congrArg sounding shadows.tones

/-- The recorder answers what both are asked as the other output does, unless it was asked for as
many tones as it may take, and this is one more; by cases on the tone and the room.
-/
theorem attempt (shadows : Shadows limit limited wide) (range : ToneRange)
    {instruction : Instruction} (here : wide.program.current? = some instruction)
    : SameOrStops limit range wide (some (limited.attempt range instruction))
        (some (wide.attempt range instruction)) := by
  have played := shadows.played_eq
  obtain ⟨machine, program, recorder⟩ := limited
  obtain ⟨rfl, rfl, tones, failAt, within, steady⟩ := shadows
  let start : Player Recorder := ⟨wide.machine, wide.program, recorder⟩
  have hereLimited : start.program.current? = some instruction := here
  cases answer
      : wide.machine.move range wide.program.size wide.program.cursor instruction with
  | error cause =>
      have answerLimited
          : start.machine.move range start.program.size start.program.cursor instruction
            = .error cause := answer
      rw [attempt_of_error here answer, attempt_of_error hereLimited answerLimited]
      exact .same ⟨rfl, rfl, tones, failAt, within, steady⟩
  | ok move =>
      have answerLimited
          : start.machine.move range start.program.size start.program.cursor instruction
            = .ok move := answer
      cases asks : move.tone with
      | none =>
          rw [attempt_of_silent here answer asks,
            attempt_of_silent hereLimited answerLimited asks]
          exact .same ⟨rfl, rfl, tones, failAt, within, steady⟩
      | some tone =>
          have taken := steady.emit tone
          have onWide := attempt_of_taken here answer asks taken
          have requests
              : (ToneSink.after wide.sink [tone]).requests = wide.sink.requests ++ [tone] :=
            congrArg Tap.requests (ToneSink.after_tap wide.sink [tone])
          by_cases room : tone ≠ .stop → recorder.played.length ≠ limit
          · have granted := recorder.emit_of_room failAt room
            rw [attempt_of_taken hereLimited answerLimited asks granted, onWide]
            refine .same ⟨rfl, rfl, ?_, failAt, recorder.length_played_record within room,
              steady.after [tone]⟩
            rw [requests, ← tones]
            exact Array.toList_push
          · obtain ⟨sounds, full⟩ := Classical.not_imp.mp room
            have full : recorder.played.length = limit := Decidable.not_not.mp full
            have refused := recorder.emit_of_full failAt sounds full
            rw [attempt_of_refused hereLimited answerLimited asks refused, onWide]
            refine .stops ⟨sounds, played ▸ full, ?_, requests⟩ ⟨rfl, rfl, rfl, tones, within⟩
            rw [attempt?, here, Option.map_some, onWide]
            rfl

theorem attempt? (shadows : Shadows limit limited wide) (range : ToneRange)
    : SameOrStops limit range wide (limited.attempt? range) (wide.attempt? range) := by
  rw [Player.attempt?, Player.attempt?, shadows.program]
  cases here : wide.program.current? with
  | none => exact .ended
  | some instruction => exact shadows.attempt range here

end Shadows

/-- What runs on both lead to. Either both lead to the same, or the run on the recorder stops where
the other one asks for one tone too many, and both have come there the same way.
-/
inductive RunsOrStops (limit : Nat) (range : ToneRange) (reporter : ρ → Nat → Nat → ρ)
    (start : Player (Tap τ)) (report : ρ)
    : Run Recorder ρ → Run (Tap τ) ρ → Prop
  | same {limited wide told outcome} (shadows : Shadows limit limited wide)
    : RunsOrStops limit range reporter start report ⟨limited, told, outcome⟩ ⟨wide, told, outcome⟩
  | stops {before told tone after stopped fault whole}
    (way : Reaches range reporter start report before told)
    (exceeds : Exceeds limit range before tone after)
    (stops : Stops limit before stopped fault)
    (later : after.sink.requests <+: whole.player.sink.requests)
    : RunsOrStops limit range reporter start report ⟨stopped, told, some (.faulted fault)⟩ whole

namespace RunsOrStops

variable {limit : Nat} {range : ToneRange} {reporter : ρ → Nat → Nat → ρ}
variable {start : Player (Tap τ)} {report : ρ} {run : Run Recorder ρ} {whole : Run (Tap τ) ρ}

/-- The way to where the recorder stops can be continued backwards. -/
theorem step {next : Player (Tap τ)} (succeeds : start.attempt? range = some (next, none))
    (rest
      : RunsOrStops limit range reporter next
          (reporter report next.program.cursor next.program.size) run whole)
    : RunsOrStops limit range reporter start report run whole := by
  cases rest with
  | same shadows => exact .same shadows
  | stops way exceeds stops later => exact .stops (.step succeeds way) exceeds stops later

theorem within (comes : RunsOrStops limit range reporter start report run whole)
    : run.player.sink.played.length ≤ limit := by
  cases comes with
  | same shadows => exact shadows.within
  | stops _ _ stops _ => exact stops.within

theorem lt_of_exceeds {before after later : Player (Tap τ)} {tone : Tone}
    (exceeds : Exceeds limit range before tone after)
    (goesOn : after.sink.requests <+: later.sink.requests)
    : limit < (sounding later.sink.requests).length := by
  have asked : sounding after.sink.requests = sounding before.sink.requests ++ [tone] := by
    simp [exceeds.asked, sounding, exceeds.sounds]
  have more : limit < (sounding after.sink.requests).length := by
    rw [asked, List.length_append, exceeds.allowed]
    exact Nat.lt_succ_self limit
  have isPrefix : sounding after.sink.requests <+: sounding later.sink.requests :=
    goesOn.filter _
  exact more.trans_le isPrefix.length_le

theorem exceeds_of_lt (comes : RunsOrStops limit range reporter start report run whole)
    (more : limit < (sounding whole.player.sink.requests).length)
    : ∃ before tone after fault,
        Reaches range reporter start report before run.report
        ∧ Exceeds limit range before tone after
        ∧ after.sink.requests <+: whole.player.sink.requests
        ∧ Stops limit before run.player fault
        ∧ run.outcome = some (.faulted fault) := by
  cases comes with
  | same shadows => exact absurd (shadows.played_eq ▸ shadows.within) more.not_ge
  | stops way exceeds stops later => exact ⟨_, _, _, _, way, exceeds, later, stops, rfl⟩

theorem same_of_le (comes : RunsOrStops limit range reporter start report run whole)
    (enough : (sounding whole.player.sink.requests).length ≤ limit)
    : run.player.machine = whole.player.machine
      ∧ run.player.program = whole.player.program
      ∧ run.player.sink.tones.toList = whole.player.sink.requests
      ∧ run.outcome = whole.outcome
      ∧ run.report = whole.report := by
  cases comes with
  | same shadows => exact ⟨shadows.machine, shadows.program, shadows.tones, rfl, rfl⟩
  | stops _ exceeds _ later => exact absurd enough (lt_of_exceeds exceeds later).not_ge

end RunsOrStops

/-- A run on the recorder is the other one up to where it stops, by induction on the budget. -/
theorem Shadows.runWithin {limit : Nat} {limited : Player Recorder} {wide : Player (Tap τ)}
    (shadows : Shadows limit limited wide) (range : ToneRange) (mode : Mode)
    (reporter : ρ → Nat → Nat → ρ) (budget : Nat) (report : ρ)
    : RunsOrStops limit range reporter wide report
        (runWithin range mode reporter budget limited report)
        (runWithin range mode reporter budget wide report) := by
  induction budget generalizing limited wide report with
  | zero =>
      have attempts := shadows.attempt? range
      generalize next : limited.attempt? range = result at attempts
      generalize nextWide : wide.attempt? range = resultWide at attempts
      cases attempts with
      | ended =>
          rw [runWithin_ended next, runWithin_ended nextWide]
          exact .same shadows
      | same | stops =>
          rw [runWithin_zero next, runWithin_zero nextWide]
          exact .same shadows
  | succ budget ih =>
      have attempts := shadows.attempt? range
      generalize next : limited.attempt? range = result at attempts
      generalize nextWide : wide.attempt? range = resultWide at attempts
      cases attempts with
      | ended =>
          rw [runWithin_ended next, runWithin_ended nextWide]
          exact .same shadows
      | @stops stopped fault tone after exceeds stops =>
          rw [runWithin_faulted next, runWithin_step nextWide]
          refine .stops (.refl _ _) exceeds stops ?_
          split
          · exact List.prefix_refl _
          · exact isPrefix_requests_runWithin mode budget after _
      | @same later laterWide fault together =>
          cases fault with
          | some fault =>
              rw [runWithin_faulted next, runWithin_faulted nextWide]
              exact .same together
          | none =>
              have stops : laterWide.suspends mode = later.suspends mode := by
                rw [suspends, suspends, together.program]
              rw [runWithin_step next, runWithin_step nextWide, stops, together.program]
              split
              · exact .same together
              · exact (ih together _).step nextWide

end Player

-----------------------------------------------------------------------------------------
-- Recorders that are told to refuse
-----------------------------------------------------------------------------------------

namespace Recorder

open Player (Exceeds Reaches Stops sounding)

/-- However a recorder that may take `limit` tones is used, by runs of any programs, asked directly,
silenced or cleared, every answer is the one to be expected: since it was cleared last, that many
tones are taken and all others refused, and silence is never refused. What it has recorded is what
it took. So a run on the cleared recorder records no more tones. If the same run on an output that
never refuses asks for more of them, then the recorder's run has come the same way to the
instruction that asks for one too many, and ends there with this refusal. Otherwise both runs lead
to the same.
-/
theorem rations_used [ToneSink τ] (range : ToneRange) (limit : Nat) (usages : List Usage)
    (machine : Machine) (program : Program) (wide : τ) (sameRange : ToneSink.range wide = range)
    (steady : NeverRefuses wide) (mode : Mode) (reporter : ρ → Nat → Nat → ρ) (report : ρ)
    (budget : Nat)
    : let start : Recorder := { range, failAt := some limit }
      let recorder := used cleared start usages
      let asked := entries cleared start usages
      let onCleared : Player Recorder := ⟨machine, program, recorder.clear⟩
      let onWide : Player τ := ⟨machine, program, wide⟩
      let run := onCleared.run mode reporter report budget
      let whole := onWide.tapped.run mode reporter report budget
      Answered (refusalAfter limit) asked
      ∧ recorder.tones.toList = (sinceCleared asked).filterMap granted?
      ∧ recorder.played = sounding ((sinceCleared asked).filterMap granted?)
      ∧ recorder.played.length = min limit (tonesAsked (sinceCleared asked))
      ∧ run.player.sink.played.length ≤ limit
      ∧ whole.viewed Tap.sink = onWide.run mode reporter report budget
      ∧ (limit < (sounding whole.player.sink.requests).length
        → ∃ before tone after fault,
            Reaches range reporter onWide.tapped report before run.report
            ∧ Exceeds limit range before tone after
            ∧ after.sink.requests <+: whole.player.sink.requests
            ∧ Stops limit before run.player fault
            ∧ run.outcome = some (.faulted fault))
      ∧ ((sounding whole.player.sink.requests).length ≤ limit
        → run.player.machine = whole.player.machine
          ∧ run.player.program = whole.player.program
          ∧ run.player.sink.tones.toList = whole.player.sink.requests
          ∧ run.outcome = whole.outcome
          ∧ run.report = whole.report) := by
  intro start recorder asked onCleared onWide run whole
  let journal := ToneSink.used (Journal.handled cleared) ⟨start, []⟩ usages
  have same : journal = ⟨recorder, asked⟩ :=
    congrArg (Journal.mk · journal.entries) (Journal.sink_used cleared _ usages)
  have begins : Rations range limit ⟨start, []⟩ :=
    ⟨rfl, rfl, rfl, (Nat.min_zero limit).symm, .nil⟩
  have rations : Rations range limit ⟨recorder, asked⟩ := same ▸ begins.used usages
  have clear : recorder.clear = start := by
    rw [Recorder.clear, rations.range, rations.failAt]
  have shadows : Player.Shadows limit ⟨machine, program, start⟩ onWide.tapped :=
    ⟨rfl, rfl, rfl, rfl, Nat.zero_le limit, steady.tap []⟩
  have comes : Player.RunsOrStops limit range reporter onWide.tapped report run whole := by
    subst sameRange
    simp only [run, onCleared, clear]
    exact shadows.runWithin (ToneSink.range wide) mode reporter budget report
  exact ⟨rations.answered, rations.tones, congrArg sounding rations.tones, rations.played,
    comes.within,
    (Player.run_viewed Tap.isView_sink onWide.tapped mode reporter report budget).symm,
    comes.exceeds_of_lt, comes.same_of_le⟩

/-- A recorder that may take one tone is asked for more, silenced and cleared. Then a song with a
note, a rest of no length, another note and a last one is over at the second note.
-/
theorem rations_used_melody
    : let usages : List Usage :=
        [.ask (.sound ⟨440, 5⟩), .ask .silence, .ask (.sound ⟨494, 5⟩), .ask .handling,
          .ask (.sound .stop), .ask (.sound ⟨494, 5⟩), .ask (.sound ⟨523, 5⟩)]
      let program : Program :=
        { code := #[.note 262 (.millis 5), .rest (.millis 0), .note 294 (.millis 5),
            .note 330 (.millis 5)] }
      let start : Recorder := { failAt := some 1 }
      let recorder := used cleared start usages
      let asked := entries cleared start usages
      let wide : Recorder := {}
      let onCleared : Player Recorder := ⟨.new 120 1, program, recorder.clear⟩
      let onWide : Player Recorder := ⟨.new 120 1, program, wide⟩
      let run := onCleared.play .continuous 9
      let whole := onWide.tapped.play .continuous 9
      ToneSink.range wide = .pcSpeaker
      ∧ NeverRefuses wide
      ∧ asked.map (·.refusal)
        = [none, none, some (.injected 1), none, none, none, some (.injected 1)]
      ∧ recorder.tones.toList = [⟨0, 0⟩, ⟨494, 5⟩]
      ∧ recorder.played = [⟨494, 5⟩]
      ∧ sounding whole.player.sink.requests = [⟨262, 5⟩, ⟨294, 5⟩, ⟨330, 5⟩]
      ∧ run.outcome = some (.faulted ⟨.refused (.injected 1), 2⟩)
      ∧ run.player.sink.tones.toList = [⟨262, 5⟩, ⟨0, 0⟩]
      ∧ ∃ (before after : Player (Tap Recorder)) (tone : Tone) (fault : Fault),
          Exceeds 1 .pcSpeaker before tone after
          ∧ after.sink.requests <+: whole.player.sink.requests
          ∧ Stops 1 before run.player fault := by
  intro usages program start recorder asked wide onCleared onWide run whole
  have steady : NeverRefuses wide := Recorder.neverRefuses rfl
  obtain ⟨-, tones, played, -, -, -, oneMore, -⟩ :=
    rations_used .pcSpeaker 1 usages (.new 120 1) program wide rfl steady .continuous
      (fun _ _ _ => ()) () 9
  have requests : sounding whole.player.sink.requests = [⟨262, 5⟩, ⟨294, 5⟩, ⟨330, 5⟩] := by
    decide +kernel
  have more : 1 < (sounding whole.player.sink.requests).length := by
    rw [requests]
    decide
  obtain ⟨before, tone, after, fault, -, exceeds, later, stops, -⟩ := oneMore more
  refine ⟨rfl, steady, by decide +kernel, tones.trans ?_, played.trans ?_, requests,
    by decide +kernel, by decide +kernel, before, after, tone, fault, exceeds, later, stops⟩
  · decide +kernel
  · decide +kernel

end Recorder
end Chiptune
