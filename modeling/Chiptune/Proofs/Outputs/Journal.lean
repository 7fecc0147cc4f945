import Chiptune.Proofs.Playback.Sessions

/-! Outputs in use. Programs are run on an output, it is asked for tones, silence is demanded of it,
and its owner handles it. All of that comes to requests, one after another, each with its answer. A
journal writes them down and changes no answer, so that what every request preserves is preserved by
every use.
-/

namespace Chiptune

/-- What an output is asked. -/
inductive SinkRequest where
  | sound (tone : Tone)
  /-- Silence is demanded from outside. -/
  | silence
  /-- The owner of the output handles it: a recorder is cleared, and a file is closed. -/
  | handling
deriving DecidableEq

/-- The tone that is asked for, unless that is to fall silent at once. -/
def SinkRequest.tone? : SinkRequest → Option Tone
  | .sound tone => if tone = .stop then none else some tone
  | _ => none

/-- A request, and why it was refused if it was. -/
structure Entry where
  request : SinkRequest
  refusal : Option SinkError
deriving DecidableEq

/-- How an output is used. A run comes with any machine and program, also with those that an earlier
run has left. One whose budget is spent stands for a moment within a longer run.
-/
inductive Usage where
  | run (machine : Machine) (program : Program) (mode : Mode) (budget : Nat)
  | ask (request : SinkRequest)
deriving DecidableEq

namespace ToneSink

variable [ToneSink σ] (handle : σ → σ × Option SinkError)

/-- What a request leads to, where the owner's way to handle the output is given. -/
def answer (sink : σ) : SinkRequest → σ × Option SinkError
  | .sound tone => emit sink tone
  | .silence => (silence sink, none)
  | .handling => handle sink

/-- The output after a use. -/
def usedOnce (sink : σ) : Usage → σ
  | .run machine program mode budget =>
    ((⟨machine, program, sink⟩ : Player σ).play mode budget).player.sink
  | .ask request => (answer handle sink request).1

/-- The output after uses, one after another. -/
def used (sink : σ) (usages : List Usage) : σ :=
  usages.foldl (usedOnce handle) sink

variable {handle}

/-- What every request preserves is preserved by a run, because that makes requests alone. -/
theorem preserves_run (good : σ → Prop)
    (step : ∀ {sink} tone, good sink → good (emit sink tone).1) {sink : σ} (start : good sink)
    (machine : Machine) (program : Program) (mode : Mode) (budget : Nat)
    : good (usedOnce handle sink (.run machine program mode budget)) := by
  refine Player.runWithin_preserves (fun player : Player σ => good player.sink) ?_ start mode budget
  intro player result good attempted
  rcases Player.sink_attempt? attempted with same | ⟨tone, -, asked⟩
  · rwa [same]
  · rw [asked]
    exact step tone good

/-- What every request preserves is preserved by uses, by induction on their number. -/
theorem used_preserves (good : σ → Prop)
    (step : ∀ {sink} request, good sink → good (answer handle sink request).1) {sink : σ}
    (start : good sink) (usages : List Usage)
    : good (used handle sink usages) := by
  induction usages generalizing sink with
  | nil => exact start
  | cons usage later ih =>
      refine ih ?_
      cases usage with
      | run machine program mode budget =>
          exact preserves_run good (fun tone => step (.sound tone)) start machine program mode
            budget
      | ask request => exact step request start

end ToneSink

-----------------------------------------------------------------------------------------
-- Journals
-----------------------------------------------------------------------------------------

/-- An output, and all that it was asked and has answered. -/
structure Journal (σ : Type) where
  sink : σ
  entries : List Entry

namespace Journal

open ToneSink (IsView answer emit silence used)

/-- The journal after a request with this answer. -/
def write (journal : Journal σ) (request : SinkRequest) (answered : σ × Option SinkError)
    : Journal σ :=
  ⟨answered.1, journal.entries ++ [⟨request, answered.2⟩]⟩

variable [ToneSink σ] {handle : σ → σ × Option SinkError}

instance : ToneSink (Journal σ) where
  range journal := ToneSink.range journal.sink
  emit journal tone :=
    (journal.write (.sound tone) (emit journal.sink tone), (emit journal.sink tone).2)
  silence journal := journal.write .silence (silence journal.sink, none)

omit [ToneSink σ] in
/-- The owner's way to handle an output, written down. -/
def handled (handle : σ → σ × Option SinkError) (journal : Journal σ)
    : Journal σ × Option SinkError :=
  (journal.write .handling (handle journal.sink), (handle journal.sink).2)

theorem isView_sink : IsView (Journal.sink : Journal σ → σ) where
  range _ := rfl
  emit _ _ := rfl

theorem answer_handled (journal : Journal σ) (request : SinkRequest)
    : (answer (handled handle) journal request).1
      = journal.write request (answer handle journal.sink request) := by
  cases request <;> rfl

variable (handle) in
/-- Writing down what happens changes nothing, by induction on the number of uses. -/
theorem sink_used (journal : Journal σ) (usages : List Usage)
    : (used (handled handle) journal usages).sink = used handle journal.sink usages := by
  induction usages generalizing journal with
  | nil => rfl
  | cons usage later ih =>
      refine (ih _).trans (congrArg (used handle · later) ?_)
      cases usage with
      | run machine program mode budget =>
          have run := Player.run_viewed isView_sink ⟨machine, program, journal⟩ mode
            (fun _ _ _ => ()) () budget
          exact (congrArg (·.player.sink) run).symm
      | ask request => exact congrArg Journal.sink (journal.answer_handled request)

/-- What writing down every request preserves is preserved by uses. -/
theorem preserves_used (good : Journal σ → Prop)
    (step
      : ∀ {journal} request,
          good journal → good (journal.write request (answer handle journal.sink request)))
    {journal : Journal σ} (start : good journal) (usages : List Usage)
    : good (used (handled handle) journal usages) := by
  refine ToneSink.used_preserves good ?_ start usages
  intro journal request good
  rw [answer_handled]
  exact step request good

variable (handle) in
/-- A run writes down requests for tones in the range that the output has at the start, behind what
was written down before.
-/
theorem exists_entries_run (journal : Journal σ) (machine : Machine) (program : Program)
    (mode : Mode) (budget : Nat)
    : ∃ added,
        (ToneSink.usedOnce (handled handle) journal (.run machine program mode budget)).entries
          = journal.entries ++ added
        ∧ ∀ entry ∈ added,
            ∃ tone,
              entry.request = .sound tone ∧ (ToneSink.range journal.sink).Admits tone := by
  refine Player.runWithin_preserves
    (fun player : Player (Journal σ) => ∃ added,
      player.sink.entries = journal.entries ++ added
      ∧ ∀ entry ∈ added,
          ∃ tone, entry.request = .sound tone ∧ (ToneSink.range journal.sink).Admits tone)
    ?_ ⟨[], (List.append_nil _).symm, List.forall_mem_nil _⟩ mode budget
  rintro player result ⟨added, written, admitted⟩ attempted
  rcases Player.sink_attempt? attempted with same | ⟨tone, inRange, asked⟩
  · exact ⟨added, by rw [same, written], admitted⟩
  · refine ⟨added ++ [⟨.sound tone, (emit player.sink.sink tone).2⟩], ?_, ?_⟩
    · rw [asked, ← List.append_assoc, ← written]
      rfl
    · exact List.forall_mem_append.mpr
        ⟨admitted, List.forall_mem_singleton.mpr ⟨tone, rfl, inRange⟩⟩

end Journal

/-- All that an output is asked by uses, and what it answers. -/
def ToneSink.entries [ToneSink σ] (handle : σ → σ × Option SinkError) (sink : σ)
    (usages : List Usage)
    : List Entry :=
  (ToneSink.used (Journal.handled handle) ⟨sink, []⟩ usages).entries

-----------------------------------------------------------------------------------------
-- Answers
-----------------------------------------------------------------------------------------

/-- Every answer is the one to be expected after the entries before it. -/
def Answered (expected : List Entry → SinkRequest → Option SinkError) (entries : List Entry)
    : Prop :=
  ∀ earlier entry,
    earlier ++ [entry] <+: entries → entry.refusal = expected earlier entry.request

namespace Answered

variable {expected : List Entry → SinkRequest → Option SinkError} {entries : List Entry}
variable {entry : Entry}

theorem nil : Answered expected [] := by
  intro earlier entry isPrefix
  simp at isPrefix

theorem concat (answered : Answered expected entries)
    (last : entry.refusal = expected entries entry.request)
    : Answered expected (entries ++ [entry]) := by
  intro earlier other isPrefix
  rcases List.prefix_concat_iff.mp isPrefix with same | before
  · obtain ⟨rfl, rfl⟩ := List.append_singleton_inj.mp same
    exact last
  · exact answered earlier other before

end Answered

end Chiptune
