import Chiptune.Proofs.Outputs.Bytes
import Chiptune.Proofs.Outputs.Journal
import Mathlib.Data.List.Chain

/-! Speakers are left silent. A tone is stopped before anything else is written, and a frequency
that cannot be written does not start one, so that a device is never told to go on sounding,
whatever comes first or last.
-/

namespace Chiptune

open ToneSink (answer entries used usedOnce)

namespace Speaker

-----------------------------------------------------------------------------------------
-- Reading events
-----------------------------------------------------------------------------------------

/-- What stands in front of the value of a tone event: no time, the sound events and the tone. -/
def eventHead : List UInt8 :=
  List.replicate 16 0 ++ [0x12, 0x00, 0x02, 0x00]

/-- The value of a tone event. -/
def readEvent? (bytes : List UInt8) : Option Int :=
  if bytes.length = 24 ∧ bytes.take 20 = eventHead then some (signedValue (bytes.drop 20))
  else none

/-- The values of tone events, one after another; none if there are other bytes among them. -/
def readEvents? (bytes : List UInt8) : Option (List Int) :=
  if bytes.isEmpty then some []
  else do
    let value ← readEvent? (bytes.take 24)
    let later ← readEvents? (bytes.drop 24)
    some (value :: later)
termination_by bytes.length
decreasing_by
  rename_i some
  have positive := List.length_pos_iff.mpr (mt List.isEmpty_iff.mpr some)
  rw [List.length_drop]
  omega

theorem eventBytes_eq (value : UInt32)
    : eventBytes value = eventHead ++ littleEndian 4 value.toNat := by
  have head
      : List.replicate 16 0 ++ littleEndian 2 soundEvent ++ littleEndian 2 toneCode
        = eventHead := by
    decide
  rw [eventBytes, head]

theorem length_eventBytes (value : UInt32) : (eventBytes value).length = 24 := by
  simp [eventBytes, littleEndian]

theorem readEvent?_eventBytes {value : UInt32} (fits : value.toNat < 0x80000000)
    : readEvent? (eventBytes value) = some (value.toNat : Int) := by
  have headLength : eventHead.length = 20 := rfl
  have head : (eventBytes value).take 20 = eventHead := by
    rw [eventBytes_eq, List.take_left' headLength]
  rw [readEvent?, if_pos ⟨length_eventBytes value, head⟩, eventBytes_eq,
    List.drop_left' headLength, signedValue_littleEndian fits]

/-- Events with values that have no sign are read back, by induction on them. -/
theorem readEvents?_flatMap {values : List UInt32}
    (fit : ∀ value ∈ values, value.toNat < 0x80000000)
    : readEvents? (values.flatMap eventBytes)
      = some (values.map fun value => (value.toNat : Int)) := by
  induction values with
  | nil => rw [List.flatMap_nil, readEvents?]; rfl
  | cons value later ih =>
      obtain ⟨fits, rest⟩ := List.forall_mem_cons.mp fit
      have event := readEvent?_eventBytes fits
      have length := length_eventBytes value
      have some : (eventBytes value ++ later.flatMap eventBytes).isEmpty = false := by
        rw [List.isEmpty_eq_false_iff]
        exact List.append_ne_nil_of_left_ne_nil (List.ne_nil_of_length_pos (by omega)) _
      rw [List.flatMap_cons, readEvents?, some, List.take_left' length, List.drop_left' length,
        event, ih rest]
      rfl

-----------------------------------------------------------------------------------------
-- Values of requests
-----------------------------------------------------------------------------------------

/-- The values of the events that a request brings about. -/
def valuesOf : SinkRequest → List UInt32
  | .sound tone =>
    if 0x80000000 ≤ tone.frequency.toNat then []
    else if tone.frequency = 0 then [0]
    else [tone.frequency, 0]
  | .silence => [0]
  | .handling => []

/-- A frequency is refused if it cannot be written as a signed number of 32 bits. -/
def refusalOf : SinkRequest → Option SinkError
  | .sound tone =>
    if 0x80000000 ≤ tone.frequency.toNat then some (.frequencyTooLarge tone.frequency) else none
  | _ => none

/-- A speaker gives its owner nothing to do. -/
def leave (speaker : Speaker) : Speaker × Option SinkError :=
  (speaker, none)

theorem lt_of_mem_valuesOf {request : SinkRequest} {value : UInt32}
    (member : value ∈ valuesOf request)
    : value.toNat < 0x80000000 := by
  cases request with
  | sound tone =>
      rw [valuesOf] at member
      split at member
      · cases member
      · next fits =>
        split at member
        · rw [List.mem_singleton.mp member]
          decide
        · rcases List.mem_pair.mp member with rfl | rfl
          · exact Nat.lt_of_not_le fits
          · decide
  | silence =>
      rw [List.mem_singleton.mp member]
      decide
  | handling => cases member

/-- No tone in these values goes on: each is stopped by the next one, and the last one is a stop. -/
structure Quiet (values : List UInt32) : Prop where
  chain : values.IsChain fun first second => first = 0 ∨ second = 0
  last : ∀ value ∈ values.getLast?, value = 0

theorem Quiet.append {first second : List UInt32} (quiet : Quiet first) (later : Quiet second)
    : Quiet (first ++ second) where
  chain :=
    List.isChain_append.mpr
      ⟨quiet.chain, later.chain, fun value ends _ _ => .inl (quiet.last value ends)⟩
  last value ends := by
    rw [List.getLast?_append] at ends
    rcases Option.or_eq_some_iff.mp ends with last | ⟨-, last⟩
    · exact later.last value last
    · exact quiet.last value last

theorem quiet_valuesOf (request : SinkRequest) : Quiet (valuesOf request) := by
  have nothing : Quiet [] := ⟨.nil, nofun⟩
  have stop : Quiet [0] := ⟨.singleton 0, by simp⟩
  cases request with
  | sound tone =>
      rw [valuesOf]
      split
      · exact nothing
      · split
        · exact stop
        · exact ⟨by simp, by simp⟩
  | silence => exact stop
  | handling => exact nothing

theorem quiet_flatMap (entries : List Entry) : Quiet (entries.flatMap (valuesOf ·.request)) := by
  induction entries with
  | nil => exact ⟨.nil, nofun⟩
  | cons entry later ih =>
      rw [List.flatMap_cons]
      exact (quiet_valuesOf entry.request).append ih

-----------------------------------------------------------------------------------------
-- Speakers in use
-----------------------------------------------------------------------------------------

/-- A device that takes events gets those of the request, by cases on the request. -/
theorem answer_eq {speaker : Speaker} (takes : speaker.refusal = none) (request : SinkRequest)
    : answer leave speaker request
      = ({ speaker with events := speaker.events ++ valuesOf request }, refusalOf request) := by
  cases request with
  | sound tone =>
      simp only [answer, ToneSink.emit, emit, valuesOf, refusalOf]
      by_cases large : 0x80000000 ≤ tone.frequency.toNat
      · simp [write, large]
      · by_cases silent : tone.frequency = 0
        · simp [write, silent, takes]
        · simp [write, silent, takes, large]
  | silence => simp [answer, ToneSink.silence, write, valuesOf, refusalOf, takes]
  | handling => simp [answer, leave, valuesOf, refusalOf]

/-- A speaker whose events are those of the requests in its journal. -/
structure Speaks (journal : Journal Speaker) : Prop where
  takes : journal.sink.refusal = none
  events : journal.sink.events.toList = journal.entries.flatMap (valuesOf ·.request)
  refusals : ∀ entry ∈ journal.entries, entry.refusal = refusalOf entry.request

namespace Speaks

variable {journal : Journal Speaker}

theorem write (speaks : Speaks journal) (request : SinkRequest)
    : Speaks (journal.write request (answer leave journal.sink request)) := by
  rw [answer_eq speaks.takes]
  refine ⟨speaks.takes, ?_, ?_⟩
  · simp [Journal.write, speaks.events]
  · exact List.forall_mem_append.mpr ⟨speaks.refusals, List.forall_mem_singleton.mpr rfl⟩

theorem readEvents? (speaks : Speaks journal)
    : readEvents? journal.sink.bytes
      = some
          ((journal.entries.flatMap (valuesOf ·.request)).map
            fun value => (value.toNat : Int)) := by
  rw [bytes, speaks.events]
  refine readEvents?_flatMap fun value member => ?_
  obtain ⟨entry, -, inside⟩ := List.mem_flatMap.mp member
  exact lt_of_mem_valuesOf inside

theorem of_start {path : String} {device : Device} {speaker : Speaker}
    (found : start path (.ok device) = .ok speaker) (takes : device.refusal = none)
    : Speaks ⟨speaker, []⟩ := by
  unfold start at found
  split at found
  · cases found
  · next device' same =>
    cases same
    split at found
    · cases found
    · split at found
      · cases found
        exact ⟨takes, rfl, List.forall_mem_nil _⟩
      · cases found

theorem used (speaks : Speaks journal) (usages : List Usage)
    : Speaks (used (Journal.handled leave) journal usages) :=
  Journal.preserves_used Speaks (fun request speaks => speaks.write request) speaks usages

end Speaks

/-- A tone in the range of a speaker has values in that range, or stops. -/
theorem mem_valuesOf_of_admits {tone : Tone} (inRange : ToneRange.pcSpeaker.Admits tone)
    {value : UInt32} (member : value ∈ valuesOf (.sound tone))
    : value = 0 ∨ 21 ≤ value ∧ value ≤ 32766 := by
  rw [valuesOf] at member
  split at member
  · cases member
  · split at member
    · exact .inl (List.mem_singleton.mp member)
    · next sounds =>
      rcases List.mem_pair.mp member with rfl | stop
      · exact .inr (inRange.2.resolve_left sounds)
      · exact .inl stop

/-- However an opened speaker is used, by runs of any programs, asked directly or told to be silent
from outside, the device is left silent. All that is written to it are events that can be read back.
Their values are, request after request, the frequency and a stop for a tone, a stop for silence,
and nothing for a frequency that does not fit, which is the only request refused. So each value that
sounds is followed by a stop, and runs write no values but stops and those in the speaker's range.
-/
theorem readEvents?_used {path : String} {device : Device} {opened : Speaker}
    (found : start path (.ok device) = .ok opened) (takes : device.refusal = none)
    (usages : List Usage)
    : let speaker := used leave opened usages
      let asked := entries leave opened usages
      let values := asked.flatMap (valuesOf ·.request)
      (∀ entry ∈ asked, entry.refusal = refusalOf entry.request)
      ∧ readEvents? speaker.bytes = some (values.map fun value => (value.toNat : Int))
      ∧ (values.IsChain fun first second => first = 0 ∨ second = 0)
      ∧ (∀ last ∈ values.getLast?, last = 0)
      ∧ ∀ machine program mode budget,
          let later := usedOnce leave speaker (.run machine program mode budget)
          ∃ written,
            readEvents? later.bytes
              = some ((values ++ written).map fun value => (value.toNat : Int))
            ∧ ∀ value ∈ written, value = 0 ∨ 21 ≤ value ∧ value ≤ 32766 := by
  intro speaker asked values
  let journal := ToneSink.used (Journal.handled leave) ⟨opened, []⟩ usages
  have same : journal.sink = speaker := Journal.sink_used leave _ usages
  have speaks : Speaks journal := (Speaks.of_start found takes).used usages
  have quiet := quiet_flatMap asked
  refine ⟨speaks.refusals, same ▸ speaks.readEvents?, quiet.chain, quiet.last, ?_⟩
  intro machine program mode budget later
  let run : Usage := .run machine program mode budget
  obtain ⟨added, extended, admitted⟩ :=
    journal.exists_entries_run leave machine program mode budget
  have goesOn : Speaks (usedOnce (Journal.handled leave) journal run) := speaks.used [run]
  have sameLater : (usedOnce (Journal.handled leave) journal run).sink = later :=
    (journal.sink_used leave [run]).trans (congrArg (usedOnce leave · run) same)
  refine ⟨added.flatMap (valuesOf ·.request), ?_, fun value member => ?_⟩
  · rw [← sameLater, goesOn.readEvents?, extended, List.flatMap_append]
    rfl
  · obtain ⟨entry, inside, wrote⟩ := List.mem_flatMap.mp member
    obtain ⟨tone, asks, inRange⟩ := admitted entry inside
    rw [asks] at wrote
    exact mem_valuesOf_of_admits inRange wrote

/-- A song is at fault after a note without a length, the speaker is silenced, and a direct request
asks for too much.
-/
theorem readEvents?_used_fault
    : let device : Device := { capabilities := .ok 0x40000 }
      let opened : Speaker := {}
      let program : Program := { code := #[.note 440 (.millis 0), .rest (.millis 5), .comeBack] }
      let run : Usage := .run (.new 120 1) program .continuous 9
      let usages : List Usage :=
        [run, .ask .silence, .ask (.sound ⟨3000000000, 5⟩), .ask (.sound ⟨7, 5⟩)]
      let speaker := used leave opened usages
      start defaultPath (.ok device) = .ok opened
      ∧ device.refusal = none
      ∧ (entries leave opened usages).map (·.refusal)
        = [none, none, none, some (.frequencyTooLarge 3000000000), none]
      ∧ readEvents? speaker.bytes = some [440, 0, 0, 0, 7, 0]
      ∧ readEvents? (usedOnce leave speaker run).bytes = some [440, 0, 0, 0, 7, 0, 440, 0, 0] := by
  intro device opened program run usages speaker
  have found : start defaultPath (.ok device) = .ok opened := by decide +kernel
  obtain ⟨-, read, -⟩ := readEvents?_used found rfl usages
  obtain ⟨-, readMore, -⟩ := readEvents?_used found rfl (usages ++ [run])
  have later : used leave opened (usages ++ [run]) = usedOnce leave speaker run := rfl
  rw [later] at readMore
  refine ⟨found, rfl, by decide +kernel, read.trans ?_, readMore.trans ?_⟩ <;> decide +kernel

end Speaker
end Chiptune
