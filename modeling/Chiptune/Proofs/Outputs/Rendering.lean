import Chiptune.Proofs.Outputs.Bytes
import Chiptune.Proofs.Outputs.Journal
import Mathlib.Data.List.Forall2
import Mathlib.Data.List.TakeWhile

/-! Renderings are put together from tones. Each tone that a file is asked for before it is closed
adds as many samples as fit in its duration, and nothing else adds any. What is cut off from one
tone is not made up for by the next, so that the file can be short by one sample for each of them.
-/

namespace Chiptune

open ToneSink (answer entries used)

-----------------------------------------------------------------------------------------
-- Samples of a wave
-----------------------------------------------------------------------------------------

namespace SquareWave

/-- A sample is silent exactly where there is no frequency or no rate. -/
theorem next_eq_silent_iff (wave : SquareWave) (hertz : UInt32)
    : (wave.next hertz).1 = .silent ↔ hertz = 0 ∨ wave.rate = 0 := by
  unfold next
  split
  · next none => simpa using none
  · next sounds =>
    simp only [Bool.or_eq_true, decide_eq_true_eq] at sounds
    simp only [sounds, iff_false]
    split <;> nofun

/-- A rendering puts as many samples as asked for after those that there are, and they are silent or
not as the frequency is; by induction on their number.
-/
theorem exists_render (wave : SquareWave) (hertz : UInt32) (count : Nat) (levels : Array Level)
    : ∃ part : List Level,
        (wave.render hertz count levels).1.toList = levels.toList ++ part
        ∧ (wave.render hertz count levels).2.rate = wave.rate
        ∧ part.length = count
        ∧ ∀ level ∈ part, level = .silent ↔ hertz = 0 ∨ wave.rate = 0 := by
  induction count generalizing wave levels with
  | zero => exact ⟨[], (List.append_nil _).symm, rfl, rfl, List.forall_mem_nil _⟩
  | succ count ih =>
      have sameRate := wave.rate_next hertz
      obtain ⟨part, samples, rate, length, silent⟩ :=
        ih (wave.next hertz).2 (levels.push (wave.next hertz).1)
      rw [sameRate] at rate silent
      refine ⟨(wave.next hertz).1 :: part, ?_, rate, congrArg (· + 1) length, ?_⟩
      · rw [render, samples, Array.toList_push, List.append_assoc, List.singleton_append]
      · exact List.forall_mem_cons.mpr ⟨wave.next_eq_silent_iff hertz, silent⟩

end SquareWave

-----------------------------------------------------------------------------------------
-- Reading a file
-----------------------------------------------------------------------------------------

theorem Tone.totalMillis_cons (tone : Tone) (later : List Tone)
    : totalMillis (tone :: later) = tone.millis.toNat + totalMillis later := by
  have sum (tones : List Tone) : totalMillis tones = (tones.map (·.millis.toNat)).sum := by
    rw [totalMillis, List.sum_eq_foldl, List.foldl_map]
  rw [sum, sum, List.map_cons, List.sum_cons]

namespace WaveFile

/-- The signed numbers of 16 bits that bytes stand for. -/
def signedValues : List UInt8 → List Int
  | low :: high :: later => signedValue [low, high] :: signedValues later
  | _ => []

/-- The samples in a file, of which there are as many bytes as its header says. -/
def readSamples (content : List UInt8) : List Int :=
  let dataSize := unsignedValue ((content.drop 40).take 4)
  signedValues ((content.drop headerSize).take dataSize)

theorem signedValues_flatMap (levels : List Level)
    : signedValues (levels.flatMap sampleBytes) = levels.map amplitude := by
  induction levels with
  | nil => rfl
  | cons level later ih =>
      rw [List.flatMap_cons, List.map_cons, ← ih, ← signedValue_sampleBytes]
      rfl

theorem length_flatMap_sampleBytes (levels : List Level)
    : (levels.flatMap sampleBytes).length = 2 * levels.length := by
  induction levels with
  | nil => rfl
  | cons level later ih =>
      rw [List.flatMap_cons, List.length_append, ih, List.length_cons]
      simp only [sampleBytes, bytes16, List.length_cons, List.length_nil]
      omega

/-- The header ends with the number of bytes after it. -/
theorem exists_header_eq (file : WaveFile)
    : ∃ front,
        front.length = 40 ∧ file.header = front ++ bytes32 (2 * file.samples.size) := by
  refine ⟨_, ?_, rfl⟩
  simp [asciiBytes, bytes32, bytes16]

/-- What is read from a file is what was rendered, if the file is smaller than four gigabytes. -/
theorem readSamples_bytes {file : WaveFile} (fits : file.bytes.length < UInt32.size)
    : readSamples file.bytes = file.samples.toList.map amplitude := by
  obtain ⟨front, frontLength, header⟩ := file.exists_header_eq
  have dataLength
      : (file.samples.toList.flatMap sampleBytes).length = 2 * file.samples.size :=
    length_flatMap_sampleBytes file.samples.toList
  have sizeLength : (bytes32 (2 * file.samples.size)).length = 4 := rfl
  have small : 2 * file.samples.size < UInt32.size := by
    rw [bytes, List.length_append, dataLength] at fits
    omega
  have size
      : (file.bytes.drop 40).take 4 = bytes32 (2 * file.samples.size) := by
    rw [bytes, header, List.append_assoc, ← frontLength, List.drop_left, ← sizeLength,
      List.take_left]
  have samples : file.bytes.drop headerSize = file.samples.toList.flatMap sampleBytes := by
    have headerLength : file.header.length = headerSize := by
      rw [header, List.length_append, frontLength, sizeLength, headerSize]
    rw [bytes, ← headerLength, List.drop_left]
  rw [readSamples, size, unsignedValue_bytes32 small, samples, ← dataLength, List.take_length,
    signedValues_flatMap]

-----------------------------------------------------------------------------------------
-- Parts
-----------------------------------------------------------------------------------------

/-- The samples of a tone: as many as fit in its duration, none of them off zero if the tone is
silence, and all of them as far off zero as the others if it is not.
-/
structure IsPart (rate : UInt32) (tone : Tone) (samples : List Int) : Prop where
  length : samples.length = tone.millis.toNat * rate.toNat / 1000
  natAbs : ∀ sample ∈ samples, sample.natAbs = if tone.frequency = 0 then 0 else 8191

theorem natAbs_amplitude (level : Level)
    : (amplitude level).natAbs = if level = .silent then 0 else 8191 := by
  cases level <;> rfl

/-- A tone adds a part to the samples; at a rate of zero that is empty. -/
theorem exists_extend (file : WaveFile) (tone : Tone)
    : let extended := file.extend tone.frequency (file.wave.samplesIn tone.millis)
      ∃ part,
        extended.samples.toList.map amplitude = file.samples.toList.map amplitude ++ part
        ∧ IsPart file.wave.rate tone part
        ∧ extended.wave.rate = file.wave.rate
        ∧ extended.isClosed = file.isClosed
        ∧ extended.refusal = file.refusal := by
  obtain ⟨levels, samples, rate, length, silent⟩ :=
    file.wave.exists_render tone.frequency (file.wave.samplesIn tone.millis) file.samples
  refine ⟨levels.map amplitude, ?_, ⟨?_, ?_⟩, rate, rfl, rfl⟩
  · rw [extend, samples, List.map_append]
  · rw [List.length_map, length, SquareWave.samplesIn]
  · intro sample member
    obtain ⟨level, inside, rfl⟩ := List.mem_map.mp member
    rw [natAbs_amplitude]
    have positive : file.wave.rate ≠ 0 := by
      intro none
      have empty : levels = [] := by
        simpa [SquareWave.samplesIn, none] using length
      rw [empty] at inside
      cases inside
    simp only [silent level inside, positive, or_false]

/-- The parts of tones are together as long as the tones, less what is cut off from each of them; by
induction on the tones.
-/
theorem length_flatten_parts {rate : UInt32} {tones : List Tone} {parts : List (List Int)}
    (areParts : List.Forall₂ (IsPart rate) tones parts)
    : let count := parts.flatten.length
      let total := Tone.totalMillis tones * rate.toNat
      1000 * count ≤ total
      ∧ total ≤ 1000 * (count + tones.length)
      ∧ (1000 ∣ rate.toNat → 1000 * count = total) := by
  induction areParts with
  | nil => simp [Tone.totalMillis]
  | @cons tone part tones parts isPart _ ih =>
      obtain ⟨atMost, atLeast, exact⟩ := ih
      have length := isPart.length
      have cut := Nat.div_add_mod (tone.millis.toNat * rate.toNat) 1000
      have less := Nat.mod_lt (tone.millis.toNat * rate.toNat) (by decide : 0 < 1000)
      simp only [List.flatten_cons, List.length_append, List.length_cons, Tone.totalMillis_cons,
        Nat.add_mul]
      refine ⟨by omega, by omega, fun whole => ?_⟩
      have none := Nat.mod_eq_zero_of_dvd (Dvd.dvd.mul_left whole tone.millis.toNat)
      have rest := exact whole
      omega

-----------------------------------------------------------------------------------------
-- Files in use
-----------------------------------------------------------------------------------------

/-- Whether the file was closed. -/
def isClosedAfter (entries : List Entry) : Bool :=
  entries.any (·.request = .handling)

/-- The tones that the file was asked for before it was closed. -/
def renderedTones (entries : List Entry) : List Tone :=
  (entries.takeWhile (·.request ≠ .handling)).filterMap (·.request.tone?)

/-- A closed file refuses to be closed again, and every tone, but no demand for silence. -/
def refusalAfter (earlier : List Entry) (request : SinkRequest) : Option SinkError :=
  if isClosedAfter earlier && (request = .handling || request.tone?.isSome) then some .closed
  else none

theorem isClosedAfter_concat (entries : List Entry) (entry : Entry)
    : isClosedAfter (entries ++ [entry])
      = (isClosedAfter entries || decide (entry.request = .handling)) := by
  simp [isClosedAfter]

/-- What is asked for after the end of a file is not rendered. -/
theorem renderedTones_of_closed {entries : List Entry} (closed : isClosedAfter entries)
    (later : List Entry)
    : renderedTones (entries ++ later) = renderedTones entries := by
  obtain ⟨entry, member, handled⟩ := List.any_eq_true.mp closed
  rw [renderedTones, List.takeWhile_append, if_neg, renderedTones]
  intro whole
  have same := (List.takeWhile_prefix _).eq_of_length whole
  have unhandled := List.takeWhile_eq_self_iff.mp same entry member
  simp only [decide_eq_true_eq] at handled unhandled
  exact unhandled handled

theorem renderedTones_of_open {entries : List Entry} (opened : isClosedAfter entries = false)
    (entry : Entry)
    : renderedTones (entries ++ [entry]) = renderedTones entries ++ entry.request.tone?.toList := by
  have unhandled : ∀ other ∈ entries, decide (other.request ≠ .handling) = true := by
    simpa [isClosedAfter] using opened
  rw [renderedTones, renderedTones, List.takeWhile_append_of_pos unhandled,
    List.takeWhile_eq_self_iff.mpr unhandled, List.filterMap_append]
  obtain ⟨request, refusal⟩ := entry
  cases request with
  | sound tone => cases sounds : (SinkRequest.sound tone).tone? <;> simp [sounds]
  | silence | handling => rfl

/-- A file of the given rate, all of whose samples are the parts of the tones in its journal. -/
structure Renders (rate : UInt32) (journal : Journal WaveFile) : Prop where
  sameRate : journal.sink.wave.rate = rate
  steady : journal.sink.refusal = none
  isClosed : journal.sink.isClosed = isClosedAfter journal.entries
  parts
    : ∃ parts,
        journal.sink.samples.toList.map amplitude = parts.flatten
        ∧ List.Forall₂ (IsPart rate) (renderedTones journal.entries) parts
  answered : Answered refusalAfter journal.entries

/-- A closed file is not changed by any request, by cases. -/
theorem answer_of_closed {file : WaveFile} (closed : file.isClosed) (request : SinkRequest)
    : answer close file request
      = (file, if request = .handling || request.tone?.isSome then some .closed else none) := by
  cases request with
  | sound tone =>
      by_cases stops : tone = .stop
      · simp [answer, ToneSink.emit, emit, SinkRequest.tone?, stops]
      · simp [answer, ToneSink.emit, emit, SinkRequest.tone?, stops, closed]
  | silence => rfl
  | handling => simp [answer, close, closed]

/-- An open file takes every tone and every demand for silence, by cases on the request. -/
theorem answer_of_open {file : WaveFile} (opened : file.isClosed = false)
    (steady : file.refusal = none) (request : SinkRequest)
    : answer close file request
      = ({ request.tone?.elim file
            (fun tone => file.extend tone.frequency (file.wave.samplesIn tone.millis)) with
          isClosed := request = .handling }, none) := by
  cases request with
  | sound tone =>
      by_cases stops : tone = .stop
      · simp [answer, ToneSink.emit, emit, SinkRequest.tone?, stops, ← opened]
      · simp [answer, ToneSink.emit, emit, SinkRequest.tone?, stops, opened, room?, steady, extend]
  | silence => simp [answer, ToneSink.silence, SinkRequest.tone?, ← opened]
  | handling => simp [answer, close, SinkRequest.tone?, opened, steady]

namespace Renders

variable {rate : UInt32} {journal : Journal WaveFile}

/-- Requests to a closed file add nothing. -/
theorem write_of_closed (renders : Renders rate journal) (closed : isClosedAfter journal.entries)
    (request : SinkRequest)
    : Renders rate (journal.write request (answer close journal.sink request)) := by
  rw [answer_of_closed (renders.isClosed.trans closed)]
  refine ⟨renders.sameRate, renders.steady, ?_, ?_, renders.answered.concat ?_⟩
  · rw [Journal.write, isClosedAfter_concat, closed]
    exact renders.isClosed.trans closed
  · rw [Journal.write, renderedTones_of_closed closed]
    exact renders.parts
  · rw [refusalAfter, closed, Bool.true_and]

/-- A request to an open file adds the part of its tone, or no part. -/
theorem write_of_open (renders : Renders rate journal)
    (opened : isClosedAfter journal.entries = false) (request : SinkRequest)
    : Renders rate (journal.write request (answer close journal.sink request)) := by
  obtain ⟨parts, samples, areParts⟩ := renders.parts
  rw [answer_of_open (renders.isClosed.trans opened) renders.steady]
  have closes
      : decide (request = .handling)
        = isClosedAfter (journal.entries ++ [⟨request, none⟩]) := by
    rw [isClosedAfter_concat, opened, Bool.false_or]
  have answered : Answered refusalAfter (journal.entries ++ [⟨request, none⟩]) := by
    refine renders.answered.concat ?_
    rw [refusalAfter, opened, Bool.false_and, if_neg Bool.false_ne_true]
  have tones := renderedTones_of_open opened ⟨request, none⟩
  cases sounds : request.tone? with
  | none =>
      refine ⟨renders.sameRate, renders.steady, closes, ⟨parts, samples, ?_⟩, answered⟩
      rw [Journal.write, tones, sounds, Option.toList_none, List.append_nil]
      exact areParts
  | some tone =>
      obtain ⟨part, extended, isPart, sameRate, -, steady⟩ := journal.sink.exists_extend tone
      refine ⟨sameRate.trans renders.sameRate, steady.trans renders.steady, closes,
        ⟨parts ++ [part], ?_, ?_⟩, answered⟩
      · rw [List.flatten_append, List.flatten_singleton, ← samples]
        exact extended
      · rw [Journal.write, tones, sounds, Option.toList_some]
        exact List.rel_append areParts (.cons (renders.sameRate ▸ isPart) .nil)

theorem write (renders : Renders rate journal) (request : SinkRequest)
    : Renders rate (journal.write request (answer close journal.sink request)) := by
  cases closed : isClosedAfter journal.entries with
  | true => exact renders.write_of_closed closed request
  | false => exact renders.write_of_open closed request

end Renders

/-- A file that its storage takes is put together from one part for each tone that it was asked for
before it was closed, however it was used: in runs of any programs, asked directly, closed more than
once, and in the end given up or not. It is as long as all these tones together, less what is cut
off from each of them, and nothing is cut off if the rate is a multiple of a thousand. Only a closed
file refuses anything, and never a demand for silence.
-/
theorem readSamples_used (rate : UInt32) (usages : List Usage)
    : ∃ start,
        create (.ok none) rate = .ok start
        ∧ let file := used close start usages
          let asked := entries close start usages
          let tones := renderedTones asked
          let total := Tone.totalMillis tones * rate.toNat
          Answered refusalAfter asked
          ∧ (file.bytes.length < UInt32.size
            → ∃ parts,
                readSamples file.bytes = parts.flatten
                ∧ List.Forall₂ (IsPart rate) tones parts
                ∧ let count := (readSamples file.bytes).length
                  count ≤ total / 1000
                  ∧ total ≤ 1000 * (count + tones.length)
                  ∧ (1000 ∣ rate.toNat → 1000 * count = total)) := by
  refine ⟨{ wave := { rate } }, rfl, ?_⟩
  intro file asked tones total
  have renders : Renders rate (used (Journal.handled close) ⟨{ wave := { rate } }, []⟩ usages) :=
    Journal.preserves_used (Renders rate) (fun request renders => renders.write request)
      ⟨rfl, rfl, rfl, ⟨[], rfl, .nil⟩, .nil⟩ usages
  refine ⟨renders.answered, fun fits => ?_⟩
  obtain ⟨parts, samples, areParts⟩ := renders.parts
  rw [Journal.sink_used close] at samples
  have read : readSamples file.bytes = parts.flatten := (readSamples_bytes fits).trans samples
  obtain ⟨atMost, atLeast, exact⟩ := length_flatten_parts areParts
  refine ⟨parts, read, areParts, ?_⟩
  rw [read]
  refine ⟨?_, atLeast, exact⟩
  rw [Nat.le_div_iff_mul_le (by decide), Nat.mul_comm]
  exact atMost

/-- At 8500 samples in a second each tone of a millisecond loses half a sample. The third one, a
rest, is asked for directly, and the last one when the file is closed already.
-/
theorem readSamples_used_closed
    : let program : Program :=
        { code := #[.note 440 (.millis 1), .rest (.millis 0), .note 880 (.millis 1)] }
      let usages : List Usage :=
        [.run (.new 120 1) program .continuous 9, .ask (.sound ⟨0, 3⟩), .ask .handling,
          .ask (.sound ⟨440, 5⟩), .ask (.sound .stop), .ask .handling]
      ∃ start,
        create (.ok none) 8500 = .ok start
        ∧ let file := used close start usages
          let asked := entries close start usages
          file.bytes.length < UInt32.size
          ∧ asked.map (·.refusal)
            = [none, none, none, none, none, some .closed, none, some .closed]
          ∧ renderedTones asked = [⟨440, 1⟩, ⟨880, 1⟩, ⟨0, 3⟩]
          ∧ ∃ parts,
              readSamples file.bytes = parts.flatten
              ∧ List.Forall₂ (IsPart 8500) (renderedTones asked) parts
              ∧ (readSamples file.bytes).length = 41 := by
  intro program usages
  obtain ⟨start, created, answered, reads⟩ := readSamples_used 8500 usages
  cases created
  refine ⟨_, rfl, ?_⟩
  intro file asked
  have fits : file.bytes.length < UInt32.size := by decide +kernel
  obtain ⟨parts, read, areParts, -⟩ := reads fits
  exact ⟨fits, by decide +kernel, by decide +kernel, parts, read, areParts, by decide +kernel⟩

end WaveFile
end Chiptune
