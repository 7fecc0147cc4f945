import Chiptune.Proofs.Text.AsciiText
import Chiptune.Text.Lines
import Chiptune.Text.Utf8
import Mathlib.Tactic.Ring
import Mathlib.Tactic.SplitIfs

/-! Lines of text that is decoded with replacement characters. An ASCII byte is a character on its
own wherever it stands, so the lines of the text are those of its bytes, and bytes that are no UTF-8
never take a line break with them.
-/

namespace Chiptune.Utf8

open Ascii (IsAscii)

-----------------------------------------------------------------------------------------
-- Parts
-----------------------------------------------------------------------------------------

theorem parts_zero_cons (byte : UInt8) (rest : List UInt8)
    : parts 0 (byte :: rest) = (part byte rest).1 :: parts (part byte rest).2 rest := rfl

theorem parts_succ_cons (skipped : Nat) (byte : UInt8) (rest : List UInt8)
    : parts (skipped + 1) (byte :: rest) = parts skipped rest := rfl

theorem part_of_lt {byte : UInt8} (ascii : byte < 0x80) (rest : List UInt8)
    : part byte rest = (some (Char.ofNat byte.toNat), 0) :=
  if_pos ascii

theorem le_of_lead? {byte : UInt8} {count : Nat} {least greatest : UInt8}
    (leads : lead? byte = some (count, least, greatest))
    : 0x80 ≤ least := by
  unfold lead? at leads
  split_ifs at leads <;> cases leads <;> decide

theorem length_tails_le (count : Nat) (least greatest : UInt8) (bytes : List UInt8)
    : (tails count least greatest bytes).length ≤ bytes.length := by
  induction bytes generalizing count least greatest with
  | nil => cases count <;> exact Nat.le_refl 0
  | cons byte rest ih =>
      cases count with
      | zero => exact Nat.zero_le _
      | succ count =>
          rw [tails]
          split
          · exact Nat.succ_le_succ (ih count 0x80 0xbf)
          · exact Nat.zero_le _

/-- No character goes on over an ASCII byte, by induction on the bytes before it. -/
theorem tails_append {byte : UInt8} (ascii : byte < 0x80) (count : Nat) {least : UInt8}
    (large : 0x80 ≤ least) (greatest : UInt8) (bytes rest : List UInt8)
    : tails count least greatest (bytes ++ byte :: rest) = tails count least greatest bytes := by
  induction bytes generalizing count least greatest with
  | nil =>
      have outside : ¬ least ≤ byte := UInt8.not_le.mpr (UInt8.lt_of_lt_of_le ascii large)
      cases count <;> simp [tails, outside]
  | cons first bytes ih =>
      cases count with
      | zero => rfl
      | succ count => rw [List.cons_append, tails, tails, ih count (by decide) 0xbf]

theorem part_append {byte : UInt8} (ascii : byte < 0x80) (first : UInt8) (bytes rest : List UInt8)
    : part first (bytes ++ byte :: rest) = part first bytes := by
  unfold part
  split
  · rfl
  · cases leads : lead? first with
    | none => rfl
    | some lead =>
        obtain ⟨count, least, greatest⟩ := lead
        simp only [tails_append ascii count (le_of_lead? leads)]

theorem snd_part_le (first : UInt8) (bytes : List UInt8)
    : (part first bytes).2 ≤ bytes.length := by
  unfold part
  split
  · exact Nat.zero_le _
  · cases lead? first with
    | none => exact Nat.zero_le _
    | some lead =>
        obtain ⟨count, least, greatest⟩ := lead
        have bound := length_tails_le count least greatest bytes
        dsimp only
        split
        · next complete => exact complete ▸ bound
        · exact bound

/-- A character is cut off by an ASCII byte at the latest, by induction on the bytes before it. -/
theorem parts_append {byte : UInt8} (ascii : byte < 0x80) {skipped : Nat} {bytes : List UInt8}
    (within : skipped ≤ bytes.length) (rest : List UInt8)
    : parts skipped (bytes ++ byte :: rest)
      = parts skipped bytes ++ some (Char.ofNat byte.toNat) :: parts 0 rest := by
  induction bytes generalizing skipped with
  | nil =>
      obtain rfl : skipped = 0 := Nat.le_zero.mp within
      rw [List.nil_append, parts_zero_cons, part_of_lt ascii]
      rfl
  | cons first bytes ih =>
      cases skipped with
      | succ skipped =>
          rw [List.cons_append, parts_succ_cons, parts_succ_cons]
          exact ih (Nat.le_of_succ_le_succ within)
      | zero =>
          rw [List.cons_append, parts_zero_cons, parts_zero_cons, part_append ascii,
            ih (snd_part_le first bytes)]
          rfl

/-- A text is decoded in two parts where an ASCII byte stands. -/
theorem decodeLossy_append_cons {byte : UInt8} (ascii : byte < 0x80) (first rest : List UInt8)
    : decodeLossy (first ++ byte :: rest)
      = decodeLossy first ++ Char.ofNat byte.toNat :: decodeLossy rest := by
  rw [decodeLossy, parts_append ascii (Nat.zero_le _), List.map_append]
  rfl

/-- After an ASCII byte decoding starts anew. -/
theorem decodeLossy_append {first : List UInt8} (ascii : ∀ byte ∈ first.getLast?, byte < 0x80)
    (rest : List UInt8)
    : decodeLossy (first ++ rest) = decodeLossy first ++ decodeLossy rest := by
  rcases List.eq_nil_or_concat first with rfl | ⟨bytes, byte, rfl⟩
  · rfl
  · have small : byte < 0x80 := ascii byte (by simp)
    rw [List.concat_eq_append, List.append_assoc, List.singleton_append,
      decodeLossy_append_cons small, decodeLossy_append_cons small]
    simp [decodeLossy, parts]

/-- Before an ASCII byte decoding comes to an end. -/
theorem decodeLossy_append_of_head? {rest : List UInt8} (ascii : ∀ byte ∈ rest.head?, byte < 0x80)
    (first : List UInt8)
    : decodeLossy (first ++ rest) = decodeLossy first ++ decodeLossy rest := by
  cases rest with
  | nil =>
      rw [List.append_nil]
      exact (List.append_nil _).symm
  | cons byte rest =>
      have small : byte < 0x80 := ascii byte rfl
      have alone := decodeLossy_append_cons small [] rest
      rw [List.nil_append] at alone
      rw [decodeLossy_append_cons small, alone]
      rfl

/-- ASCII bytes are decoded one by one, by induction on them. -/
theorem length_decodeLossy {bytes : List UInt8} (ascii : ∀ byte ∈ bytes, byte < 0x80)
    : (decodeLossy bytes).length = bytes.length := by
  induction bytes with
  | nil => rfl
  | cons byte bytes ih =>
      rw [List.forall_mem_cons] at ascii
      have split := decodeLossy_append_cons ascii.1 [] bytes
      rw [List.nil_append] at split
      rw [split, List.length_append, List.length_cons, ih ascii.2]
      exact Nat.zero_add _

-----------------------------------------------------------------------------------------
-- ASCII characters
-----------------------------------------------------------------------------------------

theorem le_codePoint (bits : Nat) (tail : List UInt8)
    : bits * 64 ^ tail.length ≤ codePoint bits tail := by
  induction tail generalizing bits with
  | nil => exact Nat.le_of_eq (Nat.mul_one bits)
  | cons byte tail ih =>
      have more : bits * 64 ≤ bits * 64 + byte.toNat % 64 := Nat.le_add_right ..
      calc bits * 64 ^ (byte :: tail).length
        _ = bits * 64 * 64 ^ tail.length := by rw [List.length_cons, Nat.pow_succ']; ring
        _ ≤ (bits * 64 + byte.toNat % 64) * 64 ^ tail.length := Nat.mul_le_mul_right _ more
        _ ≤ codePoint bits (byte :: tail) := ih _

theorem exists_of_tails {count : Nat} {least greatest : UInt8} {bytes : List UInt8}
    (complete : (tails (count + 1) least greatest bytes).length = count + 1)
    : ∃ first rest,
        bytes = first :: rest
        ∧ (least.toNat ≤ first.toNat ∧ first.toNat ≤ greatest.toNat)
        ∧ tails (count + 1) least greatest bytes = first :: tails count 0x80 0xbf rest
        ∧ (tails count 0x80 0xbf rest).length = count := by
  cases bytes with
  | nil => cases complete
  | cons first rest =>
      rw [tails] at complete ⊢
      split at complete
      · next within =>
        rw [if_pos within]
        simp only [Bool.and_eq_true, decide_eq_true_eq, UInt8.le_iff_toNat_le] at within
        exact ⟨first, rest, rfl, within, rfl, Nat.succ.inj complete⟩
      · cases complete

/-- The first tail byte bounds the code point from below. -/
theorem le_codePoint_of_tails {bits count : Nat} {least greatest : UInt8} {bytes : List UInt8}
    (complete : (tails (count + 1) least greatest bytes).length = count + 1)
    (large
      : ∀ first, least.toNat ≤ first → first ≤ greatest.toNat
        → 128 ≤ (bits * 64 + first % 64) * 64 ^ count)
    : 128 ≤ codePoint bits (tails (count + 1) least greatest bytes) := by
  obtain ⟨first, rest, -, ⟨low, high⟩, same, length⟩ := exists_of_tails complete
  have least := large first.toNat low high
  rw [← length] at least
  rw [same]
  exact Nat.le_trans least (le_codePoint ..)

/-- A character of several bytes is not ASCII, by cases on its first byte. -/
theorem le_codePoint_of_lead? {byte : UInt8} {count : Nat} {least greatest : UInt8}
    (leads : lead? byte = some (count, least, greatest)) {bytes : List UInt8}
    (complete : (tails count least greatest bytes).length = count)
    : 128 ≤ codePoint (leadBits byte count) (tails count least greatest bytes) := by
  unfold lead? at leads
  split_ifs at leads with two e0 ed three f0 four f4
  all_goals
    cases leads
    refine le_codePoint_of_tails complete fun first low high => ?_
    simp only [leadBits, Bool.and_eq_true, decide_eq_true_eq, UInt8.le_iff_toNat_le,
      ← UInt8.toNat_inj, UInt8.reduceToNat, Nat.reduceSub, Nat.reduceShiftLeft, Nat.reducePow] at *
    omega

theorem eq_toNat_of_ofNat {code : Nat} {c : Char} (same : Char.ofNat code = c)
    (notNull : c.toNat ≠ 0)
    : code = c.toNat := by
  subst same
  by_cases valid : code.isValidChar
  · rw [show Char.ofNat code = Char.ofNatAux code valid from dif_pos valid]
    rfl
  · rw [show Char.ofNat code = Char.ofNat 0 from dif_neg valid] at notNull
    exact absurd rfl notNull

/-- A character that is ASCII, other than the null character, is one of a single byte. -/
theorem eq_ofNat_of_part {byte : UInt8} {rest : List UInt8} {c : Char}
    (same : (part byte rest).1.getD replacement = c) (ascii : IsAscii c) (notNull : c.toNat ≠ 0)
    : byte < 0x80 ∧ byte = UInt8.ofNat c.toNat := by
  have wide : ¬IsAscii replacement := by decide
  unfold part at same
  split at same
  · next small =>
    have code := eq_toNat_of_ofNat same notNull
    exact ⟨small, by rw [← code, UInt8.ofNat_toNat]⟩
  · exfalso
    cases leads : lead? byte with
    | none =>
        rw [leads] at same
        exact wide ((show replacement = c from same) ▸ ascii)
    | some lead =>
        obtain ⟨count, least, greatest⟩ := lead
        rw [leads] at same
        dsimp only at same
        split at same
        · next complete =>
          have large := le_codePoint_of_lead? leads complete
          rw [eq_toNat_of_ofNat same notNull] at large
          exact Nat.not_le_of_lt ascii large
        · exact wide ((show replacement = c from same) ▸ ascii)

theorem exists_of_parts {c : Char} (ascii : IsAscii c) (notNull : c.toNat ≠ 0) {skipped : Nat}
    {bytes : List UInt8} {before after : List Char}
    (decoded : (parts skipped bytes).map (·.getD replacement) = before ++ c :: after)
    : ∃ first rest, bytes = first ++ UInt8.ofNat c.toNat :: rest ∧ decodeLossy rest = after := by
  induction bytes generalizing skipped before with
  | nil => cases before <;> cases decoded
  | cons byte bytes ih =>
      cases skipped with
      | succ skipped =>
          obtain ⟨first, rest, rfl, same⟩ := ih decoded
          exact ⟨byte :: first, rest, rfl, same⟩
      | zero =>
          rw [parts_zero_cons, List.map_cons] at decoded
          cases before with
          | nil =>
              obtain ⟨here, later⟩ := List.cons.inj decoded
              obtain ⟨small, same⟩ := eq_ofNat_of_part here ascii notNull
              rw [part_of_lt small] at later
              exact ⟨[], bytes, congrArg (· :: bytes) same, later⟩
          | cons d before =>
              obtain ⟨first, rest, rfl, same⟩ := ih (List.cons.inj decoded).2
              exact ⟨byte :: first, rest, rfl, same⟩

/-- An ASCII character of a decoded text, other than the null character, stands for its own byte. -/
theorem exists_of_decodeLossy {c : Char} (ascii : IsAscii c) (notNull : c.toNat ≠ 0)
    {bytes : List UInt8} {before after : List Char}
    (decoded : decodeLossy bytes = before ++ c :: after)
    : ∃ first rest, bytes = first ++ UInt8.ofNat c.toNat :: rest ∧ decodeLossy rest = after :=
  exists_of_parts ascii notNull decoded

theorem eq_nil_of_decodeLossy {bytes : List UInt8} (none : decodeLossy bytes = [])
    : bytes = [] := by
  cases bytes with
  | nil => rfl
  | cons byte rest => cases none

end Chiptune.Utf8

namespace Chiptune.Lines

open Ascii (newline)

-----------------------------------------------------------------------------------------
-- Lines
-----------------------------------------------------------------------------------------

theorem linesFrom_append {line : List Char} (noBreak : '\n' ∉ line) (read rest : List Char)
    : linesFrom read (line ++ '\n' :: rest)
      = withoutReturn (read.reverse ++ line) :: linesFrom [] rest := by
  induction line generalizing read with
  | nil => simp [linesFrom]
  | cons c line ih =>
      rw [List.mem_cons, not_or] at noBreak
      rw [List.cons_append, linesFrom, if_neg (Ne.symm noBreak.1), ih noBreak.2]
      simp

theorem linesFrom_last {line : List Char} (noBreak : '\n' ∉ line) {read : List Char}
    (nonempty : read ≠ [] ∨ line ≠ [])
    : linesFrom read line = [read.reverse ++ line] := by
  induction line generalizing read with
  | nil => simpa [linesFrom] using nonempty
  | cons c line ih =>
      rw [List.mem_cons, not_or] at noBreak
      rw [linesFrom, if_neg (Ne.symm noBreak.1), ih noBreak.2 (.inl (List.cons_ne_nil c read))]
      simp

/-- The bytes of a line without the carriage return of its line break. -/
def bytesWithoutReturn (line : List UInt8) : List UInt8 :=
  if line.getLast? = some 0x0d then line.dropLast else line

/-- The carriage return at the end of a line is the last of its bytes. -/
theorem withoutReturn_decodeLossy (line : List UInt8)
    : withoutReturn (Utf8.decodeLossy line) = Utf8.decodeLossy (bytesWithoutReturn line) := by
  by_cases ends : line.getLast? = some 0x0d
  · obtain ⟨bytes, rfl⟩ := List.getLast?_eq_some_iff.mp ends
    have split := Utf8.decodeLossy_append_cons (show (0x0d : UInt8) < 0x80 by decide) bytes []
    rw [bytesWithoutReturn, if_pos ends, List.dropLast_concat, split]
    exact (if_pos List.getLast?_concat).trans List.dropLast_concat
  · have plain : (Utf8.decodeLossy line).getLast? ≠ some '\r' := by
      intro last
      obtain ⟨before, decoded⟩ := List.getLast?_eq_some_iff.mp last
      obtain ⟨first, rest, rfl, none⟩ :=
        Utf8.exists_of_decodeLossy (by decide) (by decide) decoded
      rw [Utf8.eq_nil_of_decodeLossy none] at ends
      exact ends List.getLast?_concat
    rw [bytesWithoutReturn, if_neg ends, withoutReturn, if_neg plain]

theorem newline_notMem_decodeLossy {line : List UInt8} (noBreak : newline ∉ line)
    : '\n' ∉ Utf8.decodeLossy line := by
  intro member
  obtain ⟨before, after, decoded⟩ := List.append_of_mem member
  obtain ⟨first, rest, rfl, -⟩ := Utf8.exists_of_decodeLossy (by decide) (by decide) decoded
  exact noBreak (List.mem_append_right first List.mem_cons_self)

/-- A line of bytes before a break is decoded as the first line. -/
theorem lines_decodeLossy_append {line : List UInt8} (noBreak : newline ∉ line)
    (rest : List UInt8)
    : lines (Utf8.decodeLossy (line ++ newline :: rest))
      = Utf8.decodeLossy (bytesWithoutReturn line) :: lines (Utf8.decodeLossy rest) := by
  rw [Utf8.decodeLossy_append_cons (by decide), ← withoutReturn_decodeLossy]
  exact linesFrom_append (newline_notMem_decodeLossy noBreak) [] _

theorem lines_decodeLossy_last {line : List UInt8} (noBreak : newline ∉ line)
    (nonempty : line ≠ [])
    : lines (Utf8.decodeLossy line) = [Utf8.decodeLossy line] :=
  linesFrom_last (newline_notMem_decodeLossy noBreak)
    (.inr fun none => nonempty (Utf8.eq_nil_of_decodeLossy none))

/-- Whole lines in front of a text only move the numbers of its lines, by induction on their bytes.
-/
theorem getElem?_lines_decodeLossy {above : List UInt8}
    (whole : ∀ byte ∈ above.getLast?, byte = newline) (rest : List UInt8) (index : Nat)
    : (lines (Utf8.decodeLossy (above ++ rest)))[above.count newline + index]?
      = (lines (Utf8.decodeLossy rest))[index]? := by
  induction length : above.length using Nat.strongRecOn generalizing above with
  | ind bound ih =>
  subst length
  rcases List.eq_nil_or_concat above with rfl | ⟨bytes, last, rfl⟩
  · simp
  · rw [List.concat_eq_append] at *
    obtain rfl : last = newline := whole last (by simp)
    obtain ⟨line, later, split, noBreak⟩ :=
      List.eq_append_cons_of_mem (List.mem_append_right bytes (List.mem_singleton_self newline))
    rw [split] at whole ih ⊢
    have wholeLater : ∀ byte ∈ later.getLast?, byte = newline := by
      intro byte ends
      refine whole byte ?_
      obtain ⟨others, rfl⟩ := List.getLast?_eq_some_iff.mp ends
      exact List.getLast?_eq_some_iff.mpr ⟨line ++ newline :: others, by simp⟩
    have shorter : later.length < (line ++ newline :: later).length := by
      rw [List.length_append, List.length_cons]
      omega
    have count : (line ++ newline :: later).count newline + index
        = later.count newline + index + 1 := by
      rw [List.count_append, List.count_eq_zero_of_not_mem noBreak, List.count_cons_self]
      omega
    rw [count, List.append_assoc, List.cons_append, lines_decodeLossy_append noBreak,
      List.getElem?_cons_succ]
    exact ih _ shorter wholeLater rfl

end Chiptune.Lines
