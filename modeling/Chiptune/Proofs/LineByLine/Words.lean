import Chiptune.Proofs.LineByLine
import Chiptune.Proofs.Scanning

/-! The words of a line. Their kinds can be told from their bytes, and a line can be taken apart
from the front into separators and words.
-/

namespace Chiptune.LineByLine

open Ascii

-----------------------------------------------------------------------------------------
-- Kinds
-----------------------------------------------------------------------------------------

theorem forall_byte {P : UInt8 → Prop} (all : ∀ code < 256, P (UInt8.ofNat code)) (byte : UInt8)
    : P byte := by
  have holds := all byte.toNat byte.toNat_lt
  rwa [UInt8.ofNat_toNat] at holds

theorem toNat_char (byte : UInt8) : (Char.ofNat byte.toNat).toNat = byte.toNat := by
  revert byte
  refine forall_byte ?_
  decide +kernel

theorem toUpper_char (byte : UInt8)
    : (Char.ofNat byte.toNat).toUpper = Char.ofNat (upperByte byte).toNat := by
  revert byte
  refine forall_byte ?_
  decide +kernel

theorem isDigit_char (byte : UInt8) : (Char.ofNat byte.toNat).isDigit = isDigitByte byte := by
  revert byte
  refine forall_byte ?_
  decide +kernel

theorem toList_text (bytes : List UInt8)
    : (text bytes).toList = bytes.map fun byte => Char.ofNat byte.toNat :=
  String.toList_ofList

theorem encode_text (bytes : List UInt8) : encode (text bytes).toList = bytes := by
  rw [toList_text, encode, List.map_map]
  refine List.map_id'' (fun byte => ?_) bytes
  rw [Function.comp_apply, toNat_char, UInt8.ofNat_toNat]

theorem upper_text (bytes : List UInt8)
    : upper (text bytes).toList = (text (bytes.map upperByte)).toList := by
  rw [toList_text, toList_text, upper, List.map_map, List.map_map]
  exact List.map_congr_left fun byte _ => toUpper_char byte

theorem isAscii_spelling (keyword : Keyword) : ∀ c ∈ keyword.spelling.toList, IsAscii c := by
  have all : keyword.spelling.toList.all fun c => decide (IsAscii c) := by
    cases keyword <;> decide +kernel
  intro c member
  exact of_decide_eq_true (List.all_eq_true.mp all c member)

/-- A word spells what its bytes spell, because a spelling is given back by its bytes. -/
theorem spelling_beq (keyword : Keyword) (word : List UInt8)
    : (keyword.spelling.toList == upper (text word).toList)
      = (encode keyword.spelling.toList == word.map upperByte) := by
  rw [upper_text, Bool.eq_iff_iff, beq_iff_eq, beq_iff_eq]
  constructor
  · intro same
    rw [same, encode_text]
  · intro same
    rw [← same, text_encode (isAscii_spelling keyword), String.toList_ofList]

theorem digitsValue_text (word : List UInt8) : digitsValue (text word).toList = decimal word := by
  have value (byte : UInt8) : (Char.ofNat byte.toNat).toNat - '0'.toNat = byte.toNat - 0x30 :=
    congrArg (· - 0x30) (toNat_char byte)
  simp only [digitsValue, Nat.ofDigitChars, decimal, toList_text, List.foldl_map, value]

theorem isDigits_text {word : List UInt8} (nonempty : word ≠ [])
    : isDigits (text word).toList = word.all isDigitByte := by
  have some : word.isEmpty = false := List.isEmpty_eq_false_iff.mpr nonempty
  rw [isDigits, toList_text, List.isEmpty_map, some, List.all_map]
  exact congrArg word.all (funext isDigit_char)

/-- The kind of a word's text is the one that its bytes have. -/
theorem ofWord_text {word : List UInt8} (nonempty : word ≠ [])
    : TokenKind.ofWord (text word) = kindOf word := by
  rw [TokenKind.ofWord, Keyword.ofWord?, kindOf,
    show (fun keyword : Keyword => keyword.spelling.toList == upper (text word).toList) = _ from
      funext fun keyword => spelling_beq keyword word]
  cases Keyword.all.find? fun keyword =>
      encode keyword.spelling.toList == word.map upperByte with
  | some keyword => rfl
  | none =>
      rw [number?, isDigits_text nonempty, digitsValue_text]
      by_cases digits : word.all isDigitByte && decimal word < UInt32.size
      · rw [if_pos digits]
        exact (if_pos digits).symm
      · rw [if_neg digits]
        exact (if_neg digits).symm

-----------------------------------------------------------------------------------------
-- Places
-----------------------------------------------------------------------------------------

theorem bne_newline {line : List UInt8} (noBreak : newline ∉ line)
    : ∀ byte ∈ line, (byte != newline) = true := by
  intro byte member
  rw [bne_iff_ne]
  rintro rfl
  exact noBreak member

/-- A text goes on with `rest` at an offset. -/
def GoesOn (source : List UInt8) (offset : Nat) (rest : List UInt8) : Prop :=
  ∃ before, source = before ++ rest ∧ before.length = offset

namespace GoesOn

variable {source run rest : List UInt8} {byte : UInt8} {offset : Nat}

theorem append (here : GoesOn source offset (run ++ rest))
    : GoesOn source (offset + run.length) rest := by
  obtain ⟨before, rfl, rfl⟩ := here
  exact ⟨before ++ run, (List.append_assoc ..).symm, List.length_append⟩

theorem tail (here : GoesOn source offset (byte :: rest)) : GoesOn source (offset + 1) rest :=
  append (show GoesOn source offset ([byte] ++ rest) from here)

theorem eq_length (here : GoesOn source offset []) : offset = source.length := by
  obtain ⟨before, rfl, rfl⟩ := here
  rw [List.append_nil]

/-- Along a line the column counts the bytes. -/
theorem inText_add (here : GoesOn source offset (run ++ rest)) (noBreak : newline ∉ run)
    : Position.inText source (offset + run.length)
      = (Position.inText source offset).right run.length := by
  obtain ⟨before, rfl, rfl⟩ := here
  have onLine := bne_newline (mt List.mem_reverse.mp noBreak)
  have upTo : (before ++ (run ++ rest)).take (before.length + run.length) = before ++ run := by
    rw [← List.append_assoc, ← List.length_append, List.take_left]
  simp only [Position.inText, Position.right, upTo, List.take_left, List.count_append,
    List.count_eq_zero_of_not_mem noBreak, List.reverse_append,
    List.takeWhile_append_of_pos onLine, List.length_append, List.length_reverse]
  congr 1
  omega

theorem inText_succ (here : GoesOn source offset (byte :: rest)) (noBreak : byte ≠ newline)
    : Position.inText source (offset + 1) = (Position.inText source offset).right 1 :=
  inText_add (show GoesOn source offset ([byte] ++ rest) from here) (by simpa using noBreak.symm)

/-- After a break the line counts one more, and the column starts again. -/
theorem inText_nextLine (here : GoesOn source offset (newline :: rest))
    : Position.inText source (offset + 1) = (Position.inText source offset).nextLine := by
  obtain ⟨before, rfl, rfl⟩ := here
  have upTo : (before ++ newline :: rest).take (before.length + 1) = before ++ [newline] := by
    rw [List.append_cons]
    exact List.take_left' List.length_append
  simp [Position.inText, Position.nextLine, upTo, Nat.add_assoc]

end GoesOn

-----------------------------------------------------------------------------------------
-- Taking lines apart
-----------------------------------------------------------------------------------------

section Stray

variable {source : List UInt8} {found : Except CompileError (List Token)}

theorem unlessStray_append (first second : List (UInt8 × Nat))
    : unlessStray source (first ++ second) found
      = unlessStray source first (unlessStray source second found) := by
  simp only [unlessStray, List.find?_append]
  cases first.find? isStray <;> rfl

theorem unlessStray_cons {byte : UInt8 × Nat} (expected : isStray byte = false)
    (bytes : List (UInt8 × Nat))
    : unlessStray source (byte :: bytes) found = unlessStray source bytes found := by
  rw [unlessStray, List.find?_cons, expected]
  rfl

theorem unlessStray_of_forall {bytes : List (UInt8 × Nat)}
    (expected : ∀ byte ∈ bytes, isStray byte = false)
    : unlessStray source bytes found = found := by
  induction bytes with
  | nil => rfl
  | cons byte bytes ih =>
      rw [unlessStray_cons (expected byte List.mem_cons_self)]
      exact ih fun other member => expected other (List.mem_cons_of_mem _ member)

theorem map_unlessStray (f : List Token → List Token) (bytes : List (UInt8 × Nat))
    : (unlessStray source bytes found).map f = unlessStray source bytes (found.map f) := by
  simp only [unlessStray]
  cases bytes.find? isStray <;> rfl

end Stray

theorem isStray_of_isGraphic {byte : UInt8 × Nat} (graphic : isGraphic byte.1)
    : isStray byte = false := by
  rw [isStray, graphic, Bool.or_true, Bool.not_true]

theorem isStray_of_isBlank {byte : UInt8 × Nat} (blank : isBlank byte.1)
    : isStray byte = false := by
  rw [isStray, blank, Bool.true_or, Bool.not_true]

theorem startsComment_iff {bytes : List UInt8}
    : Token.startsComment bytes ↔ [slash, slash] <+: bytes := by
  match bytes with
  | [] => simp [Token.startsComment]
  | [_] => simp [Token.startsComment]
  | first :: second :: rest =>
    simp only [Token.startsComment, Bool.and_eq_true, beq_iff_eq, List.cons_prefix_cons,
      List.nil_prefix, and_true]
    exact and_congr eq_comm eq_comm

theorem startsComment_of_isBlank {byte : UInt8} (blank : isBlank byte) (rest : List UInt8)
    : Token.startsComment (byte :: rest) = false := by
  rw [Bool.eq_false_iff]
  intro starts
  obtain ⟨rfl, -⟩ := List.cons_prefix_cons.mp (startsComment_iff.mp starts)
  exact absurd blank (by decide)

/-- What follows a line: nothing, or a break. -/
inductive EndsLine : List UInt8 → Prop
  | last : EndsLine []
  | newline (rest : List UInt8) : EndsLine (newline :: rest)

namespace EndsLine

variable {rest line : List UInt8}

/-- No word or comment goes on after the end of a line. -/
theorem apart (ends : EndsLine rest) : Token.Apart line rest := by
  cases ends with
  | last => exact .nil
  | newline => exact .cons_newline

theorem startsComment_append (ends : EndsLine rest) (line : List UInt8)
    : Token.startsComment (line ++ rest) = Token.startsComment line := by
  cases line with
  | nil =>
      cases ends with
      | last => rfl
      | newline rest => cases rest <;> rfl
  | cons byte line => exact ends.apart.startsComment_append

theorem wordAt_append (ends : EndsLine rest) (line : List UInt8)
    : Token.wordAt (line ++ rest) = Token.wordAt line :=
  ends.apart.wordAt_append

theorem lineAt_append (ends : EndsLine rest) (noBreak : Ascii.newline ∉ line)
    : Token.lineAt (line ++ rest) = line := by
  rw [Token.lineAt, List.takeWhile_append_of_pos (bne_newline noBreak)]
  cases ends with
  | last | newline => exact List.append_nil line

theorem below_append (ends : EndsLine rest) (noBreak : Ascii.newline ∉ line)
    : Token.below (line ++ rest) = rest := by
  rw [Token.below_append_of_notMem noBreak]
  cases ends <;> rfl

end EndsLine

theorem live_cons (byte : UInt8) (line : List UInt8) (offset : Nat)
    : live ((byte :: line).zipIdx offset)
      = if Token.startsComment (byte :: line) then []
        else (byte, offset) :: live (line.zipIdx (offset + 1)) := by
  rw [List.zipIdx_cons, live, List.map_cons, List.zipIdx_map_fst]
  exact if_congr startsComment_iff.symm rfl rfl

/-- The word at the front of a line is live, and what is live after it starts with a separator or
not at all; by induction on the line.
-/
theorem exists_live_eq {line word : List UInt8} (atFront : Token.wordAt line = word) (offset : Nat)
    : ∃ later,
        line = word ++ later
        ∧ live (line.zipIdx offset)
          = word.zipIdx offset ++ live (later.zipIdx (offset + word.length))
        ∧ ∀ next ∈ (live (later.zipIdx (offset + word.length))).head?,
            isGraphic next.1 = false := by
  induction line generalizing word offset with
  | nil =>
      subst atFront
      exact ⟨[], rfl, rfl, fun _ isNext => by cases isNext⟩
  | cons byte line ih =>
      rw [Token.wordAt] at atFront
      split at atFront
      · next inWord =>
        subst atFront
        obtain ⟨later, split, alive, ends⟩ := ih rfl (offset + 1)
        have noComment : Token.startsComment (byte :: line) = false :=
          (Bool.not_eq_true' _).mp (Bool.and_eq_true_iff.mp inWord).2
        rw [List.length_cons, ← Nat.add_assoc, Nat.add_right_comm]
        refine ⟨later, congrArg (byte :: ·) split, ?_, ends⟩
        rw [live_cons, noComment, alive]
        rfl
      · next atEnd =>
        subst atFront
        refine ⟨byte :: line, rfl, rfl, ?_⟩
        rw [List.length_nil, Nat.add_zero, live_cons]
        split
        · exact fun _ isNext => by cases isNext
        · next noComment =>
          rintro _ ⟨⟩
          simpa only [noComment, Bool.not_false, Bool.and_true, Bool.not_eq_true] using atEnd

theorem isGraphic_of_mem_wordAt {line : List UInt8} {byte : UInt8}
    (member : byte ∈ Token.wordAt line)
    : isGraphic byte := by
  induction line with
  | nil => cases member
  | cons first line ih =>
      rw [Token.wordAt] at member
      split at member
      · next inWord =>
        rcases List.mem_cons.mp member with rfl | later
        · exact (Bool.and_eq_true_iff.mp inWord).1
        · exact ih later
      · cases member

theorem isGraphic_of_mem_zipIdx {line word : List UInt8} (atFront : Token.wordAt line = word)
    (offset : Nat)
    : ∀ placed ∈ word.zipIdx offset, isGraphic placed.1 := by
  subst atFront
  intro placed member
  exact isGraphic_of_mem_wordAt (List.fst_mem_of_mem_zipIdx member)

section Runs

variable {source : List UInt8} {byte : UInt8 × Nat} {word rest : List (UInt8 × Nat)}

theorem runs_separator (separates : isGraphic byte.1 = false)
    : runs (byte :: rest) = [] :: runs rest := by
  rw [runs, List.splitOnP_cons_eq_if_modifyHead, separates]
  rfl

/-- A word before a separator or the end of a line is the first run. -/
theorem runs_word (graphic : ∀ byte ∈ word, isGraphic byte.1)
    (ends : ∀ next ∈ rest.head?, isGraphic next.1 = false)
    : ∃ later, runs (word ++ rest) = word :: later ∧ runs rest = [] :: later := by
  have within : ∀ byte ∈ word, (!isGraphic byte.1) = false :=
    fun byte member => by rw [graphic byte member]; rfl
  cases rest with
  | nil =>
      rw [List.append_nil]
      exact ⟨[], List.splitOnP_eq_singleton within, rfl⟩
  | cons next rest =>
      have separates := ends next rfl
      exact ⟨runs rest,
        List.splitOnP_append_cons_of_forall_mem within next (by rw [separates]; rfl) rest,
        runs_separator separates⟩

end Runs

section LineTokens

variable {source line word : List UInt8} {byte : UInt8} {offset : Nat}

theorem lineTokens_comment (comment : Token.startsComment (byte :: line))
    : lineTokens source ((byte :: line).zipIdx offset) = [] := by
  rw [lineTokens, live_cons, if_pos comment]
  rfl

theorem lineTokens_separator (noComment : Token.startsComment (byte :: line) = false)
    (separates : isGraphic byte = false)
    : lineTokens source ((byte :: line).zipIdx offset)
      = lineTokens source (line.zipIdx (offset + 1)) := by
  rw [lineTokens, live_cons, noComment, if_neg Bool.false_ne_true, runs_separator separates]
  rfl

theorem exists_lineTokens_eq (atFront : Token.wordAt line = byte :: word)
    (source : List UInt8) (offset : Nat)
    : ∃ later,
        line = (byte :: word) ++ later
        ∧ live (line.zipIdx offset)
          = (byte :: word).zipIdx offset ++ live (later.zipIdx (offset + (word.length + 1)))
        ∧ lineTokens source (line.zipIdx offset)
          = ⟨kindOf (byte :: word), .inText source offset⟩
            :: lineTokens source (later.zipIdx (offset + (word.length + 1))) := by
  obtain ⟨later, split, alive, ends⟩ := exists_live_eq atFront offset
  refine ⟨later, split, alive, ?_⟩
  have graphic := isGraphic_of_mem_zipIdx atFront offset
  obtain ⟨others, first, rest⟩ := runs_word graphic ends
  rw [lineTokens, alive, first, lineTokens, ← List.length_cons (a := byte), rest]
  simp [word?]

end LineTokens

end Chiptune.LineByLine
