import Chiptune.Proofs.Text.LossyText

/-! Texts and their UTF-8 bytes. Bytes are read strictly as a text exactly if they are its bytes: a
character is read from its own bytes whatever follows them, and from no others.
-/

namespace Chiptune.Utf8

/-- The bytes of a text. -/
def encode (text : List Char) : List UInt8 :=
  text.flatMap String.utf8EncodeChar

/-- Whether a first byte asks for a number of bytes after it, and allows this one as the next. -/
def Leads (byte : UInt8) (count : Nat) (first : UInt8) : Prop :=
  ∃ least greatest,
    lead? byte = some (count, least, greatest)
    ∧ least.toNat ≤ first.toNat
    ∧ first.toNat ≤ greatest.toNat

/-- Bytes that may follow a first byte are all taken, by induction on those after the next. -/
theorem tails_append_of_within {least greatest first : UInt8}
    (within : least.toNat ≤ first.toNat ∧ first.toNat ≤ greatest.toNat) {later : List UInt8}
    (follow : ∀ byte ∈ later, 128 ≤ byte.toNat ∧ byte.toNat ≤ 191) (rest : List UInt8)
    : tails (later.length + 1) least greatest (first :: (later ++ rest)) = first :: later := by
  induction later generalizing least greatest first with
  | nil => simpa [tails, UInt8.le_iff_toNat_le] using within
  | cons second later ih =>
      obtain ⟨next, follow⟩ := List.forall_mem_cons.mp follow
      rw [tails, if_pos (by simpa [UInt8.le_iff_toNat_le] using within)]
      exact congrArg (first :: ·) (ih next follow)

/-- The character that a first byte and those after it stand for. -/
theorem Leads.part {byte first : UInt8} (later : List UInt8)
    (leads : Leads byte (later.length + 1) first)
    (follow : ∀ byte ∈ later, 128 ≤ byte.toNat ∧ byte.toNat ≤ 191) (rest : List UInt8)
    : part byte (first :: later ++ rest)
      = (some (Char.ofNat (codePoint (leadBits byte (later.length + 1)) (first :: later))),
          later.length + 1) := by
  obtain ⟨least, greatest, leads, within⟩ := leads
  have large : ¬byte < 0x80 := by
    unfold lead? at leads
    simp only [Bool.and_eq_true, decide_eq_true_eq, UInt8.le_iff_toNat_le,
      UInt8.lt_iff_toNat_lt, ← UInt8.toNat_inj, UInt8.reduceToNat] at *
    split_ifs at leads <;> omega
  rw [Utf8.part, if_neg large, leads]
  simp [tails_append_of_within within follow rest]

end Chiptune.Utf8
