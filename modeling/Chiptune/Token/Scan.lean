import Chiptune.CompileError

/-! From the bytes of a song to its tokens. Blanks separate words, two slashes start a comment
that runs to the end of its line, also within a word, and any other byte outside a comment has to
be graphic.
-/

namespace Chiptune.Token

/-- Whether a comment starts at the front of `bytes`. -/
def startsComment : List UInt8 → Bool
  | first :: second :: _ => first == Ascii.slash && second == Ascii.slash
  | _ => false

/-- The word at the front of `bytes`: its graphic bytes up to a comment. -/
def wordAt : List UInt8 → List UInt8
  | [] => []
  | byte :: rest =>
    if Ascii.isGraphic byte && !startsComment (byte :: rest) then byte :: wordAt rest else []

/-- The bytes at the front of `bytes` that lie on the current line. -/
def lineAt (bytes : List UInt8) : List UInt8 :=
  bytes.takeWhile (· != Ascii.newline)

/-- The tokens of `bytes`, the first of which stands at `here`, after leaving out the first
`skipped` bytes, which lie on the current line.
-/
def scanFrom (skipped : Nat) (here : Position)
    : List UInt8 → Except CompileError (List Token)
  | [] => .ok [⟨.endOfInput, here⟩]
  | byte :: rest =>
    match skipped with
    | skipped + 1 => scanFrom skipped (here.right 1) rest
    | 0 =>
      if byte = Ascii.newline then
        (scanFrom 0 here.nextLine rest).map (⟨.newline, here⟩ :: ·)
      else if Ascii.isBlank byte then scanFrom 0 (here.right 1) rest
      else if startsComment (byte :: rest) then
        scanFrom (lineAt rest).length (here.right 1) rest
      else if Ascii.isGraphic byte then
        (scanFrom (wordAt rest).length (here.right 1) rest).map
          (⟨.ofWord (Ascii.text (byte :: wordAt rest)), here⟩ :: ·)
      else .error ⟨.strayByte byte, here⟩

/-- The tokens of a song's text, ending with the end of input. -/
def scan (source : List UInt8) : Except CompileError (List Token) :=
  scanFrom 0 .start source

end Chiptune.Token
