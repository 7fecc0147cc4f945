import Chiptune.Yaml.Block
import Chiptune.Yaml.Plain
import Chiptune.Yaml.Quoted
import Chiptune.Yaml.Tag

/-! The tokens of a YAML text. A key of a mapping need not be marked as one: what it was is known
only at the colon after it, and then the token for a key is put in front of it.
-/

namespace Chiptune.Yaml

/-- The place of a node that may turn out to be a key. -/
structure KeyPlace where
  /-- The number of tokens in front of it. -/
  tokenCount : Nat
  /-- Whether it can be nothing but a key, because it stands where the keys of a block stand. -/
  isRequired : Bool
  index : Nat
  line : Nat
  column : Nat

/-- A text as far as it is scanned. -/
structure Scanner where
  cursor : Cursor
  tokens : Array Token := #[]
  /-- The columns of the open block collections, the innermost first. -/
  columns : List Nat := []
  /-- Whether a key that is not marked may begin here. -/
  allowsKey : Bool := true
  /-- The last node at this level of brackets that may turn out to be a key. -/
  candidate : Option KeyPlace := none
  /-- Such nodes at the levels around, the innermost first; as many as there are open brackets. -/
  outerCandidates : List (Option KeyPlace) := []

namespace Scanner

/-- Whether brackets are open. -/
def inFlow (scanner : Scanner) : Bool :=
  !scanner.outerCandidates.isEmpty

/-- The scanner with one more token. -/
def push (scanner : Scanner) (token : Token) : Scanner :=
  { scanner with tokens := scanner.tokens.push token }

/-- The scanner with tokens put in after the first `count` ones. -/
def insert (scanner : Scanner) (count : Nat) (new : Array Token) : Scanner :=
  let tokens := scanner.tokens
  { scanner with tokens := tokens.take count ++ new ++ tokens.extract count tokens.size }

/-- Whether a column lies within the innermost block collection. -/
def isDeeper (scanner : Scanner) (column : Nat) : Bool :=
  scanner.columns.head?.all (· < column)

/-- A block collection that starts at a column, unless it is open already or brackets are: then no
token stands for its start.
-/
def openBlock (scanner : Scanner) (start : Token) (column : Nat) : Scanner × Array Token :=
  if !scanner.inFlow && scanner.isDeeper column then
    ({ scanner with columns := column :: scanner.columns }, #[start])
  else (scanner, #[])

/-- Ends the block collections that a line cannot belong to, unless brackets are open. -/
def closeBlocks (scanner : Scanner) (isClosed : Nat → Bool) : Scanner :=
  if scanner.inFlow then scanner
  else
    let (closed, columns) := scanner.columns.span isClosed
    { scanner with
      tokens := scanner.tokens ++ (closed.map fun _ => Token.blockEnd).toArray, columns }

/-- The scanner when the last candidate is no key after all. -/
def dropCandidate? (scanner : Scanner) : Option Scanner :=
  if scanner.candidate.any (·.isRequired) then none else some { scanner with candidate := none }

/-- The scanner when a node begins here, which may turn out to be a key. -/
def addCandidate? (scanner : Scanner) : Option Scanner :=
  let cursor := scanner.cursor
  if scanner.allowsKey then
    let isRequired := !scanner.inFlow && scanner.columns.head? = some cursor.column
    let place : KeyPlace :=
      ⟨scanner.tokens.size, isRequired, cursor.index, cursor.line, cursor.column⟩
    scanner.dropCandidate?.map fun scanner => { scanner with candidate := some place }
  else some scanner

/-- The greatest number of characters between the start of a key and its colon. -/
def greatestKeyLength : Nat := 1024

/-- Whether a node that began at a place can no more be a key: keys are short and on one line. -/
def isExpired (cursor : Cursor) (place : KeyPlace) : Bool :=
  place.line < cursor.line || place.index + greatestKeyLength < cursor.index

/-- The scanner without the candidates that can no more be keys. -/
def expire? (scanner : Scanner) : Option Scanner :=
  let isLate := isExpired scanner.cursor
  let all := scanner.candidate :: scanner.outerCandidates
  if all.any (·.any fun place => isLate place && place.isRequired) then none
  else
    some { scanner with
      candidate := scanner.candidate.filter (!isLate ·)
      outerCandidates := scanner.outerCandidates.map (·.filter (!isLate ·)) }

/-- The character that may stand in front of a text to tell its encoding. -/
def encodingMark : Char := '\ufeff'

/-- The scanner before the next token. Tabs are skipped only where no key can begin. -/
def skipGap (scanner : Scanner) : (fuel : Nat) → Scanner
  | 0 => scanner
  | fuel + 1 =>
    let start :=
      if scanner.cursor.column = 0 && scanner.cursor.isAt encodingMark then scanner.cursor.advance
      else scanner.cursor
    let skipsTabs := scanner.inFlow || !scanner.allowsKey
    let word := start.skipWhile fun c => c = ' ' || (skipsTabs && c = '\t')
    let next := if word.isAt '#' then word.skipWhile (!isBreak ·) else word
    if next.isAtBreak then
      skipGap { scanner with
        cursor := next.lineEnd.2, allowsKey := scanner.allowsKey || !scanner.inFlow } fuel
    else { scanner with cursor := next }

/-- The scanner after the text. -/
def finish? (scanner : Scanner) : Option (Array Token) :=
  (scanner.closeBlocks fun _ => true).dropCandidate?.map fun scanner =>
    (scanner.push .textEnd).tokens

/-- Scans a directive or a mark between documents, which ends all block collections. -/
def between? (scanner : Scanner) (token : Token) (next : Cursor) : Option Scanner :=
  (scanner.closeBlocks fun _ => true).dropCandidate?.map fun scanner =>
    { scanner.push token with cursor := next, allowsKey := false }

/-- Scans an opening bracket. -/
def openFlow? (scanner : Scanner) (token : Token) : Option Scanner :=
  scanner.addCandidate?.map fun scanner =>
    { scanner.push token with
      cursor := scanner.cursor.advance, allowsKey := true, candidate := none
      outerCandidates := scanner.candidate :: scanner.outerCandidates }

/-- Scans a closing bracket. -/
def closeFlow? (scanner : Scanner) (token : Token) : Option Scanner :=
  scanner.dropCandidate?.map fun scanner =>
    { scanner.push token with
      cursor := scanner.cursor.advance, allowsKey := false
      candidate := scanner.outerCandidates.head?.getD none
      outerCandidates := scanner.outerCandidates.tail }

/-- Scans a comma. -/
def comma? (scanner : Scanner) : Option Scanner :=
  scanner.dropCandidate?.map fun scanner =>
    { scanner.push .comma with cursor := scanner.cursor.advance, allowsKey := true }

/-- Scans an indicator in a block collection, and before it the start of that collection if it is
not open yet. Outside of brackets it has to stand where a key may begin.
-/
def blockIndicator? (scanner : Scanner) (collection token : Token) (allowsKey : Bool)
    : Option Scanner :=
  if !scanner.inFlow && !scanner.allowsKey then none
  else
    let (opened, start) := scanner.openBlock collection scanner.cursor.column
    (opened.insert opened.tokens.size start).dropCandidate?.map fun scanner =>
      { scanner.push token with cursor := scanner.cursor.advance, allowsKey }

/-- Scans the colon before a value. What stands before it is made a key, if it can be one. -/
def value? (scanner : Scanner) : Option Scanner :=
  match scanner.candidate with
  | some place =>
    let (opened, start) := scanner.openBlock .blockMapping place.column
    let keyed := opened.insert place.tokenCount (start.push .key)
    some { keyed.push .value with
      cursor := scanner.cursor.advance, allowsKey := false, candidate := none }
  | none => scanner.blockIndicator? .blockMapping .value !scanner.inFlow

/-- Scans a node or a part of one that may begin a key and is no collection. -/
def node? (scanner : Scanner) (scan : Cursor → Option (Token × Cursor)) : Option Scanner := do
  let scanner ← scanner.addCandidate?
  let (token, cursor) ← scan scanner.cursor
  return { scanner.push token with cursor, allowsKey := false }

/-- Scans a name after its mark. -/
def name? (scanner : Scanner) (token : List Char → Token) : Option Scanner :=
  scanner.node? fun cursor => (Tag.name? cursor).map fun (name, next) => (token name, next)

/-- Scans a scalar in quotes. -/
def quoted? (scanner : Scanner) (style : Style) (quote : Char) : Option Scanner :=
  scanner.node? fun cursor =>
    (Quoted.scan? quote cursor).map fun (text, next) => (.scalar style text, next)

/-- Scans a block scalar. -/
def block? (scanner : Scanner) (style : Style) : Option Scanner := do
  let scanner ← scanner.dropCandidate?
  let (text, cursor) ←
    Block.scan? (style = .folded) scanner.columns.head? scanner.cursor
  return { scanner.push (.scalar style text) with cursor, allowsKey := true }

/-- Scans a plain scalar. After one that ends its line a key may begin. -/
def plain? (scanner : Scanner) : Option Scanner := do
  let scanner ← scanner.addCandidate?
  let indent := (scanner.columns.head?.map (· + 1)).getD 0
  let scanned ← Plain.scan? scanner.inFlow indent scanner.cursor
  return { scanner.push (.scalar .plain scanned.text) with
    cursor := scanned.cursor, allowsKey := scanned.endsLine }

/-- Scans the token that begins with this character. -/
def token? (scanner : Scanner) (character : Char) (rest : List Char) : Option Scanner :=
  let cursor := scanner.cursor
  let isIndicator := scanner.inFlow || endsWord rest
  if cursor.column = 0 && character = '%' then do
    let (token, next) ← Tag.directive? cursor
    scanner.between? token next
  else if cursor.isAtMark Cursor.startMark then
    scanner.between? .documentStart (cursor.advanceBy 3)
  else if cursor.isAtMark Cursor.endMark then
    scanner.between? .documentEnd (cursor.advanceBy 3)
  else
    match character with
    | '[' => scanner.openFlow? .flowSequence
    | '\x7b' => scanner.openFlow? .flowMapping
    | ']' => scanner.closeFlow? .flowSequenceEnd
    | '\x7d' => scanner.closeFlow? .flowMappingEnd
    | ',' => scanner.comma?
    | '-' =>
      if endsWord rest then scanner.blockIndicator? .blockSequence .item true
      else scanner.plain?
    | '?' =>
      if isIndicator then scanner.blockIndicator? .blockMapping .key !scanner.inFlow
      else scanner.plain?
    | ':' => if isIndicator then scanner.value? else scanner.plain?
    | '*' => scanner.name? .alias
    | '&' => scanner.name? .anchor
    | '!' => scanner.node? (Tag.scan? scanner.inFlow)
    | '|' => if scanner.inFlow then none else scanner.block? .literal
    | '>' => if scanner.inFlow then none else scanner.block? .folded
    | '\x27' => scanner.quoted? .singleQuoted '\x27'
    | '\x22' => scanner.quoted? .doubleQuoted '\x22'
    | '%' => none
    | '@' => none
    | '\x60' => none
    | '\t' => none
    | _ => scanner.plain?

/-- Scans on to the end of the text. -/
def toEnd? (scanner : Scanner) : (fuel : Nat) → Option (Array Token)
  | 0 => none
  | fuel + 1 => do
    let scanner ← (scanner.skipGap (scanner.cursor.rest.length + 1)).expire?
    let scanner := scanner.closeBlocks (scanner.cursor.column < ·)
    match scanner.cursor.rest with
    | [] => scanner.finish?
    | character :: rest => (← scanner.token? character rest).toEnd? fuel

end Scanner

/-- The tokens of a text; none if it is not well-formed. -/
def Token.scan? (text : List Char) : Option (Array Token) :=
  if text.all isAllowed then
    let scanner : Scanner := { cursor := { rest := text } }
    scanner.toEnd? (text.length + 1)
  else none

end Chiptune.Yaml
