import Chiptune.Decimal.Numeral
import Chiptune.Text.Hex
import Chiptune.Yaml.Document

/-! Values that scalars stand for. Plain scalars can be numbers and truth values, and so can literal
ones with a tag that says so; others are text and nothing else.
-/

namespace Chiptune.Yaml.Scalar

/-- The tag of a standard type. -/
def standardTag (type : String) : List Char :=
  ("tag:yaml.org,2002:" ++ type).toList

/-- Whether a scalar can be more than text, being of a standard type. -/
def canBe (scalar : Scalar) (type : String) : Bool :=
  match scalar.style with
  | .plain => true
  | .literal => scalar.tag = some (standardTag type)
  | _ => false

/-- The truth value that a scalar stands for. -/
def toBool? (scalar : Scalar) : Option Bool :=
  let text := String.ofList scalar.text
  if !scalar.canBe "bool" then none
  else if text = "true" || text = "True" || text = "TRUE" then some true
  else if text = "false" || text = "False" || text = "FALSE" then some false
  else none

/-- The value of a digit in a base of at most sixteen. -/
def digit? (base : Nat) (character : Char) : Option Nat :=
  (Hex.digit? character).filter (· < base)

/-- The value of digits, of which there has to be one. -/
def digits? (base : Nat) (digits : List Char) : Option Nat :=
  if digits.isEmpty then none
  else digits.foldlM (fun value digit => (digit? base digit).map (base * value + ·)) 0

/-- The bases that are named by a letter after a zero. -/
def bases : List (Char × Nat) :=
  [('x', 16), ('o', 8), ('b', 2)]

/-- The natural number that a text without a sign stands for. A decimal of several digits does not
begin with zero.
-/
def unsigned? : List Char → Option Nat
  | '0' :: letter :: digits =>
    match bases.lookup letter with
    | some base => digits? base digits
    | none => none
  | text => digits? 10 text

/-- The natural number below `bound` that a scalar stands for. -/
def toNat? (scalar : Scalar) (bound : Nat) : Option Nat :=
  if scalar.canBe "int" then
    let text := if scalar.text.head? = some '+' then scalar.text.drop 1 else scalar.text
    (unsigned? text).filter (· < bound)
  else none

/-- The texts of infinity. -/
def infinities : List (List Char) :=
  [".inf".toList, ".Inf".toList, ".INF".toList]

/-- The texts of what is no number. -/
def undefinedNumbers : List (List Char) :=
  [".nan".toList, ".NaN".toList, ".NAN".toList]

/-- The number that a numeral stands for, if it is not too great. -/
def finite? (text : List Char) : Option Float :=
  ((Numeral.parse? text).map Numeral.toFloat).filter Float.isFinite

/-- The number that a scalar stands for. -/
def toFloat? (scalar : Scalar) : Option Float :=
  let text := scalar.text
  if !scalar.canBe "float" then none
  else if infinities.contains text then some (1.0 / 0.0)
  else if undefinedNumbers.contains text then some (0.0 / 0.0)
  else
    match text with
    | '-' :: magnitude => if infinities.contains magnitude then some (-1.0 / 0.0) else finite? text
    | '+' :: magnitude => if infinities.contains magnitude then some (1.0 / 0.0) else finite? text
    | _ => finite? text

end Chiptune.Yaml.Scalar
