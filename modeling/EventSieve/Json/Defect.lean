import EventSieve.Decimal.Layout
import EventSieve.Text.Printed

/-!
# What can be wrong with a document

* `Head`: what is known of a value from its start, namely a scalar in full and an array or an
  object by its bracket.
* `Mismatch`: a document that is JSON so far but not of the expected shape, with its wording.
* `Defect`: a document is malformed, ends too early, or does not have the expected shape.
-/

namespace EventSieve.Json

/-- What the start of a value tells of it. -/
inductive Head
  | null
  | boolean (b : Bool)
  | integer (v : Int)
  | float (x : Binary64)
  | text (s : String)
  | array
  | object
deriving DecidableEq

/-- A double in messages: its shortest digits (the even one of two equally near), with a point and a
digit after it; with an exponent unless the power of ten of the first digit is from -5 to 15. -/
def floatText (x : Binary64) : List Char :=
  let d := Decimal.shortest .even x.magnitude
  let body :=
    if x.isZero then ['0', '.', '0']
    else if -5 ≤ d.leadingPower ∧ d.leadingPower ≤ 15 then
      match d.parts with
      | (whole, []) => whole ++ ['.', '0']
      | (whole, fraction) => whole ++ '.' :: fraction
    else d.scientific
  if x.negative then '-' :: body else body

/-- The wording of a value in messages. -/
def Head.describe : Head → String
  | null => "null"
  | boolean true => "boolean `true`"
  | boolean false => "boolean `false`"
  | integer v => "integer `" ++ String.ofList (Text.integerText v) ++ "`"
  | float x => "floating point `" ++ String.ofList (floatText x) ++ "`"
  | text s => "string " ++ Text.printed s
  | array => "sequence"
  | object => "map"

/-- How a document differs from the expected shape. -/
inductive Mismatch
  /-- An object ends without a field that it needs. -/
  | missingField (field : String)
  /-- A field occurs for the second time. -/
  | duplicateField (field : String)
  /-- A word is not one of the expected ones. -/
  | unknownVariant (word expected : String)
  /-- An array that stands for a record ends too early. -/
  | wrongLength (length : Nat) (expected : String)
  /-- A value is of another type than expected. -/
  | wrongType (found : Head) (expected : String)
deriving DecidableEq

/-- The wording of a mismatch. -/
def Mismatch.message : Mismatch → String
  | missingField field => "missing field `" ++ field ++ "`"
  | duplicateField field => "duplicate field `" ++ field ++ "`"
  | unknownVariant word expected => "unknown variant `" ++ word ++ "`, expected " ++ expected
  | wrongLength length expected => "invalid length " ++ length.repr ++ ", expected " ++ expected
  | wrongType found expected => "invalid type: " ++ found.describe ++ ", expected " ++ expected

/-- Why a document cannot be read. -/
inductive Defect
  /-- The text is not JSON. -/
  | malformed
  /-- The text ends before the value does. -/
  | truncated
  /-- The text is JSON so far, but of another shape. -/
  | mismatch (m : Mismatch)
deriving DecidableEq

end EventSieve.Json
