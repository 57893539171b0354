import BitStore.Decimal.Layout
import BitStore.Text.Quoted

namespace BitStore.Json

inductive Found where
  | null
  | boolean (b : Bool)
  | integer (n : Int)
  | float (bits : UInt64)
  | text (s : List Char)
  | sequence
  | map
  deriving DecidableEq, Repr

def Found.describe : Found → String
  | null => "null"
  | boolean b => s!"boolean `{b}`"
  | integer n => "integer `" ++ String.ofList (Text.integer n) ++ "`"
  | float bits => "floating point `" ++ String.ofList (Decimal.ofBits bits) ++ "`"
  | text s => "string " ++ String.ofList (Text.quoted s)
  | sequence => "sequence"
  | map => "map"

inductive Mismatch where
  | wrongType (found : Found) (expected : String)
  | wrongValue (found : Found) (expected : String)
  | wrongLength (elements : Nat) (expected : String)
  | missing (member : String)
  | duplicate (member : String)
  | refused (reason : String)
  deriving DecidableEq, Repr

def Mismatch.message : Mismatch → String
  | wrongType found expected => "invalid type: " ++ found.describe ++ ", expected " ++ expected
  | wrongValue found expected => "invalid value: " ++ found.describe ++ ", expected " ++ expected
  | wrongLength elements expected => s!"invalid length {elements}, expected {expected}"
  | missing member => s!"missing field `{member}`"
  | duplicate member => s!"duplicate field `{member}`"
  | refused reason => reason

inductive Failure where
  | endOfText
  | malformed
  | mismatch (m : Mismatch)
  deriving DecidableEq, Repr

def Failure.message : Failure → String
  | endOfText => "the text ends too early"
  | malformed => "the text is not JSON"
  | mismatch m => m.message

end BitStore.Json
