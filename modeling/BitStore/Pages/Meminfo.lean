import BitStore.Checked
import BitStore.Text.Blank
import BitStore.Text.Numeral

namespace BitStore

structure HugePageInfo where
  free : Option Nat
  pageSize : Option Nat
  deriving DecidableEq, Repr

namespace HugePageInfo

def blank : HugePageInfo := ⟨none, none⟩

/-- Lines end at a line feed; a carriage return before it is blank like any other. -/
def lines (cs : List Char) : List (List Char) := cs.splitOn '\n'

def keyAndValue (line : List Char) : Option (List Char) × Option Nat :=
  match Text.nextWord line with
  | none => (none, none)
  | some (key, rest) => (some key, (Text.nextWord rest).bind fun w => Text.count? w.1)

def addLine (info : HugePageInfo) (line : List Char) : Except Fault HugePageInfo := do
  let (key, value) := keyAndValue line
  if key = some "HugePages_Free:".toList then return { info with free := value }
  else if key = some "Hugepagesize:".toList then
    return { info with pageSize := ← value.mapM fun n => Checked.mul n 1024 }
  else return info

def parse (text : List Char) : Except Fault HugePageInfo :=
  (lines text).foldlM addLine blank

end HugePageInfo

end BitStore
