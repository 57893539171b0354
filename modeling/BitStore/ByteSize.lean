import BitStore.Error
import BitStore.Text.Blank

namespace BitStore

structure ByteSize where
  bytes : Nat
  deriving DecidableEq, Repr

namespace ByteSize

def kilo : Nat := 1024
def mega : Nat := 1024 * kilo
def giga : Nat := 1024 * mega

/-- Units by name, longer names before their own endings. -/
def units : List (List Char × Nat) :=
  [(['G', 'I', 'B'], giga), (['G', 'B'], giga), (['G'], giga),
   (['M', 'I', 'B'], mega), (['M', 'B'], mega), (['M'], mega),
   (['K', 'I', 'B'], kilo), (['K', 'B'], kilo), (['K'], kilo),
   (['B'], 1)]

def splitUnit (s : List Char) : List Char × Nat :=
  match units.find? fun u => u.1.isSuffixOf (s.map Char.toUpper) with
  | some (name, factor) => (s.take (s.length - name.length), factor)
  | none => (s, 1)

def parse (text : List Char) : Except ConfigError ByteSize :=
  let s := Text.trim text
  let (number, factor) := splitUnit s
  match Text.count? (Text.trim number) with
  | none => .error (.byteSize (String.ofList s))
  | some n =>
    match Checked.mul? n factor with
    | none => .error (.byteSizeOverflow (String.ofList s))
    | some b => .ok ⟨b⟩

def write (b : ByteSize) : List Char :=
  let n := b.bytes
  if n = 0 then ['0']
  else if n % giga = 0 then Text.natural (n / giga) ++ ['G']
  else if n % mega = 0 then Text.natural (n / mega) ++ ['M']
  else if n % kilo = 0 then Text.natural (n / kilo) ++ ['K']
  else Text.natural n

end ByteSize

end BitStore
