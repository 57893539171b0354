import BitStore.Action
import BitStore.Checked

/-! A file that is mapped into memory whole. Writes reach the file at once. -/

namespace BitStore

inductive FileNode where
  | missing
  | directory
  | regular (bytes : List UInt8)
  deriving DecidableEq, Repr

namespace FileNode

def directoryLen : Nat := 4096

def len : FileNode → Nat
  | missing => 0
  | directory => directoryLen
  | regular bytes => bytes.length

def edit (f : List UInt8 → List UInt8) : FileNode → FileNode
  | regular bytes => regular (f bytes)
  | node => node

end FileNode

inductive MapMode where
  | read
  | readWrite
  deriving DecidableEq, Repr

/-- An open mapping: the address and the length of what is mapped. An empty file has no address, since
nothing cannot be mapped. -/
structure Mapping where
  mode : MapMode
  data : Option Nat
  len : Nat
  deriving DecidableEq, Repr

structure MappedFile where
  path : String
  node : FileNode
  mapping : Option Mapping
  deriving DecidableEq, Repr

inductive WriteAnswer where
  | written
  | readOnly
  | outOfRange
  deriving DecidableEq, Repr

namespace MappedFile

def maxLen : Nat := maxSigned

def address : Nat := 0x400000000000

def ofNode (path : String) (node : FileNode) : MappedFile := ⟨path, node, none⟩

def disk? (f : MappedFile) : Option (List UInt8) :=
  match f.node with
  | .regular bytes => some bytes
  | _ => none

def view (f : MappedFile) (m : Mapping) : Except Fault (List UInt8) :=
  match m.data with
  | none => .ok []
  | some _ =>
    let bytes := f.disk?.getD []
    if m.len ≤ bytes.length then .ok (bytes.take m.len) else .error (.endOutOfBounds m.len bytes.length)

def setMapping (m : Mapping) : Action MappedFile Unit := .modify fun f => { f with mapping := some m }

def edit (g : List UInt8 → List UInt8) : Action MappedFile Unit := .modify fun f => { f with node := f.node.edit g }

def map (mode : MapMode) (len : Nat) : Action MappedFile Unit := do
  if len = 0 then setMapping ⟨mode, none, 0⟩
  else
    let f ← Action.get
    match f.node with
    | .regular _ =>
      Action.say (.fileMapped f.path len address)
      setMapping ⟨mode, some address, len⟩
    | _ => Action.fail (.file (.mapping f.path len) .noDevice)

/-- Gives back what `m` has mapped. Its address is forgotten even if that fails. -/
def unmap (m : Mapping) : Action MappedFile Unit := do
  if m.data.isSome then
    setMapping { m with data := none }
    if m.len = 0 then Action.fail (.file (.unmapping (← Action.get).path) .invalidArgument)
    setMapping { m with data := none, len := 0 }

def close : Action MappedFile Unit := do
  if let some m := (← Action.get).mapping then
    if let .error e ← Action.attempt (unmap m) then Action.say (.notUnmapped e)
  Action.modify fun f => { f with mapping := none }

def openAs (mode : MapMode) : Action MappedFile Unit := do
  close
  let f ← Action.get
  match f.node, mode with
  | .missing, _ => Action.fail (.file (.opening f.path) .notFound)
  | .directory, .readWrite => Action.fail (.file (.opening f.path) .isDirectory)
  | node, _ => map mode node.len

def resized (len : Nat) (bytes : List UInt8) : List UInt8 :=
  bytes.take len ++ List.replicate (len - bytes.length) 0

def overwrite (start : Nat) (data bytes : List UInt8) : List UInt8 :=
  bytes.take start ++ data ++ bytes.drop (start + data.length)

def setLen (len : Nat) : Action MappedFile Unit := do
  if maxLen < len then Action.fail (.file (.truncatingTo (← Action.get).path len) .lengthTooLarge)
  edit (resized len)

/-- Makes the file `len` bytes long and maps its new extent. The old one is gone by the time the length
is refused. -/
def truncate (m : Mapping) (len : Nat) : Action MappedFile Unit := do
  if m.mode ≠ .readWrite then Action.fail (.file (.truncating (← Action.get).path) .mappedReadOnly)
  unmap m
  setLen len
  map m.mode len

def write (m : Mapping) (start : Nat) (data : List UInt8) : Action MappedFile WriteAnswer := do
  if m.mode ≠ .readWrite then return .readOnly
  let shown ← Action.read (·.view m)
  if shown.length < start + data.length then return .outOfRange
  if m.data.isSome then edit (overwrite start data)
  return .written

/-- Everything written is on disk already. -/
def flush : Action MappedFile Unit := return ()

end MappedFile

end BitStore
