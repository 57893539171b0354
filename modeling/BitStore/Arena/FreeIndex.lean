import BitStore.Arena.Chain
import BitStore.Checked

namespace BitStore

structure FreeBlock where
  size : Nat
  offset : Nat
  handle : Handle
  deriving DecidableEq, Repr

def FreeBlock.ofBlock (h : Handle) (b : Block) : FreeBlock := ⟨b.size, b.offset, h⟩

def FreeBlock.before (a b : FreeBlock) : Bool :=
  a.size < b.size ||
    (a.size == b.size &&
      (a.offset < b.offset || (a.offset == b.offset && a.handle < b.handle)))

structure FreeIndex where
  entries : List FreeBlock
  bytes : Nat
  deriving DecidableEq, Repr

namespace FreeIndex

def empty : FreeIndex := ⟨[], 0⟩

def place (e : FreeBlock) : List FreeBlock → List FreeBlock
  | [] => [e]
  | x :: xs => if e.before x then e :: x :: xs else x :: place e xs

def insert (f : FreeIndex) (e : FreeBlock) : Except Fault FreeIndex :=
  if e ∈ f.entries then .error (.alreadyFree e.offset)
  else do return ⟨place e f.entries, ← Checked.add f.bytes e.size⟩

def remove (f : FreeIndex) (e : FreeBlock) : Except Fault FreeIndex :=
  if e ∈ f.entries then do return ⟨f.entries.erase e, ← Checked.sub f.bytes e.size⟩
  else .error (.notFiled e.offset)

def bestFit (f : FreeIndex) (size : Nat) : Option Handle :=
  (f.entries.find? fun e => size ≤ e.size).map (·.handle)

end FreeIndex

end BitStore
