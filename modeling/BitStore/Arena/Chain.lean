import BitStore.Fault
import Std.Data.HashMap

/-! The blocks of an arena in address order, in numbered slots that are linked both ways and used again. -/

namespace BitStore

abbrev Handle := Nat

structure Block where
  offset : Nat
  size : Nat
  prev : Option Handle
  next : Option Handle
  free : Bool
  deriving DecidableEq, Repr

structure Chain where
  slots : Array (Option Block)
  vacant : List Handle
  first : Option Handle
  last : Option Handle
  byOffset : Std.HashMap Nat Handle

namespace Chain

def empty : Chain := ⟨#[], [], none, none, ∅⟩

def size (c : Chain) : Nat := c.byOffset.size

def get (c : Chain) (h : Handle) : Except Fault Block :=
  match c.slots[h]? with
  | some (some b) => .ok b
  | some none => .error .staleHandle
  | none => .error (.indexOutOfBounds h c.slots.size)

def put (c : Chain) (h : Handle) (b : Option Block) : Except Fault Chain :=
  if h < c.slots.size then .ok { c with slots := c.slots.setIfInBounds h b }
  else .error (.indexOutOfBounds h c.slots.size)

def update (c : Chain) (h : Handle) (f : Block → Block) : Except Fault Chain := do
  c.put h (some (f (← c.get h)))

def store (c : Chain) (b : Block) : Except Fault (Handle × Chain) := do
  match c.vacant with
  | h :: rest =>
    let d ← c.put h (some b)
    return (h, { d with vacant := rest, byOffset := d.byOffset.insert b.offset h })
  | [] =>
    let h := c.slots.size
    return (h, { c with slots := c.slots.push (some b), byOffset := c.byOffset.insert b.offset h })

def linkNext (c : Chain) (h next : Option Handle) : Except Fault Chain :=
  match h with
  | some h => c.update h fun b => { b with next := next }
  | none => .ok { c with first := next }

def linkPrev (c : Chain) (h prev : Option Handle) : Except Fault Chain :=
  match h with
  | some h => c.update h fun b => { b with prev := prev }
  | none => .ok { c with last := prev }

def link (c : Chain) (prev next : Option Handle) (offset size : Nat) (free : Bool) :
    Except Fault (Handle × Chain) := do
  let (h, c) ← c.store ⟨offset, size, prev, next, free⟩
  let c ← c.linkNext prev (some h)
  let c ← c.linkPrev next (some h)
  return (h, c)

def append (c : Chain) (offset size : Nat) (free : Bool) : Except Fault (Handle × Chain) :=
  c.link c.last none offset size free

def insertAfter (c : Chain) (h : Handle) (offset size : Nat) (free : Bool) :
    Except Fault (Handle × Chain) := do
  c.link (some h) (← c.get h).next offset size free

def remove (c : Chain) (h : Handle) : Except Fault (Block × Chain) := do
  let b ← c.get h
  let c ← c.put h none
  let c ← c.linkNext b.prev b.next
  let c ← c.linkPrev b.next b.prev
  return (b, { c with byOffset := c.byOffset.erase b.offset, vacant := h :: c.vacant })

def walk (c : Chain) : Nat → Option Handle → Except Fault (List (Handle × Block))
  | 0, _ | _, none => .ok []
  | n + 1, some h => do
    let b ← c.get h
    return (h, b) :: (← c.walk n b.next)

def toList (c : Chain) : Except Fault (List (Handle × Block)) :=
  c.walk c.slots.size c.first

end Chain

end BitStore
