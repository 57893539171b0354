import BitStore.Action
import BitStore.Memory

/-! The heap that serves a store without a pool. Where blocks lie and what fresh bytes hold is for the platform to say. -/

namespace BitStore

/-- What a platform may be asked for: a block of zeros, one of any contents, or another size for the
block at `p`, which has had `old` bytes. -/
inductive HeapRequest where
  | zeroed (size : Nat)
  | fresh (size : Nat)
  | resized (p old size : Nat)
  deriving DecidableEq, Repr

namespace HeapRequest

def size : HeapRequest → Nat
  | zeroed n | fresh n | resized _ _ n => n

def replaced? : HeapRequest → Option Nat
  | resized p _ _ => some p
  | zeroed _ | fresh _ => none

end HeapRequest

structure HeapAnswer where
  address : Option Nat
  memory : Memory

/-- How a platform answers a request, given the number of those before it. -/
structure Platform where
  answer : Nat → Memory → HeapRequest → HeapAnswer

structure Heap where
  platform : Platform
  requests : Nat
  blocks : Std.HashMap Nat Nat
  memory : Memory

namespace Platform

def spacing : Nat := 0x800000000000

def place (requests : Nat) : Nat := 0x1000000000000 + requests * spacing

def spacious : Platform where
  answer requests memory r :=
    let q := place requests
    if spacing ≤ r.size then ⟨none, memory⟩
    else
      match r with
      | .zeroed n => ⟨some q, memory.clear (q / 8) n⟩
      | .fresh _ => ⟨some q, memory⟩
      | .resized p old n => ⟨some q, memory.copyWords (p / 8) (q / 8) ((min old n + 7) / 8)⟩

end Platform

namespace Heap

def on (platform : Platform) : Heap := ⟨platform, 0, ∅, .empty⟩

def answer (h : Heap) (r : HeapRequest) : HeapAnswer := h.platform.answer h.requests h.memory r

def request (r : HeapRequest) : Action Heap Nat := do
  let h ← Action.get
  let x := h.answer r
  Action.set { h with requests := h.requests + 1, memory := x.memory }
  match x.address with
  | some p =>
    Action.modify fun h =>
      { h with blocks := (r.replaced?.elim h.blocks h.blocks.erase).insert p r.size }
    return p
  | none => Action.fail (.outOfMemory r.size 0)

def allocate (n : Nat) : Action Heap Nat := request (.zeroed (max n 1))

def resize (p n : Nat) : Action Heap Nat := do
  match (← Action.get).blocks[p]? with
  | some old => request (.resized p old (max n 1))
  | none => request (.fresh (max n 1))

def giveBack (p : Nat) : Action Heap Unit :=
  Action.modify fun h => { h with blocks := h.blocks.erase p }

end Heap

end BitStore
