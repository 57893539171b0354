import BitStore.Arena.Basic
import BitStore.Heap
import BitStore.Settings.Basic
import BitStore.Usage.Profiler

/-! A store: memory from the heap or, once a page pool is enabled, from the pool. Addresses inside the pool go to
the pool and all others to the heap. -/

namespace BitStore

structure Store where
  pool : Option Arena
  heap : Heap
  profiler : Profiler

namespace Store

variable {α : Type}

def on (platform : Platform) (now : Nat) : Store :=
  ⟨none, .on platform, .idle Profiler.defaultGranularity now⟩

def new (now : Nat) : Store := on .spacious now

def poolEnabled (s : Store) : Bool := s.pool.isSome

def poolStats (s : Store) : Except Fault (Option ArenaStats) := s.pool.mapM (·.stats)

def onProfiler (x : Action Profiler α) : Action Store α :=
  .zoom (·.profiler) (fun p s => { s with profiler := p }) x

def onHeap (x : Action Heap α) : Action Store α :=
  .zoom (·.heap) (fun h s => { s with heap := h }) x

def onPool (a : Arena) (x : Action Arena α) : Action Store α :=
  .zoom (fun _ => a) (fun a s => { s with pool := some a }) x

def enablePool (m : Machine) (source : PageSource) (size : Nat) : Action Store Unit := do
  let s ← Action.get
  if s.poolEnabled then Action.fail .poolAlreadyEnabled
  let a ← Arena.reserve m source size
  let stats ← a.stats
  Action.modify fun s => { s with pool := some a }
  Action.say (.poolEnabled stats.reserved)

def configure (m : Machine) (settings : Settings) : Action Store Unit := do
  onProfiler (Profiler.setGranularity settings.granularity)
  match settings.pool with
  | some p => enablePool m ⟨.huge, .reported⟩ p.size.bytes
  | none => return ()

/-- The pool, if the address `p` is its business. An address in the part of the pool that was never
handed out is an error. -/
def route (p : Nat) : Action Store (Option Arena) := do
  match (← Action.get).pool with
  | none => return none
  | some a =>
    if ← a.owns p then return some a
    else if ← a.inRegion p then
      Action.say (.neverHandedOut p)
      Action.fail (.invalidPointer p)
    else return none

def allocate (n : Nat) : Action Store Nat := do
  match (← Action.get).pool with
  | some a => onPool a do
    let p ← Arena.allocate n
    Action.modify fun a => { a with memory := a.memory.clear ((p - a.region.base) / 8) n }
    return p
  | none => onHeap (Heap.allocate n)

def giveBack (p : Nat) : Action Store Unit := do
  match ← route p with
  | some a => onPool a (Arena.giveBack p)
  | none => onHeap (Heap.giveBack p)

def resizeBlock (p n : Nat) : Action Store Nat := do
  match ← route p with
  | some a => onPool a (Arena.resize p n)
  | none => onHeap (Heap.resize p n)

def inPool (s : Store) (p : Nat) : Option Arena :=
  s.pool.filter fun a => a.region.base ≤ p && p < a.region.base + a.region.len

def memoryAt (s : Store) (p : Nat) : Memory × Nat :=
  match s.inPool p with
  | some a => (a.memory, p - a.region.base)
  | none => (s.heap.memory, p)

def onMemory (s : Store) (p : Nat) (f : Memory → Nat → Memory) : Store :=
  match s.inPool p with
  | some a => { s with pool := some { a with memory := f a.memory (p - a.region.base) } }
  | none => { s with heap := { s.heap with memory := f s.heap.memory p } }

def byte (s : Store) (p i : Nat) : UInt8 :=
  let (m, offset) := s.memoryAt p
  m.byte (offset + i)

def setBytes (s : Store) (p i : Nat) (f : Nat → UInt8) (n : Nat) : Store :=
  s.onMemory p fun m offset => m.setBytes (offset + i) f n

def word (s : Store) (p i : Nat) : UInt64 :=
  let (m, offset) := s.memoryAt p
  m.word (offset / 8 + i)

def setWords (s : Store) (p i : Nat) (f : Nat → UInt64) (n : Nat) : Store :=
  s.onMemory p fun m offset => m.setWords (offset / 8 + i) f n

def describe (s : Store) : Except Fault String := do
  let pool := match ← s.poolStats with
    | some stats => "Some(" ++ stats.describe ++ ")"
    | none => "None"
  return "MemoryManager \x7b page_pool: " ++ pool ++ ", monitor: " ++ s.profiler.describe ++ " \x7d"

end Store

end BitStore
