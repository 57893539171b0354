import BitStore.Arena.FreeIndex
import BitStore.Json.Writer
import BitStore.Memory
import BitStore.Pages.Region

/-! A heap inside one page region, cut from the front and used again by best fit. Addresses are absolute, and the
null address is zero. -/

namespace BitStore

def alignment : Nat := 8

def minBlockSize : Nat := 32

structure Arena where
  region : Region
  top : Nat
  chain : Chain
  free : FreeIndex
  memory : Memory

structure ArenaStats where
  reserved : Nat
  top : Nat
  allocatedBytes : Nat
  freeBytes : Nat
  blocks : Nat
  freeBlocks : Nat
  deriving DecidableEq, Repr

def ArenaStats.write (s : ArenaStats) : List Char :=
  Json.Compact.map
    [("reserved", Text.natural s.reserved), ("top", Text.natural s.top),
     ("allocated_bytes", Text.natural s.allocatedBytes), ("free_bytes", Text.natural s.freeBytes),
     ("blocks", Text.natural s.blocks), ("free_blocks", Text.natural s.freeBlocks)]

def ArenaStats.describe (s : ArenaStats) : String :=
  "ArenaStats \x7b reserved: " ++ toString s.reserved ++ ", top: " ++ toString s.top
    ++ ", allocated_bytes: " ++ toString s.allocatedBytes
    ++ ", free_bytes: " ++ toString s.freeBytes ++ ", blocks: " ++ toString s.blocks
    ++ ", free_blocks: " ++ toString s.freeBlocks ++ " \x7d"

namespace Arena

variable {σ α : Type}

def ofRegion (r : Region) : Arena := ⟨r, 0, .empty, .empty, .empty⟩

def reserve (m : Machine) (source : PageSource) (size : Nat) : Action σ Arena := do
  let wanted ← if size = 0 then
      match (← m.capacity source).filter (0 < ·) with
      | some n => pure n
      | none => Action.fail .noHugePages
    else pure size
  let region ← Region.reserve m source.kind wanted
  Action.say (.arenaReserved region.len region.base)
  return ofRegion region

def stats (a : Arena) : Except Fault ArenaStats := do
  return ⟨a.region.len, a.top, ← Checked.sub a.top a.free.bytes, a.free.bytes, a.chain.size,
    a.free.entries.length⟩

/-- Whether an address lies in the part handed out so far. Null counts as owned. -/
def owns (a : Arena) (p : Nat) : Except Fault Bool := do
  if p = 0 then return true
  let stop ← Checked.add a.region.base a.top
  return a.region.base ≤ p && p < stop

def inRegion (a : Arena) (p : Nat) : Except Fault Bool := a.region.contains p

def onChain (f : Chain → Except Fault (α × Chain)) : Action Arena α :=
  .update fun a => do
    let (x, c) ← f a.chain
    return (x, { a with chain := c })

def onFree (f : FreeIndex → Except Fault FreeIndex) : Action Arena Unit :=
  .update fun a => do return ((), { a with free := ← f a.free })

def block (h : Handle) : Action Arena Block := .read fun a => a.chain.get h

def change (h : Handle) (f : Block → Block) : Action Arena Unit :=
  onChain fun c => do return ((), ← c.update h f)

def payload (h : Handle) : Action Arena Nat := do
  let b ← block h
  let a ← Action.get
  if b.offset < a.region.len then return a.region.base + b.offset
  else Action.halt (.outsideRegion b.offset)

def cannotFit (n : Nat) : Action Arena α := do
  Action.say (.arenaCannotFit n)
  let a ← Action.get
  Action.fail (.outOfMemory n (← Checked.sub a.region.len a.top))

def blockSizeFor (n : Nat) : Action Arena Nat := do
  let a ← Action.get
  match ← roundUp n alignment with
  | some size => if n ≤ a.region.len then return max size minBlockSize else cannotFit n
  | none => cannotFit n

def liveBlock (p : Nat) : Action Arena Handle := do
  let a ← Action.get
  let owned ← a.owns p
  if !owned || p = 0 then Action.fail (.invalidPointer p)
  else
    match a.chain.byOffset[← Checked.sub p a.region.base]? with
    | some h => do
      let b ← block h
      if b.free then Action.fail (.invalidPointer p) else return h
    | none => Action.fail (.invalidPointer p)

def bump (len : Nat) : Action Arena Nat := do
  let a ← Action.get
  let left ← Checked.sub a.region.len a.top
  if left < len then
    Action.say (.arenaExhausted len left)
    Action.fail (.outOfMemory len left)
  else
    let top ← Checked.add a.top len
    Action.set { a with top := top }
    Action.say (.arenaGrew top)
    return a.top

def takeFree (h : Handle) : Action Arena Unit := do
  let b ← block h
  if !b.free then Action.halt (.notFree b.offset)
  change h fun b => { b with free := false }
  onFree (·.remove (FreeBlock.ofBlock h b))

def grow (size : Nat) : Action Arena Handle := do
  let a ← Action.get
  let tail ← a.chain.last.mapM fun t => do return (t, ← block t)
  match tail with
  | some (t, b) =>
    if b.free then
      let _ ← bump (← Checked.sub size b.size)
      takeFree t
      change t fun b => { b with size := size }
      return t
    else onChain (·.append (← bump size) size false)
  | none => onChain (·.append (← bump size) size false)

def swallow (h gone : Handle) : Action Arena Unit := do
  let g ← onChain (·.remove gone)
  let b ← block h
  let size ← Checked.add b.size g.size
  change h fun b => { b with size := size }

def absorb (h next : Handle) (b : Block) : Action Arena Unit := do
  onFree (·.remove (FreeBlock.ofBlock next b))
  swallow h next

def joinRight (h : Handle) (b : Block) : Action Arena Unit := do
  match b.next with
  | none => return ()
  | some next =>
    let n ← block next
    if n.free then
      Action.say (.joinedRight b.offset n.offset)
      absorb h next n

def joinLeft (h : Handle) (b : Block) : Action Arena Handle := do
  match b.prev with
  | none => return h
  | some prev =>
    let p ← block prev
    if p.free then
      Action.say (.joinedLeft b.offset p.offset)
      onFree (·.remove (FreeBlock.ofBlock prev p))
      swallow prev h
      return prev
    else return h

def release (h : Handle) : Action Arena Unit := do
  let b ← block h
  joinRight h b
  let h ← joinLeft h b
  change h fun b => { b with free := true }
  let b ← block h
  onFree (·.insert (FreeBlock.ofBlock h b))

def split (h : Handle) (size : Nat) : Action Arena Unit := do
  let b ← block h
  if b.size < size then Action.halt (.splitTooLarge b.size size)
  let rest ← Checked.sub b.size size
  if minBlockSize ≤ rest then
    Action.say (.blockSplit b.offset size rest)
    change h fun b => { b with size := size }
    let offset ← Checked.add b.offset size
    let r ← onChain (·.insertAfter h offset rest false)
    release r

def allocate (n : Nat) : Action Arena Nat := do
  let size ← blockSizeFor n
  let a ← Action.get
  match a.free.bestFit size with
  | some h =>
    takeFree h
    split h size
    payload h
  | none => payload (← grow size)

def absorbable (b : Block) (size : Nat) : Action Arena (Option (Handle × Block)) := do
  match b.next with
  | none => return none
  | some next =>
    let n ← block next
    if n.free then
      let sum ← Checked.add b.size n.size
      return if size ≤ sum then some (next, n) else none
    else return none

def copyBlock (h : Handle) (size q : Nat) : Action Arena Unit := do
  let p ← payload h
  Action.modify fun a =>
    { a with
      memory := a.memory.copyWords ((p - a.region.base) / 8) ((q - a.region.base) / 8) (size / 8) }

/-- Resizes the allocation at `p` to `n` bytes: in place if it shrinks or can absorb a free right
neighbour, else by moving. Contents are kept up to the smaller size. Null allocates. -/
def resize (p n : Nat) : Action Arena Nat := do
  if p = 0 then allocate n
  else
    let h ← liveBlock p
    let size ← blockSizeFor n
    let b ← block h
    if size ≤ b.size then
      split h size
      payload h
    else
      match ← absorbable b size with
      | some (next, n) =>
        absorb h next n
        split h size
        payload h
      | none =>
        let q ← allocate n
        copyBlock h b.size q
        release h
        return q

def giveBack (p : Nat) : Action Arena Unit := do
  if p ≠ 0 then release (← liveBlock p)

def usableSize (p : Nat) : Action Arena Nat := do
  return (← block (← liveBlock p)).size

def describe (spell : Nat → String) (a : Arena) : Except Fault String := do
  return "PageAllocator \x7b region: " ++ a.region.describe spell ++ ", stats: "
    ++ (← a.stats).describe ++ " \x7d"

def byte (a : Arena) (p : Nat) : UInt8 := a.memory.byte (p - a.region.base)

def setBytes (a : Arena) (p : Nat) (f : Nat → UInt8) (n : Nat) : Arena :=
  { a with memory := a.memory.setBytes (p - a.region.base) f n }

end Arena

end BitStore
