import BitStore.Action
import BitStore.Pages.Meminfo

/-! Page regions: where the memory of an arena comes from. Reservations are rounded up to whole pages. -/

namespace BitStore

/-- What matters of the machine: its report on huge pages (bytes, if there is one), the size of its other
pages, the address at which regions are placed, and the longest one that each source grants. -/
structure Machine where
  meminfo : Option ByteArray
  pageSize : Nat
  regionBase : Nat
  heapLimit : Nat
  mappingLimit : Nat
  hugeLimit : Nat
  pageSize_mod : pageSize % 1024 = 0

inductive PageKind where
  | heap
  | anonymous
  | huge
  deriving DecidableEq, Repr

inductive Capacity where
  | reported
  | unknown
  | bytes (n : Nat)
  deriving DecidableEq, Repr

structure PageSource where
  kind : PageKind
  capacity : Capacity
  deriving DecidableEq, Repr

structure Region where
  base : Nat
  len : Nat
  deriving DecidableEq, Repr

def defaultHugePageSize : Nat := 2 * 1024 * 1024

namespace Machine

def hugePageInfo (m : Machine) : Except Fault (Option HugePageInfo) :=
  (m.meminfo.bind String.fromUTF8?).mapM fun text => HugePageInfo.parse text.toList

def hugePageSize (m : Machine) : Except Fault Nat := do
  let info ← m.hugePageInfo
  return (info.bind (·.pageSize)).getD defaultHugePageSize

def freeHugeBytes (m : Machine) : Except Fault (Option Nat) := do
  match ← m.hugePageInfo with
  | some ⟨some free, some size⟩ => return some (← Checked.mul free size)
  | _ => return none

def capacity (m : Machine) (s : PageSource) : Except Fault (Option Nat) :=
  match s.capacity, s.kind with
  | .bytes n, _ => .ok (some n)
  | .reported, .huge => m.freeHugeBytes
  | _, _ => .ok none

end Machine

namespace Region

variable {σ : Type}

def contains (r : Region) (address : Nat) : Except Fault Bool := do
  let stop ← Checked.add r.base r.len
  return r.base ≤ address && address < stop

def describe (spell : Nat → String) (r : Region) : String :=
  "PageRegion \x7b ptr: " ++ spell r.base ++ ", len: " ++ toString r.len ++ " \x7d"

def rounded (len step : Nat) : Action σ Nat := do
  match ← roundUp len step with
  | some n => return n
  | none => Action.fail (.outOfMemory len 0)

def ofHeap (m : Machine) (len : Nat) : Action σ Region := do
  if len = 0 then Action.fail (.mapFailed len .emptyRegion)
  if min m.heapLimit maxSigned < len then Action.fail (.outOfMemory len 0)
  return ⟨m.regionBase, len⟩

def mapped (m : Machine) (len : Nat) (granted : Bool) : Action σ Region := do
  if len = 0 then Action.fail (.mapFailed len .emptyRegion)
  if !granted then Action.fail (.mapFailed len .noMemory)
  Action.say (.pagesMapped len m.regionBase)
  return ⟨m.regionBase, len⟩

def reserve (m : Machine) (kind : PageKind) (len : Nat) : Action σ Region := do
  match kind with
  | .heap => ofHeap m (← rounded (max len 1) m.pageSize)
  | .anonymous =>
    let n ← rounded len m.pageSize
    mapped m n (n ≤ m.mappingLimit)
  | .huge =>
    let n ← rounded len (← m.hugePageSize)
    mapped m n (n ≤ m.hugeLimit)

end Region

end BitStore
