import BitStore.Store.Bits

/-! The length and the storage of bit vectors. A change in the number of words is told to the profiler last. -/

namespace BitStore

structure Held where
  vector : BitVector
  store : Store

namespace Held

variable {σ α : Type}

def onStore (x : Action Store α) : Action Held α :=
  .zoom (·.store) (fun s h => { h with store := s }) x

def setVector (v : BitVector) : Action Held Unit := .modify fun h => { h with vector := v }

def storageBytes (bits : Nat) : Action σ (Nat × Nat) := do
  match wordBytes? bits, paddedBytes? bits with
  | some words, some padded => return (words, padded)
  | _, _ =>
    Action.say (.vectorTooLong bits)
    Action.fail (.outOfMemory maxCount 0)

def clearBits (s : Store) (p count first : Nat) : Store :=
  let i := first / 64
  if i < count then
    let s := s.setWords p i (fun _ => s.word p i &&& lowMask (first % 64)) 1
    s.setWords p (i + 1) (fun _ => 0) (count - (i + 1))
  else s

def needsStorage (v : BitVector) (len oldPadded padded : Nat) : Bool :=
  if v.data.isSome then oldPadded < padded else 0 < len

def restore (now : Nat) (v : BitVector) (len oldBytes bytes padded : Nat) : Action Held Unit := do
  let p ← onStore (Store.resizeBlock (v.data.getD 0) padded)
  setVector ⟨len, some p⟩
  Action.say (.vectorResized v.len len padded)
  let kept := if v.data.isSome then min v.len len else 0
  onStore (.modify fun s => clearBits s p (padded / 8) kept)
  if oldBytes ≠ bytes then
    onStore (Store.onProfiler (Profiler.record now ((bytes : Int) - oldBytes)))

def resize (now len : Nat) : Action Held Unit := do
  let v := (← Action.get).vector
  let (oldBytes, oldPadded) ← storageBytes v.len
  let (bytes, padded) ← storageBytes len
  if oldBytes = bytes && !needsStorage v len oldPadded padded then setVector { v with len := len }
  else restore now v len oldBytes bytes padded

def clear (now : Nat) : Action Held Unit := do
  let v := (← Action.get).vector
  let (bytes, _) ← storageBytes v.len
  match v.data with
  | some p => onStore (Store.giveBack p)
  | none => pure ()
  setVector .empty
  if 0 < bytes then onStore (Store.onProfiler (Profiler.record now (-(bytes : Int))))

end Held

end BitStore
