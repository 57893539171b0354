/-! A fault is a broken precondition. It ends the operation at once; what was changed before it stays changed. -/

namespace BitStore

inductive Fault where
  | addOverflow
  | subOverflow
  | mulOverflow
  | bitOutOfBounds (index len : Nat)
  | rankOutOfBounds (index len : Nat)
  | indexOutOfBounds (index len : Nat)
  | endOutOfBounds (stop len : Nat)
  | staleHandle
  | alreadyFree (offset : Nat)
  | notFree (offset : Nat)
  | notFiled (offset : Nat)
  | splitTooLarge (size kept : Nat)
  | outsideRegion (offset : Nat)
  | raised (text : String)
  deriving DecidableEq, Repr

def Fault.message : Fault → String
  | addOverflow => "attempt to add with overflow"
  | subOverflow => "attempt to subtract with overflow"
  | mulOverflow => "attempt to multiply with overflow"
  | bitOutOfBounds index len => s!"bit {index} out of bounds ({len})"
  | rankOutOfBounds index len => s!"rank {index} out of bounds ({len})"
  | indexOutOfBounds index len => s!"index out of bounds: the len is {len} but the index is {index}"
  | endOutOfBounds stop len => s!"range end index {stop} out of range for slice of length {len}"
  | staleHandle => "stale block handle"
  | alreadyFree offset => s!"block at {offset} is already free"
  | notFree offset => s!"block at {offset} is not free"
  | notFiled offset => s!"block at {offset} is not in the free set"
  | splitTooLarge size kept => s!"block of {size} bytes cannot keep {kept}"
  | outsideRegion offset => s!"offset {offset} is outside the region"
  | raised text => text

end BitStore
