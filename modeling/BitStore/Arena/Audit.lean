import BitStore.Arena.Basic

namespace BitStore

inductive Defect where
  | brokenPrev (offset : Nat)
  | misplaced (expected found : Nat)
  | badSize (offset size : Nat)
  | freeNeighbours (offset : Nat)
  | freeIndexDisagrees (offset : Nat) (free : Bool)
  | notIndexed (offset : Nat)
  | wrongEnd (stop top : Nat)
  | wrongLast
  | wrongFreeCount (listed filed : Nat)
  | wrongCount (reached indexed : Nat)
  deriving DecidableEq, Repr

def Defect.message : Defect → String
  | brokenPrev offset => s!"block at {offset} has a broken prev link"
  | misplaced expected found => s!"gap or overlap: expected a block at {expected}, found {found}"
  | badSize offset size => s!"block at {offset} has bad size {size}"
  | freeNeighbours offset => s!"free block at {offset} follows a free block"
  | freeIndexDisagrees offset free =>
    s!"block at {offset} is free={free} but free-set membership disagrees"
  | notIndexed offset => s!"block at {offset} is not indexed by offset"
  | wrongEnd stop top => s!"blocks end at {stop} but top is {top}"
  | wrongLast => "tail does not point at the last block"
  | wrongFreeCount listed filed => s!"{listed} free blocks in the list, {filed} in the free set"
  | wrongCount reached indexed => s!"{reached} reachable blocks, {indexed} indexed"

namespace Arena

structure AuditState where
  expected : Nat
  prev : Option Handle
  prevFree : Bool
  freeBlocks : Nat
  blocks : Nat

def auditBlock (a : Arena) (s : AuditState) (h : Handle) (b : Block) : Option Defect :=
  if b.prev ≠ s.prev then some (.brokenPrev b.offset)
  else if b.offset ≠ s.expected then some (.misplaced s.expected b.offset)
  else if b.size < minBlockSize ∨ b.size % alignment ≠ 0 then some (.badSize b.offset b.size)
  else if b.free && s.prevFree then some (.freeNeighbours b.offset)
  else if b.free ≠ decide (FreeBlock.ofBlock h b ∈ a.free.entries) then
    some (.freeIndexDisagrees b.offset b.free)
  else if a.chain.byOffset[b.offset]? ≠ some h then some (.notIndexed b.offset)
  else none

def auditEnd (a : Arena) (s : AuditState) : Option Defect :=
  if s.expected ≠ a.top then some (.wrongEnd s.expected a.top)
  else if a.chain.last ≠ s.prev then some .wrongLast
  else if s.freeBlocks ≠ a.free.entries.length then
    some (.wrongFreeCount s.freeBlocks a.free.entries.length)
  else if s.blocks ≠ a.chain.size then some (.wrongCount s.blocks a.chain.size)
  else none

def auditFrom (a : Arena) : AuditState → List (Handle × Block) → Except Fault (Option Defect)
  | s, [] => .ok (a.auditEnd s)
  | s, (h, b) :: rest =>
    match a.auditBlock s h b with
    | some d => .ok (some d)
    | none => do
      let stop ← Checked.add b.offset b.size
      a.auditFrom ⟨stop, some h, b.free, s.freeBlocks + b.free.toNat, s.blocks + 1⟩ rest

def audit (a : Arena) : Except Fault (Option Defect) := do
  a.auditFrom ⟨0, none, false, 0, 0⟩ (← a.chain.toList)

end Arena

end BitStore
