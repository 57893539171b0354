import BitStore.BitVector
import BitStore.Store.Basic

namespace BitStore.Store

def vectorWord (s : Store) (v : BitVector) (i : Nat) : Except Fault UInt64 :=
  match v.data with
  | some p => if i < v.wordCount then .ok (s.word p i) else .error (.indexOutOfBounds i v.wordCount)
  | none => .error (.indexOutOfBounds i 0)

def words (s : Store) (v : BitVector) : List UInt64 :=
  match v.data with
  | some p => (List.range v.wordCount).map (s.word p)
  | none => []

def setWord (s : Store) (v : BitVector) (i : Nat) (w : UInt64) : Except Fault Store :=
  match v.data with
  | some p =>
    if i < v.wordCount then .ok (s.setWords p i (fun _ => w) 1)
    else .error (.indexOutOfBounds i v.wordCount)
  | none => .error (.indexOutOfBounds i 0)

def fillWords (s : Store) (v : BitVector) (w : UInt64) : Store :=
  match v.data with
  | some p => s.setWords p 0 (fun _ => w) v.wordCount
  | none => s

def getBit (s : Store) (v : BitVector) (i : Nat) : Except Fault Bool :=
  if i < v.len then do return bitOf (← s.vectorWord v (i / 64)) (i % 64)
  else .error (.bitOutOfBounds i v.len)

def setBit (s : Store) (v : BitVector) (i : Nat) (bit : Bool) : Except Fault Store :=
  if i < v.len then do
    s.setWord v (i / 64) (withBit (← s.vectorWord v (i / 64)) (i % 64) bit)
  else .error (.bitOutOfBounds i v.len)

def rank (s : Store) (v : BitVector) (i : Nat) : Except Fault Nat :=
  if i ≤ v.len then
    let ws := s.words v
    if ws.isEmpty then .ok 0
    else if i / 64 ≤ ws.length then
      let whole := popCounts (ws.take (i / 64))
      match ws[i / 64]? with
      | some w => .ok (whole + popCount (w &&& lowMask (i % 64)))
      | none => .error (.indexOutOfBounds (i / 64) ws.length)
    else .error (.endOutOfBounds (i / 64) ws.length)
  else .error (.rankOutOfBounds i v.len)

end BitStore.Store
