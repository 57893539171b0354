import BitStore.Checked

namespace BitStore

structure BitVector where
  len : Nat
  data : Option Nat
  deriving DecidableEq, Repr

def popCount (w : UInt64) : Nat := (List.range 64).countP fun i => w.toBitVec.getLsbD i

def popCounts : List UInt64 → Nat
  | [] => 0
  | w :: ws => popCount w + popCounts ws

def lowMask (n : Nat) : UInt64 := (1 <<< UInt64.ofNat n) - 1

def bitOf (w : UInt64) (i : Nat) : Bool := (w >>> UInt64.ofNat i) &&& 1 == 1

def withBit (w : UInt64) (i : Nat) (bit : Bool) : UInt64 :=
  if bit then w ||| (1 <<< UInt64.ofNat i) else w &&& ~~~(1 <<< UInt64.ofNat i)

namespace BitVector

def empty : BitVector := ⟨0, none⟩

def wordCount (v : BitVector) : Nat :=
  if v.data.isSome then ((paddedBytes? v.len).map (· / 8)).getD 0 else 0

def capacity (v : BitVector) : Except Fault Nat := do
  return (← Checked.add v.len 63) / 64 * 64

def describe (spell : Nat → String) (v : BitVector) : String :=
  let data := match v.data with
    | some p => "Some(" ++ spell p ++ ")"
    | none => "None"
  "RawBitVec \x7b len: " ++ toString v.len ++ ", data: " ++ data ++ " \x7d"

end BitVector

end BitStore
