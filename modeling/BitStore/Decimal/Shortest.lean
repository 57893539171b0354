/-! The shortest decimal that rounds to a binary fraction, and of the shortest ones the nearest. -/

namespace BitStore.Decimal

/-- The number `mantissa * 2 ^ exponent`. At the foot of a binade the neighbour below is half as far
away as the one above. -/
structure Binary where
  mantissa : Nat
  exponent : Int
  footOfBinade : Bool
  deriving DecidableEq, Repr

def fractionRange : Nat := 0x10000000000000

def Binary.ofBits (bits : UInt64) : Binary :=
  let fraction := bits.toNat % fractionRange
  let biased := bits.toNat / fractionRange % 2048
  if biased = 0 then ⟨fraction, -1074, false⟩
  else ⟨fractionRange + fraction, (biased : Int) - 1075, fraction = 0 && biased ≠ 1⟩

structure Scaled where
  digits : Nat
  exponent : Int
  deriving DecidableEq, Repr

def scaledDecimal (d : Nat) (k p : Int) : Nat :=
  d * Nat.pow 10 k.toNat * Nat.pow 2 (-p).toNat

def scaledBinary (x : Nat) (k p : Int) : Nat :=
  x * Nat.pow 2 p.toNat * Nat.pow 10 (-k).toNat

/-- Whether `d * 10 ^ k` rounds to `b`. Halfway points go to the even mantissa. -/
def Binary.covers (b : Binary) (k : Int) (d : Nat) : Bool :=
  let p := b.exponent - 2
  let low := scaledBinary (4 * b.mantissa - if b.footOfBinade then 1 else 2) k p
  let high := scaledBinary (4 * b.mantissa + 2) k p
  let point := scaledDecimal d k p
  if b.mantissa % 2 = 0 then low ≤ point && point ≤ high else low < point && point < high

def Binary.prefersLower (b : Binary) (k : Int) (d : Nat) : Bool :=
  let p := b.exponent - 2
  let twice := 2 * scaledBinary (4 * b.mantissa) k p
  let middle := scaledDecimal (2 * d + 1) k p
  twice < middle || (twice = middle && d % 2 = 0)

def Binary.gridPoint? (b : Binary) (k : Int) : Option Scaled :=
  let p := b.exponent - 2
  let d := scaledBinary (4 * b.mantissa) k p / scaledDecimal 1 k p
  match d != 0 && b.covers k d, b.covers k (d + 1) with
  | true, true => some ⟨if b.prefersLower k d then d else d + 1, k⟩
  | true, false => some ⟨d, k⟩
  | false, true => some ⟨d + 1, k⟩
  | false, false => none

def Binary.shortest (b : Binary) : Scaled :=
  if b.mantissa = 0 then ⟨0, 0⟩
  else ((List.range 660).findSome? fun i : Nat => b.gridPoint? (309 - (i : Int))).getD ⟨0, 0⟩

end BitStore.Decimal
