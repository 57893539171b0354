import BitStore.Decimal.Shortest
import BitStore.Text.Numeral

namespace BitStore.Decimal

structure Layout where
  leastExponent : Int
  greatestExponent : Int
  deriving DecidableEq, Repr

def plain : Layout := ⟨-5, 15⟩

def positional (digits : List Char) (places : Int) : List Char :=
  if places ≤ 0 then ['0', '.'] ++ List.replicate (-places).toNat '0' ++ digits
  else if digits.length ≤ places.toNat then
    digits ++ List.replicate (places.toNat - digits.length) '0' ++ ['.', '0']
  else digits.take places.toNat ++ '.' :: digits.drop places.toNat

def scientific (digits : List Char) (exponent : Int) : List Char :=
  let sign := if exponent < 0 then '-' else '+'
  let mantissa := match digits with
    | d :: e :: rest => d :: '.' :: e :: rest
    | ds => ds
  mantissa ++ 'e' :: sign :: Text.natural exponent.natAbs

def Scaled.write (d : Scaled) (f : Layout) : List Char :=
  let digits := Text.natural d.digits
  let exponent := (digits.length : Int) - 1 + d.exponent
  if f.leastExponent ≤ exponent && exponent ≤ f.greatestExponent then positional digits (exponent + 1)
  else scientific digits exponent

def ofBits (bits : UInt64) : List Char :=
  let text := (Binary.ofBits bits).shortest.write plain
  if 0x8000000000000000 ≤ bits.toNat then '-' :: text else text

end BitStore.Decimal
