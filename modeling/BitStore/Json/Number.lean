import BitStore.Json.Reader

/-! Digits are gathered into a 64-bit significand for as long as they fit; whole digits beyond that only raise the
exponent, and places beyond it are dropped. -/

namespace BitStore.Json

inductive Number where
  | count (n : Nat)
  | negative (n : Nat)
  | float (bits : UInt64)
  deriving DecidableEq, Repr

def Number.found : Number → Found
  | count n => .integer n
  | negative n => .integer (-n)
  | float bits => .float bits

structure Numeral where
  negative : Bool
  whole : List Char
  fraction : List Char
  exponent : Option Int
  deriving DecidableEq, Repr

namespace Numeral

def digits (cs : List Char) : List Char × List Char :=
  (cs.takeWhile Text.isDigit, cs.dropWhile Text.isDigit)

def someDigits (cs : List Char) : Except Failure (List Char × List Char) :=
  match digits cs with
  | ([], []) => .error .endOfText
  | ([], _) => .error .malformed
  | found => .ok found

def wholeDigits (cs : List Char) : Except Failure (List Char × List Char) := do
  let (ds, rest) ← someDigits cs
  if ds.head? = some '0' && 1 < ds.length then .error .malformed else .ok (ds, rest)

def fractionDigits : List Char → Except Failure (List Char × List Char)
  | '.' :: cs => someDigits cs
  | cs => .ok ([], cs)

def signed : List Char → Bool × List Char
  | '+' :: cs => (false, cs)
  | '-' :: cs => (true, cs)
  | cs => (false, cs)

def exponentPart (cs : List Char) : Except Failure (Option Int × List Char) := do
  match cs with
  | c :: cs =>
    if c = 'e' || c = 'E' then
      let (down, cs) := signed cs
      let (ds, rest) ← someDigits cs
      let n : Int := Text.numeralValue ds
      return (some (if down then -n else n), rest)
    else return (none, c :: cs)
  | [] => return (none, [])

def scan (cs : List Char) : Except Failure (Numeral × List Char) := do
  let (negative, cs) := match cs with
    | '-' :: cs => (true, cs)
    | cs => (false, cs)
  let (whole, cs) ← wholeDigits cs
  let (fraction, cs) ← fractionDigits cs
  let (exponent, cs) ← exponentPart cs
  return (⟨negative, whole, fraction, exponent⟩, cs)

def gather : Nat → List Char → Nat × List Char
  | n, [] => (n, [])
  | n, c :: cs =>
    let m := 10 * n + Text.digitValue c
    if m ≤ maxCount then gather m cs else (n, c :: cs)

def power (n : Nat) : Float := Float.ofScientific 1 false n

def float? (significand : Nat) (exponent : Int) : Option Float :=
  let f := (UInt64.ofNat significand).toFloat
  let n := exponent.natAbs
  if significand = 0 then some 0
  else if 0 ≤ exponent then
    if 308 < n then none
    else
      let x := f * power n
      if x.isInf then none else some x
  else if n ≤ 308 then some (f / power n)
  else if n ≤ 616 then some (f / power 308 / power (n - 308))
  else some 0

/-- The float is negated last, so that zero keeps its sign. -/
def toFloat? (x : Numeral) : Option UInt64 :=
  let (n, dropped) := gather 0 x.whole
  let (n, places) := gather n x.fraction
  let shift : Int := dropped.length - (x.fraction.length - places.length : Nat)
  (float? n (shift + x.exponent.getD 0)).map fun f =>
    (if x.negative then -f else f).toBits

def toNumber? (x : Numeral) : Option Number :=
  let (n, dropped) := gather 0 x.whole
  if x.fraction.isEmpty && x.exponent.isNone && dropped.isEmpty then
    if !x.negative then some (.count n)
    else if 0 < n && n ≤ maxSigned + 1 then some (.negative n)
    else (toFloat? x).map .float
  else (toFloat? x).map .float

end Numeral

namespace Reader

def number : Reader Number := fun cs => do
  let (x, rest) ← Numeral.scan cs
  match x.toNumber? with
  | some n => return (n, rest)
  | none => .error .malformed

def skipNumber : Reader Unit := fun cs =>
  match Numeral.scan cs with
  | .ok (_, rest) => .ok ((), rest)
  | .error _ => .error .malformed

end Reader

end BitStore.Json
