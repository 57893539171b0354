import BitStore.Checked

namespace BitStore.Text

def digitChar (d : Nat) : Char := Char.ofNat (48 + d)

def isDigit (c : Char) : Bool := '0' ≤ c && c ≤ '9'

def digitValue (c : Char) : Nat := c.toNat - 48

def natural (n : Nat) : List Char :=
  if n < 10 then [digitChar n] else natural (n / 10) ++ [digitChar (n % 10)]
termination_by n
decreasing_by omega

def integer (n : Int) : List Char :=
  if n < 0 then '-' :: natural n.natAbs else natural n.natAbs

def numeralValue (cs : List Char) : Nat :=
  cs.foldl (fun n c => 10 * n + digitValue c) 0

def numeral? (cs : List Char) : Option Nat :=
  if !cs.isEmpty && cs.all isDigit then some (numeralValue cs) else none

def unsigned : List Char → List Char
  | '+' :: cs => cs
  | cs => cs

def count? (cs : List Char) : Option Nat :=
  (numeral? (unsigned cs)).filter (· ≤ maxCount)

def hexDigit (d : Nat) : Char :=
  if d < 10 then Char.ofNat (48 + d) else Char.ofNat (87 + d)

def hexadecimal (n : Nat) : List Char :=
  if n < 16 then [hexDigit n] else hexadecimal (n / 16) ++ [hexDigit (n % 16)]
termination_by n
decreasing_by omega

end BitStore.Text
