import BitStore.Text.Numeral

namespace BitStore.Text

def decimalPlaces (rest unit : Nat) : List Char :=
  let width := (natural unit).length - 1
  let digits := natural rest
  let padded := List.replicate (width - digits.length) '0' ++ digits
  (padded.reverse.dropWhile (· == '0')).reverse

def inUnit (n unit : Nat) (name : List Char) : List Char :=
  let places := if n % unit = 0 then [] else '.' :: decimalPlaces (n % unit) unit
  natural (n / unit) ++ places ++ name

def duration (nanoseconds : Nat) : List Char :=
  if 1000000000 ≤ nanoseconds then inUnit nanoseconds 1000000000 ['s']
  else if 1000000 ≤ nanoseconds then inUnit nanoseconds 1000000 ['m', 's']
  else if 1000 ≤ nanoseconds then inUnit nanoseconds 1000 ['µ', 's']
  else inUnit nanoseconds 1 ['n', 's']

end BitStore.Text
