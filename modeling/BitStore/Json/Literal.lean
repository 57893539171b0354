import BitStore.Json.Reader

namespace BitStore.Json.Literal

def hexQuad (n : Nat) : List Char :=
  [n / 4096 % 16, n / 256 % 16, n / 16 % 16, n % 16].map Text.hexDigit

def escape (c : Char) : List Char :=
  if c = '"' || c = '\\' then ['\\', c]
  else if c = '\x08' then ['\\', 'b']
  else if c = '\t' then ['\\', 't']
  else if c = '\n' then ['\\', 'n']
  else if c = '\x0c' then ['\\', 'f']
  else if c = '\r' then ['\\', 'r']
  else if c.toNat < 0x20 then '\\' :: 'u' :: hexQuad c.toNat
  else [c]

def write (s : List Char) : List Char :=
  '"' :: s.flatMap escape ++ ['"']

def named? (c : Char) : Option Char :=
  if c = '"' || c = '\\' || c = '/' then some c
  else if c = 'b' then some '\x08'
  else if c = 't' then some '\t'
  else if c = 'n' then some '\n'
  else if c = 'f' then some '\x0c'
  else if c = 'r' then some '\r'
  else none

def hexValue? (c : Char) : Option Nat :=
  if '0' ≤ c && c ≤ '9' then some (c.toNat - 48)
  else if 'a' ≤ c && c ≤ 'f' then some (c.toNat - 87)
  else if 'A' ≤ c && c ≤ 'F' then some (c.toNat - 55)
  else none

inductive Place where
  | plain
  | escaped
  | digits (high : Option Nat) (count value : Nat)
  | owed (high : Nat)
  | owedMark (high : Nat)
  deriving DecidableEq, Repr

/-- What a complete escape of value `n` stands for. Without pairing every value is taken as it is. -/
def resolve (pairing : Bool) (high : Option Nat) (n : Nat) : Except Failure (Option Char × Place) :=
  if !pairing then .ok (none, .plain)
  else match high with
    | some h =>
      if 0xdc00 ≤ n && n ≤ 0xdfff then
        .ok (some (Char.ofNat (0x10000 + (h - 0xd800) * 0x400 + (n - 0xdc00))), .plain)
      else .error .malformed
    | none =>
      if 0xdc00 ≤ n && n ≤ 0xdfff then .error .malformed
      else if 0xd800 ≤ n && n ≤ 0xdbff then .ok (none, .owed n)
      else .ok (some (Char.ofNat n), .plain)

/-- One character inside a string. An escape that is cut off by the end of the text is seen as such
only if fewer than four bytes were left for its digits. -/
def step (pairing : Bool) (place : Place) (c : Char) (rest : List Char) :
    Except Failure (Option Char × Place) :=
  match place with
  | .plain =>
    if c = '\\' then .ok (none, .escaped)
    else if c.toNat < 0x20 then .error .malformed
    else .ok (some c, .plain)
  | .escaped =>
    if c = 'u' then .ok (none, .digits none 0 0)
    else match named? c with
      | some d => .ok (some d, .plain)
      | none => .error .malformed
  | .digits high count value =>
    match hexValue? c with
    | some d =>
      if count = 3 then resolve pairing high (16 * value + d)
      else .ok (none, .digits high (count + 1) (16 * value + d))
    | none =>
      if count + (String.ofList (c :: rest)).utf8ByteSize < 4 then .error .endOfText
      else .error .malformed
  | .owed high => if c = '\\' then .ok (none, .owedMark high) else .error .malformed
  | .owedMark high => if c = 'u' then .ok (none, .digits (some high) 0 0) else .error .malformed

def body (pairing : Bool) : Place → List Char → Except Failure (List Char × List Char)
  | _, [] => .error .endOfText
  | place, c :: rest =>
    if place = .plain && c = '"' then .ok ([], rest)
    else match step pairing place c rest with
      | .error f => .error f
      | .ok (read, place) =>
        match body pairing place rest with
        | .error f => .error f
        | .ok (s, left) => .ok (read.toList ++ s, left)

end BitStore.Json.Literal

namespace BitStore.Json.Reader

def text : Reader (List Char) := do
  advance
  Literal.body true .plain

def skipText : Reader Unit := do
  advance
  let _ ← Literal.body false .plain

end BitStore.Json.Reader
