import BitStore.Json.Failure

namespace BitStore.Json

abbrev Reader (α : Type) := StateT (List Char) (Except Failure) α

namespace Reader

variable {α : Type}

def fail (f : Failure) : Reader α := fun _ => .error f

def refuse (m : Mismatch) : Reader α := fail (.mismatch m)

def isSpace (c : Char) : Bool :=
  c = ' ' || c = '\n' || c = '\t' || c = '\r'

def peek : Reader (Option Char) := fun cs =>
  let rest := cs.dropWhile isSpace
  .ok (rest.head?, rest)

def peekValue : Reader Char := do
  match ← peek with
  | some c => return c
  | none => fail .endOfText

def advance : Reader Unit := fun cs => .ok ((), cs.tail)

def word : List Char → Reader Unit
  | [] => fun cs => .ok ((), cs)
  | w :: ws => fun cs =>
    match cs with
    | [] => .error .endOfText
    | c :: rest => if c = w then word ws rest else .error .malformed

def null : Reader Unit := do
  advance
  word ['u', 'l', 'l']

def boolean (first : Char) : Reader Bool := do
  advance
  word (if first = 't' then ['r', 'u', 'e'] else ['a', 'l', 's', 'e'])
  return first = 't'

def finish : Reader Unit := do
  if (← peek).isSome then fail .malformed

def run (r : Reader α) (text : List Char) : Except Failure α := do
  let (a, rest) ← r text
  let _ ← finish rest
  return a

end Reader

end BitStore.Json
