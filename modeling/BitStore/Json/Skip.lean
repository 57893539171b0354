import BitStore.Json.Number
import BitStore.Json.Literal

namespace BitStore.Json.Reader

inductive Bracket where
  | list
  | map
  deriving DecidableEq, Repr

def Bracket.closing : Bracket → Char
  | list => ']'
  | map => '\x7d'

def colon : Reader Unit := do
  match ← peek with
  | some ':' => advance
  | some _ => fail .malformed
  | none => fail .endOfText

def skipKey : Bracket → Reader Unit
  | .list => return ()
  | .map => do
    match ← peek with
    | some '"' => skipText
    | some _ => fail .malformed
    | none => fail .endOfText
    colon

def skipScalar : Reader (Option Bracket) := do
  let c ← peekValue
  if c = 'n' then
    null
    return none
  else if c = 't' || c = 'f' then
    let _ ← boolean c
    return none
  else if c = '-' || Text.isDigit c then
    skipNumber
    return none
  else if c = '"' then
    skipText
    return none
  else if c = '[' then
    advance
    return some .list
  else if c = '\x7b' then
    advance
    return some .map
  else fail .malformed

/-- Closes brackets until a further member is due, whose bracket is then the first of those left.
`fresh` says that nothing has been read yet inside the innermost one. -/
def skipEnds : Bool → List Bracket → Reader (List Bracket)
  | _, [] => return []
  | fresh, b :: bs => do
    match ← peek with
    | none => fail .endOfText
    | some c =>
      if c = b.closing then
        advance
        skipEnds false bs
      else if fresh then return b :: bs
      else if c = ',' then
        advance
        return b :: bs
      else fail .malformed

def skipMembers : Nat → List Bracket → Reader Unit
  | 0, _ => fail .malformed
  | n + 1, open_ => do
    let opened ← skipScalar
    match ← skipEnds opened.isSome (opened.toList ++ open_) with
    | [] => return ()
    | b :: bs =>
      skipKey b
      skipMembers n (b :: bs)

def skipValue : Reader Unit := fun cs => skipMembers (cs.length + 1) [] cs

end BitStore.Json.Reader
