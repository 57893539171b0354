import BitStore.Json.Skip

namespace BitStore.Json

namespace Reader

variable {α δ : Type}

def found (c : Char) : Reader Found := do
  if c = 'n' then
    null
    return .null
  else if c = 't' || c = 'f' then return .boolean (← boolean c)
  else if c = '-' || Text.isDigit c then return (← number).found
  else if c = '"' then return .text (← text)
  else if c = '[' then return .sequence
  else if c = '\x7b' then return .map
  else fail .malformed

def wrongType (c : Char) (expected : String) : Reader α := do
  refuse (.wrongType (← found c) expected)

def numberAs (expected : String) (take : Number → Except Mismatch α) : Reader α := do
  let c ← peekValue
  if c = '-' || Text.isDigit c then
    match take (← number) with
    | .ok a => return a
    | .error m => refuse m
  else wrongType c expected

def unsigned (expected : String) : Reader Nat :=
  numberAs expected fun
    | .count n => .ok n
    | .negative n => .error (.wrongValue (.integer (-n)) expected)
    | .float bits => .error (.wrongType (.float bits) expected)

def signed (expected : String) : Reader Int :=
  numberAs expected fun
    | .count n => if n ≤ maxSigned then .ok n else .error (.wrongValue (.integer n) expected)
    | .negative n => .ok (-n)
    | .float bits => .error (.wrongType (.float bits) expected)

def string (expected : String) : Reader String := do
  let c ← peekValue
  if c = '"' then return String.ofList (← text) else wrongType c expected

def optional (r : Reader α) : Reader (Option α) := do
  match ← peek with
  | some 'n' => do
    null
    return none
  | _ => return some (← r)

def anotherElement (first : Bool) : Reader Bool := do
  match ← peek with
  | none => fail .endOfText
  | some ']' => return false
  | some c =>
    if first then return true
    else if c = ',' then
      advance
      match ← peek with
      | none => fail .endOfText
      | some ']' => fail .malformed
      | some _ => return true
    else fail .malformed

def anotherKey (first : Bool) : Reader Bool := do
  match ← peek with
  | none => fail .endOfText
  | some '\x7d' => return false
  | some c =>
    if first then
      if c = '"' then return true else fail .malformed
    else if c = ',' then
      advance
      match ← peek with
      | none => fail .endOfText
      | some '"' => return true
      | some _ => fail .malformed
    else fail .malformed

def close (bracket : Bracket) : Reader Unit := do
  match ← peek with
  | none => fail .endOfText
  | some c => if c = bracket.closing then advance else fail .malformed

def elements (item : Reader α) : Nat → Bool → Reader (List α)
  | 0, _ => fail .malformed
  | n + 1, first => do
    if ← anotherElement first then
      let a ← item
      return a :: (← elements item n false)
    else return []

def list (item : Reader α) : Reader (List α) := do
  let c ← peekValue
  if c = '[' then
    advance
    let as ← fun cs => elements item (cs.length + 1) true cs
    close .list
    return as
  else wrongType c "a sequence"

end Reader

structure Member (δ : Type) where
  name : String
  isSet : δ → Bool
  read : δ → Reader δ

/-- A record type `α` with its draft `δ`, in which members may still be missing. -/
structure Record (δ α : Type) where
  name : String
  draft : δ
  members : List (Member δ)
  ofMap : δ → Except Mismatch α
  ofList : Nat → δ → Except Mismatch α

namespace Record

variable {α δ : Type}

def readMembers (members : List (Member δ)) : Nat → Bool → δ → Reader δ
  | 0, _, _ => Reader.fail .malformed
  | n + 1, first, d => do
    if ← Reader.anotherKey first then
      let key ← Reader.text
      match members.find? (fun m => m.name.toList = key) with
      | some m =>
        if m.isSet d then Reader.refuse (.duplicate m.name)
        Reader.colon
        readMembers members n false (← m.read d)
      | none =>
        Reader.colon
        Reader.skipValue
        readMembers members n false d
    else return d

def readElements : List (Member δ) → Nat → δ → Reader (Nat × δ)
  | [], count, d => return (count, d)
  | m :: ms, count, d => do
    if ← Reader.anotherElement (count == 0) then readElements ms (count + 1) (← m.read d)
    else return (count, d)

def accept : Except Mismatch α → Reader α
  | .ok a => return a
  | .error m => Reader.refuse m

def read (r : Record δ α) : Reader α := do
  let c ← Reader.peekValue
  if c = '[' then
    Reader.advance
    let (count, d) ← readElements r.members 0 r.draft
    let a ← accept (r.ofList count d)
    Reader.close .list
    return a
  else if c = '\x7b' then
    Reader.advance
    let d ← fun cs => readMembers r.members (cs.length + 1) true r.draft cs
    let a ← accept (r.ofMap d)
    Reader.close .map
    return a
  else Reader.wrongType c ("struct " ++ r.name)

end Record

end BitStore.Json
