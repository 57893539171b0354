import BitStore.Json.Literal

namespace BitStore.Json

def join (separator : List Char) : List (List Char) → List Char
  | [] => []
  | [a] => a
  | a :: as => a ++ separator ++ join separator as

namespace Compact

def member (m : String × List Char) : List Char :=
  Literal.write m.1.toList ++ ':' :: m.2

def map (members : List (String × List Char)) : List Char :=
  '\x7b' :: join [','] (members.map member) ++ ['\x7d']

end Compact

namespace Spread

def newline (depth : Nat) : List Char :=
  '\n' :: List.replicate (2 * depth) ' '

def enclose (opening closing : Char) (depth : Nat) : List (List Char) → List Char
  | [] => [opening, closing]
  | parts =>
    opening :: newline (depth + 1) ++ join (',' :: newline (depth + 1)) parts ++ newline depth
      ++ [closing]

def member (m : String × List Char) : List Char :=
  Literal.write m.1.toList ++ ':' :: ' ' :: m.2

def map (depth : Nat) (members : List (String × List Char)) : List Char :=
  enclose '\x7b' '\x7d' depth (members.map member)

def list (depth : Nat) (elements : List (List Char)) : List Char :=
  enclose '[' ']' depth elements

end Spread

end BitStore.Json
