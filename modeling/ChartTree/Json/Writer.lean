import ChartTree.Json.Token
import ChartTree.Value

/-! Writing values as JSON text. The keys of an object come in the order of its map, which is sorted. -/
namespace ChartTree.Json

mutual
def tokens : Value → List Token
  | .null => [.null]
  | .bool b => [.bool b]
  | .number n => [if n.isFinite then .number n else .null]
  | .string s => [.string s]
  | .array [] => [.arrayStart, .arrayEnd]
  | .array (v :: vs) => .arrayStart :: tokens v ++ moreItems vs
  | .object .nil => [.objectStart, .objectEnd]
  | .object (.cons k _ v rest) => .objectStart :: .string k :: .colon :: tokens v ++ moreMembers rest

def moreItems : List Value → List Token
  | [] => [.arrayEnd]
  | v :: vs => .comma :: tokens v ++ moreItems vs

def moreMembers : {low : Option String} → Entries Value low → List Token
  | _, .nil => [.objectEnd]
  | _, .cons k _ v rest => .comma :: .string k :: .colon :: tokens v ++ moreMembers rest
end

def compact (v : Value) : String := String.ofList ((tokens v).flatMap Token.text)

def newLine (level : Nat) : List Char := '\n' :: List.replicate (2 * level) ' '

mutual
def layOut (level : Nat) : Value → List Char
  | .array (v :: vs) => '[' :: newLine (level + 1) ++ layOut (level + 1) v ++ layOutItems level vs
  | .object (.cons k _ v rest) =>
    '\x7b' :: newLine (level + 1) ++ quote k ++ ':' :: ' ' :: layOut (level + 1) v ++ layOutMembers level rest
  | v => (tokens v).flatMap Token.text

def layOutItems (level : Nat) : List Value → List Char
  | [] => newLine level ++ [']']
  | v :: vs => ',' :: newLine (level + 1) ++ layOut (level + 1) v ++ layOutItems level vs

def layOutMembers (level : Nat) : {low : Option String} → Entries Value low → List Char
  | _, .nil => newLine level ++ ['\x7d']
  | _, .cons k _ v rest =>
    ',' :: newLine (level + 1) ++ quote k ++ ':' :: ' ' :: layOut (level + 1) v ++ layOutMembers level rest
end

def pretty (v : Value) : String := String.ofList (layOut 0 v)

end ChartTree.Json
