import ChartTree.Number.Layout
import ChartTree.Text.Glyph
import ChartTree.Value

/-! Diagnostic text of values, for people who read logs: every part is named, strings are quoted, and
characters without a glyph appear by number. -/
namespace ChartTree.Text

def diagnosticChar (c : Char) : List Char :=
  match c with
  | '\x00' => ['\\', '0']
  | '\t' => ['\\', 't']
  | '\n' => ['\\', 'n']
  | '\r' => ['\\', 'r']
  | '"' => ['\\', '"']
  | '\\' => ['\\', '\\']
  | c => if hasGlyph c then [c] else ['\\', 'u', '\x7b'] ++ Nat.toDigits 16 c.toNat ++ ['\x7d']

def diagnosticString (s : String) : String := String.ofList ('"' :: s.toList.flatMap diagnosticChar ++ ['"'])

def diagnosticBool (b : Bool) : String := if b then "true" else "false"

def diagnosticOption : Option String → String
  | some s => "Some(" ++ diagnosticString s ++ ")"
  | none => "None"

mutual
def diagnostic : Value → String
  | .null => "Null"
  | .bool b => "Bool(" ++ diagnosticBool b ++ ")"
  | .number n => "Number(" ++ Layout.diagnostic.named n ++ ")"
  | .string s => "String(" ++ diagnosticString s ++ ")"
  | .array items => "Array([" ++ diagnosticItems items ++ "])"
  | .object entries => "Object(\x7b" ++ diagnosticMembers entries ++ "\x7d)"

def diagnosticItems : List Value → String
  | [] => ""
  | [v] => diagnostic v
  | v :: vs => diagnostic v ++ ", " ++ diagnosticItems vs

def diagnosticMembers : {low : Option String} → Entries Value low → String
  | _, .nil => ""
  | _, .cons key _ value .nil => diagnosticString key ++ ": " ++ diagnostic value
  | _, .cons key _ value rest => diagnosticString key ++ ": " ++ diagnostic value ++ ", " ++ diagnosticMembers rest
end

def diagnosticMap (m : Map Value) : String := "\x7b" ++ diagnosticMembers m ++ "\x7d"

end ChartTree.Text
