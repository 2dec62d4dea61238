import ChartTree.Value

/-! JSON data as a text has it: members stand in the order of the text, and a key may be repeated. A value
is made of it by trying the kinds of values one after the other. -/
namespace ChartTree.Json

inductive Document where
  | null
  | bool (b : Bool)
  | number (n : Number)
  | string (s : String)
  | array (items : List Document)
  | object (members : List (String × Document))

namespace Document

def null? : Document → Option Value
  | .null => some .null
  | _ => none

def bool? : Document → Option Value
  | .bool b => some (.bool b)
  | _ => none

def number? : Document → Option Value
  | .number n => some (.number n)
  | _ => none

def string? : Document → Option Value
  | .string s => some (.string s)
  | _ => none

/- Members are inserted in their order, so a later one of a key replaces an earlier one. -/
mutual
def untagged? (d : Document) : Option Value :=
  d.null?.or (d.bool?.or (d.number?.or (d.string?.or ((array? d).or (object? d)))))
termination_by (sizeOf d, 1)

def array? : Document → Option Value
  | .array ds => (items? ds).map .array
  | _ => none
termination_by d => (sizeOf d, 0)

def object? : Document → Option Value
  | .object members => (inserted? .empty members).map .object
  | _ => none
termination_by d => (sizeOf d, 0)

def items? : List Document → Option (List Value)
  | [] => some []
  | d :: ds => do
    let v ← untagged? d
    let vs ← items? ds
    some (v :: vs)
termination_by ds => (sizeOf ds, 0)

def inserted? (m : Map Value) : List (String × Document) → Option (Map Value)
  | [] => some m
  | (k, d) :: members => do
    let v ← untagged? d
    inserted? (m.insert k v) members
termination_by members => (sizeOf members, 0)
end

end Document
end ChartTree.Json
