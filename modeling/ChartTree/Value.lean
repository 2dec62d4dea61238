import ChartTree.Map
import ChartTree.Number

/-! Dynamic values: what properties hold and what specifications are made of. Besides plain equality
there is the numeric one, `same`, under which a NaN differs from itself and the two zeros agree. -/
namespace ChartTree

inductive Value where
  | null
  | bool (b : Bool)
  | number (n : Number)
  | string (s : String)
  | array (items : List Value)
  | object (entries : Entries Value none)

namespace Value

instance : Inhabited Value := ⟨null⟩

def isNull : Value → Bool
  | null => true
  | _ => false

def bool? : Value → Option Bool
  | bool b => some b
  | _ => none

def number? : Value → Option Number
  | number n => some n
  | _ => none

def string? : Value → Option String
  | string s => some s
  | _ => none

def array? : Value → Option (List Value)
  | array items => some items
  | _ => none

def object? : Value → Option (Map Value)
  | object entries => some entries
  | _ => none

def get? (v : Value) (key : String) : Option Value := v.object?.bind (Entries.get? · key)

mutual
def same : Value → Value → Bool
  | null, null => true
  | bool a, bool b => a == b
  | number a, number b => a.same b
  | string a, string b => a == b
  | array xs, array ys => sameItems xs ys
  | object a, object b => a.size == b.size && sameIn a b
  | _, _ => false

def sameItems : List Value → List Value → Bool
  | [], [] => true
  | x :: xs, y :: ys => same x y && sameItems xs ys
  | _, _ => false

def sameIn : {low : Option String} → Entries Value low → Map Value → Bool
  | _, .nil, _ => true
  | _, .cons key _ value rest, other =>
    (match other.get? key with
      | some found => same value found
      | none => false) && sameIn rest other
end

def sameMap (a b : Map Value) : Bool := same (object a) (object b)

mutual
def depth : Value → Nat
  | array items => itemsDepth items + 1
  | object entries => entriesDepth entries + 1
  | _ => 0

def itemsDepth : List Value → Nat
  | [] => 0
  | v :: vs => max (depth v) (itemsDepth vs)

def entriesDepth : {low : Option String} → Entries Value low → Nat
  | _, .nil => 0
  | _, .cons _ _ value rest => max (depth value) (entriesDepth rest)
end

mutual
def allNumbers (p : Number → Bool) : Value → Bool
  | number n => p n
  | array items => itemsAll p items
  | object entries => entriesAll p entries
  | _ => true

def itemsAll (p : Number → Bool) : List Value → Bool
  | [] => true
  | v :: vs => allNumbers p v && itemsAll p vs

def entriesAll (p : Number → Bool) : {low : Option String} → Entries Value low → Bool
  | _, .nil => true
  | _, .cons _ _ value rest => allNumbers p value && entriesAll p rest
end

def isFinite (v : Value) : Bool := v.allNumbers Number.isFinite

mutual
def finitePart : Value → Value
  | number n => if n.isFinite then number n else null
  | array items => array (finiteItems items)
  | object entries => object (finiteEntries entries)
  | v => v

def finiteItems : List Value → List Value
  | [] => []
  | v :: vs => finitePart v :: finiteItems vs

def finiteEntries : {low : Option String} → Entries Value low → Entries Value low
  | _, .nil => .nil
  | _, .cons key above value rest => .cons key above (finitePart value) (finiteEntries rest)
end

end Value
end ChartTree
