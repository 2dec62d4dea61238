import ChartTree.Json.Document
import ChartTree.Json.Token
import ChartTree.Spec

/-! Reading values and specifications from JSON text, which is first cut into tokens. A value is read whole
before it is decided what it is; the members of a specification are entered one by one as they are read. -/
namespace ChartTree.Json

/-- An unfinished container with its parts so far, the last one first. -/
inductive Frame where
  | array (items : List Document)
  | object (members : List (String × Document)) (key : String)

inductive State where
  | value (stack : List Frame)
  | item (stack : List Frame)
  | member (stack : List Frame)
  | key (members : List (String × Document)) (stack : List Frame)
  | colon (members : List (String × Document)) (key : String) (stack : List Frame)
  | after (d : Document) (stack : List Frame)

def nestingLimit : Nat := 127

def start? (limit : Nat) (stack : List Frame) : Token → Option State
  | .null => some (.after .null stack)
  | .bool b => some (.after (.bool b) stack)
  | .number n => some (.after (.number n) stack)
  | .string s => some (.after (.string s) stack)
  | .arrayStart => if stack.length < limit then some (.item stack) else none
  | .objectStart => if stack.length < limit then some (.member stack) else none
  | _ => none

def step? (limit : Nat) : State → Token → Option State
  | .value stack, t => start? limit stack t
  | .item stack, .arrayEnd => some (.after (.array []) stack)
  | .item stack, t => start? limit (.array [] :: stack) t
  | .member stack, .objectEnd => some (.after (.object []) stack)
  | .member stack, .string k => some (.colon [] k stack)
  | .key members stack, .string k => some (.colon members k stack)
  | .colon members k stack, .colon => some (.value (.object members k :: stack))
  | .after d (.array items :: stack), .comma => some (.value (.array (d :: items) :: stack))
  | .after d (.array items :: stack), .arrayEnd => some (.after (.array (d :: items).reverse) stack)
  | .after d (.object members k :: stack), .comma => some (.key ((k, d) :: members) stack)
  | .after d (.object members k :: stack), .objectEnd =>
    some (.after (.object ((k, d) :: members).reverse) stack)
  | _, _ => none

def finish? (limit : Nat) : State → List Token → Option (Document × List Token)
  | .after d [], ts => some (d, ts)
  | _, [] => none
  | state, t :: ts => do finish? limit (← step? limit state t) ts

theorem finishShorter {limit : Nat} {state : State} {ts rest : List Token} {d : Document}
    (run : finish? limit state ts = some (d, rest)) : rest.length ≤ ts.length := by
  fun_induction finish? limit state ts with
  | case1 => cases run; exact Nat.le_refl _
  | case2 => cases run
  | case3 state t ts _ ih =>
    obtain ⟨next, -, later⟩ := Option.bind_eq_some_iff.mp run
    exact Nat.le_succ_of_le (ih next later)

def value? (limit : Nat) (ts : List Token) : Option (Value × List Token) := do
  let (d, rest) ← finish? limit (.value []) ts
  let v ← d.untagged?
  some (v, rest)

theorem valueShorter {limit : Nat} {ts rest : List Token} {v : Value} (read : value? limit ts = some (v, rest)) :
    rest.length ≤ ts.length := by
  simp only [value?, bind, Option.bind_eq_some_iff] at read
  obtain ⟨⟨d, more⟩, run, w, -, last⟩ := read
  cases Option.some.inj last
  exact finishShorter run

def members? (limit : Nat) (entries : Map Value) (ts : List Token) : Option (Map Value × List Token) :=
  match ts with
  | .string k :: .colon :: ts =>
    match _taken : value? limit ts with
    | some (v, .comma :: rest) => members? limit (entries.insert k v) rest
    | some (v, .objectEnd :: rest) => some (entries.insert k v, rest)
    | _ => none
  | _ => none
termination_by ts.length
decreasing_by
  have shorter := valueShorter _taken
  simp only [List.length_cons] at shorter ⊢
  omega

def entries? : Nat → List Token → Option (Map Value × List Token)
  | _ + 1, .objectStart :: .objectEnd :: ts => some (.empty, ts)
  | limit + 1, .objectStart :: ts => members? limit .empty ts
  | _, _ => none

def read? (limit : Nat) (text : String) : Option Value := do
  let (tokens, rest) := cut text.toList
  let (v, more) ← value? limit tokens
  if more.isEmpty && rest.isEmpty then some v else none

inductive ReadError where
  | malformed
  | notAnObject
  | noType (cause : SpecError)
  deriving DecidableEq, Repr

def readValue (text : String) : Except ReadError Value :=
  match read? nestingLimit text with
  | some v => .ok v
  | none => .error .malformed

def startsOther : Token → Bool
  | .arrayStart | .null | .bool _ | .number _ | .string _ => true
  | _ => false

/-- Reads exactly one specification. What is found first is reported: a first token that opens no object
is enough to refuse the text, and a missing type is seen at the end of the object, before anything that
follows it. -/
def readSpec (text : String) : Except ReadError Spec :=
  let (tokens, rest) := cut text.toList
  match tokens with
  | [] => .error .malformed
  | first :: _ =>
    if startsOther first then .error .notAnObject
    else
      match entries? nestingLimit tokens with
      | none => .error .malformed
      | some (entries, more) => do
        let spec ← (Spec.ofEntries entries).mapError .noType
        if more.isEmpty && rest.isEmpty then .ok spec else .error .malformed

end ChartTree.Json
