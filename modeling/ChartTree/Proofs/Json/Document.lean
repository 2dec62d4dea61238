import ChartTree.Json.Reader
import Mathlib.Logic.Basic

/-! The tokens of a document and the value it stands for. The machine reads those tokens as the document and
no others as any document, and trying the kinds of values in turn gives the value. -/
namespace ChartTree.Json

namespace Document

mutual
def tokens : Document → List Token
  | .null => [.null]
  | .bool b => [.bool b]
  | .number n => [.number n]
  | .string s => [.string s]
  | .array [] => [.arrayStart, .arrayEnd]
  | .array (d :: ds) => .arrayStart :: (tokens d ++ moreItems ds)
  | .object [] => [.objectStart, .objectEnd]
  | .object ((k, d) :: members) => .objectStart :: .string k :: .colon :: (tokens d ++ moreMembers members)

def moreItems : List Document → List Token
  | [] => [.arrayEnd]
  | d :: ds => .comma :: (tokens d ++ moreItems ds)

def moreMembers : List (String × Document) → List Token
  | [] => [.objectEnd]
  | (k, d) :: members => .comma :: .string k :: .colon :: (tokens d ++ moreMembers members)
end

mutual
def depth : Document → Nat
  | .array ds => itemsDepth ds + 1
  | .object members => membersDepth members + 1
  | _ => 0

def itemsDepth : List Document → Nat
  | [] => 0
  | d :: ds => max (depth d) (itemsDepth ds)

def membersDepth : List (String × Document) → Nat
  | [] => 0
  | (_, d) :: members => max (depth d) (membersDepth members)
end

mutual
def value : Document → Value
  | .null => .null
  | .bool b => .bool b
  | .number n => .number n
  | .string s => .string s
  | .array ds => .array (itemValues ds)
  | .object members => .object (.ofList (memberValues members))

def itemValues : List Document → List Value
  | [] => []
  | d :: ds => value d :: itemValues ds

def memberValues : List (String × Document) → List (String × Value)
  | [] => []
  | (k, d) :: members => (k, value d) :: memberValues members
end

@[elab_as_elim]
theorem partInduction {motive : Document → Prop} (null : motive .null) (bool : ∀ b, motive (.bool b))
    (number : ∀ n, motive (.number n)) (string : ∀ s, motive (.string s))
    (array : ∀ items, (∀ d ∈ items, motive d) → motive (.array items))
    (object : ∀ members, (∀ k d, (k, d) ∈ members → motive d) → motive (.object members)) :
    (d : Document) → motive d
  | .null => null
  | .bool b => bool b
  | .number n => number n
  | .string s => string s
  | .array items => array items fun d inside =>
    have _ : sizeOf d < sizeOf items := List.sizeOf_lt_of_mem inside
    partInduction null bool number string array object d
  | .object members => object members fun k d inside =>
    have _ : sizeOf (k, d) < sizeOf members := List.sizeOf_lt_of_mem inside
    partInduction null bool number string array object d
termination_by d => sizeOf d
decreasing_by
  · rw [Document.array.sizeOf_spec]
    omega
  · simp only [Document.object.sizeOf_spec, Prod.mk.sizeOf_spec] at *
    omega

theorem itemsUntagged {ds : List Document} (each : ∀ d ∈ ds, d.untagged? = some d.value) :
    items? ds = some (itemValues ds) := by
  induction ds with
  | nil => rw [items?, itemValues]
  | cons d ds ih =>
    rw [items?, each d List.mem_cons_self, ih fun e later => each e (List.mem_cons_of_mem d later), itemValues]
    rfl

theorem membersInserted {members : List (String × Document)}
    (each : ∀ k d, (k, d) ∈ members → d.untagged? = some d.value) (m : Map Value) :
    inserted? m members = some (m.extend (memberValues members)) := by
  induction members generalizing m with
  | nil => rw [inserted?]; rfl
  | cons first members ih =>
    obtain ⟨k, d⟩ := first
    rw [inserted?, each k d List.mem_cons_self]
    exact ih (fun j e later => each j e (List.mem_cons_of_mem _ later)) (m.insert k d.value)

theorem untaggedValue (d : Document) : d.untagged? = some d.value := by
  induction d using partInduction with
  | array ds each =>
    rw [untagged?, array?, itemsUntagged each]
    rfl
  | object members each =>
    rw [untagged?, array?, object?, membersInserted each]
    · rfl
    · intro ds same
      cases same
  | _ =>
    rw [untagged?]
    rfl

def Finishes (limit : Nat) (d : Document) : Prop := ∀ (stack : List Frame) (rest : List Token),
  stack.length + d.depth ≤ limit →
    finish? limit (.value stack) (d.tokens ++ rest) = finish? limit (.after d stack) rest

section
variable {limit : Nat} {stack : List Frame}

theorem finishStep {state next : State} {t : Token} {ts : List Token} (taken : step? limit state t = some next) :
    finish? limit state (t :: ts) = finish? limit next ts := by
  rw [finish?, taken]
  · rfl
  · rintro v rfl
    cases taken

theorem arrayStarts {ts : List Token} (fits : stack.length < limit) :
    finish? limit (.value stack) (.arrayStart :: ts) = finish? limit (.item stack) ts :=
  finishStep (if_pos fits)

theorem objectStarts {ts : List Token} (fits : stack.length < limit) :
    finish? limit (.value stack) (.objectStart :: ts) = finish? limit (.member stack) ts :=
  finishStep (if_pos fits)

theorem tokensStart (d : Document) : ∃ t ts, d.tokens = t :: ts ∧ t ≠ .arrayEnd := by
  cases d with
  | array ds => cases ds <;> exact ⟨_, _, rfl, nofun⟩
  | object members => cases members <;> exact ⟨_, _, rfl, nofun⟩
  | _ => exact ⟨_, [], rfl, nofun⟩

theorem itemStarts {t : Token} (more : t ≠ .arrayEnd) (rest : List Token) :
    finish? limit (.item stack) (t :: rest) = finish? limit (.value (.array [] :: stack)) (t :: rest) := by
  cases t with
  | arrayEnd => exact absurd rfl more
  | _ => rfl

theorem itemsFinish {d : Document} {ds : List Document} (each : ∀ e ∈ d :: ds, Finishes limit e)
    (done : List Document) (rest : List Token) (nested : stack.length + 1 + itemsDepth (d :: ds) ≤ limit) :
    finish? limit (.value (.array done :: stack)) (d.tokens ++ (moreItems ds ++ rest)) =
      finish? limit (.after (.array (done.reverse ++ d :: ds)) stack) rest := by
  induction ds generalizing d done with
  | nil =>
    rw [itemsDepth] at nested
    calc finish? limit (.value (.array done :: stack)) (d.tokens ++ (moreItems [] ++ rest))
        = finish? limit (.after d (.array done :: stack)) (.arrayEnd :: rest) :=
          each d List.mem_cons_self _ _ (by rw [List.length_cons]; omega)
      _ = finish? limit (.after (.array (d :: done).reverse) stack) rest := finishStep rfl
      _ = finish? limit (.after (.array (done.reverse ++ [d])) stack) rest := by rw [List.reverse_cons]
  | cons e es ih =>
    rw [itemsDepth] at nested
    calc finish? limit (.value (.array done :: stack)) (d.tokens ++ (moreItems (e :: es) ++ rest))
        = finish? limit (.after d (.array done :: stack)) (.comma :: (e.tokens ++ moreItems es) ++ rest) :=
          each d List.mem_cons_self _ _ (by rw [List.length_cons]; omega)
      _ = finish? limit (.value (.array (d :: done) :: stack)) (e.tokens ++ moreItems es ++ rest) :=
          finishStep rfl
      _ = finish? limit (.after (.array ((d :: done).reverse ++ e :: es)) stack) rest := by
          rw [List.append_assoc]
          exact ih (fun c later => each c (List.mem_cons_of_mem d later)) (d :: done) (by omega)
      _ = finish? limit (.after (.array (done.reverse ++ d :: e :: es)) stack) rest := by
          rw [List.reverse_cons, List.append_assoc, List.singleton_append]

theorem membersFinish {k : String} {d : Document} {members : List (String × Document)}
    (each : ∀ j e, (j, e) ∈ (k, d) :: members → Finishes limit e) (done : List (String × Document))
    (rest : List Token) (nested : stack.length + 1 + membersDepth ((k, d) :: members) ≤ limit) :
    finish? limit (.value (.object done k :: stack)) (d.tokens ++ (moreMembers members ++ rest)) =
      finish? limit (.after (.object (done.reverse ++ (k, d) :: members)) stack) rest := by
  induction members generalizing k d done with
  | nil =>
    rw [membersDepth] at nested
    calc finish? limit (.value (.object done k :: stack)) (d.tokens ++ (moreMembers [] ++ rest))
        = finish? limit (.after d (.object done k :: stack)) (.objectEnd :: rest) :=
          each k d List.mem_cons_self _ _ (by rw [List.length_cons]; omega)
      _ = finish? limit (.after (.object ((k, d) :: done).reverse) stack) rest := finishStep rfl
      _ = finish? limit (.after (.object (done.reverse ++ [(k, d)])) stack) rest := by rw [List.reverse_cons]
  | cons member members ih =>
    obtain ⟨j, e⟩ := member
    rw [membersDepth] at nested
    calc finish? limit (.value (.object done k :: stack)) (d.tokens ++ (moreMembers ((j, e) :: members) ++ rest))
        = finish? limit (.after d (.object done k :: stack))
            (.comma :: .string j :: .colon :: (e.tokens ++ moreMembers members) ++ rest) :=
          each k d List.mem_cons_self _ _ (by rw [List.length_cons]; omega)
      _ = finish? limit (.key ((k, d) :: done) stack)
            (.string j :: .colon :: (e.tokens ++ moreMembers members) ++ rest) := finishStep rfl
      _ = finish? limit (.colon ((k, d) :: done) j stack)
            (.colon :: (e.tokens ++ moreMembers members) ++ rest) := finishStep rfl
      _ = finish? limit (.value (.object ((k, d) :: done) j :: stack))
            (e.tokens ++ moreMembers members ++ rest) := finishStep rfl
      _ = finish? limit (.after (.object (((k, d) :: done).reverse ++ (j, e) :: members)) stack) rest := by
          rw [List.append_assoc]
          exact ih (fun i c later => each i c (List.mem_cons_of_mem _ later)) _ (by omega)
      _ = finish? limit (.after (.object (done.reverse ++ (k, d) :: (j, e) :: members)) stack) rest := by
          rw [List.reverse_cons, List.append_assoc, List.singleton_append]

theorem arrayFinishes {ds : List Document} (each : ∀ d ∈ ds, Finishes limit d) : Finishes limit (.array ds) := by
  intro stack rest nested
  rw [depth] at nested
  cases ds with
  | nil =>
    calc finish? limit (.value stack) (.arrayStart :: .arrayEnd :: rest)
        = finish? limit (.item stack) (.arrayEnd :: rest) := arrayStarts (by omega)
      _ = finish? limit (.after (.array []) stack) rest := finishStep rfl
  | cons d ds =>
    calc finish? limit (.value stack) (.arrayStart :: (d.tokens ++ moreItems ds) ++ rest)
        = finish? limit (.item stack) (d.tokens ++ moreItems ds ++ rest) := arrayStarts (by omega)
      _ = finish? limit (.value (.array [] :: stack)) (d.tokens ++ (moreItems ds ++ rest)) := by
          obtain ⟨t, ts, shape, more⟩ := tokensStart d
          rw [List.append_assoc, shape]
          exact itemStarts more _
      _ = finish? limit (.after (.array (d :: ds)) stack) rest := itemsFinish each [] rest (by omega)

theorem objectFinishes {members : List (String × Document)}
    (each : ∀ k d, (k, d) ∈ members → Finishes limit d) : Finishes limit (.object members) := by
  intro stack rest nested
  rw [depth] at nested
  cases members with
  | nil =>
    calc finish? limit (.value stack) (.objectStart :: .objectEnd :: rest)
        = finish? limit (.member stack) (.objectEnd :: rest) := objectStarts (by omega)
      _ = finish? limit (.after (.object []) stack) rest := finishStep rfl
  | cons member members =>
    obtain ⟨k, d⟩ := member
    calc finish? limit (.value stack)
          (.objectStart :: .string k :: .colon :: (d.tokens ++ moreMembers members) ++ rest)
        = finish? limit (.member stack) (.string k :: .colon :: (d.tokens ++ moreMembers members) ++ rest) :=
          objectStarts (by omega)
      _ = finish? limit (.colon [] k stack) (.colon :: (d.tokens ++ moreMembers members) ++ rest) :=
          finishStep rfl
      _ = finish? limit (.value (.object [] k :: stack)) (d.tokens ++ moreMembers members ++ rest) :=
          finishStep rfl
      _ = finish? limit (.after (.object ((k, d) :: members)) stack) rest := by
          rw [List.append_assoc]
          exact membersFinish each [] rest (by omega)

theorem finishes (limit : Nat) (d : Document) : Finishes limit d := by
  induction d using partInduction with
  | array ds each => exact arrayFinishes each
  | object members each => exact objectFinishes each
  | _ => exact fun stack rest _ => finishStep rfl

def Spelled (limit : Nat) (ts : List Token) : Prop := ∀ (stack : List Frame) (out : Document × List Token),
  stack.length ≤ limit → finish? limit (.value stack) ts = some out →
    ∃ (d : Document) (rest : List Token), ts = d.tokens ++ rest ∧ stack.length + d.depth ≤ limit

variable {state : State} {ts : List Token} {out : Document × List Token}

theorem finishTaken (unfinished : ∀ v, state ≠ .after v []) (run : finish? limit state ts = some out) :
    ∃ t rest next, ts = t :: rest ∧ step? limit state t = some next ∧ finish? limit next rest = some out := by
  cases ts with
  | nil =>
    unfold finish? at run
    split at run
    · exact absurd rfl (unfinished _)
    · cases run
    · rename_i split
      cases split
  | cons t rest =>
    rw [finish?] at run
    · obtain ⟨next, taken, later⟩ := Option.bind_eq_some_iff.mp run
      exact ⟨t, rest, next, rfl, taken, later⟩
    · exact unfinished

theorem itemsSpelled {n : Nat} (shorter : ∀ us, us.length ≤ n → Spelled limit us) (small : ts.length ≤ n)
    {done : List Document} (fits : stack.length < limit)
    (run : finish? limit (.value (.array done :: stack)) ts = some out) :
    ∃ d ds rest, ts = d.tokens ++ (moreItems ds ++ rest) ∧ stack.length + 1 + itemsDepth (d :: ds) ≤ limit := by
  -- An item takes its own tokens by the bound on all of them, and a comma lowers the bound for the others.
  induction n generalizing ts done with
  | zero =>
    cases List.length_eq_zero_iff.mp (Nat.le_zero.mp small)
    cases run
  | succ n ih =>
    obtain ⟨d, more, rfl, shallow⟩ := shorter ts small (.array done :: stack) out fits run
    rw [finishes limit d _ _ shallow] at run
    rw [List.length_cons] at shallow
    rw [List.length_append] at small
    obtain ⟨t, rest, next, rfl, taken, later⟩ := finishTaken (by simp) run
    cases t with
    | arrayEnd => exact ⟨d, [], rest, rfl, by simpa [itemsDepth] using shallow⟩
    | comma =>
      cases taken
      rw [List.length_cons] at small
      obtain ⟨e, es, last, rfl, nested⟩ :=
        ih (fun us less => shorter us (Nat.le_succ_of_le less)) (by omega) later
      refine ⟨d, e :: es, last, ?_, ?_⟩
      · rw [moreItems, List.cons_append, List.append_assoc]
      · rw [itemsDepth]
        omega
    | _ => cases taken

theorem colonTaken {done : List (String × Document)} {k : String}
    (run : finish? limit (.colon done k stack) ts = some out) :
    ∃ rest, ts = .colon :: rest ∧ finish? limit (.value (.object done k :: stack)) rest = some out := by
  obtain ⟨t, rest, next, rfl, taken, later⟩ := finishTaken (by simp) run
  cases t with
  | colon =>
    cases taken
    exact ⟨rest, rfl, later⟩
  | _ => cases taken

theorem keyTaken {done : List (String × Document)} (run : finish? limit (.key done stack) ts = some out) :
    ∃ k rest, ts = .string k :: .colon :: rest ∧
      finish? limit (.value (.object done k :: stack)) rest = some out := by
  obtain ⟨t, more, next, rfl, taken, later⟩ := finishTaken (by simp) run
  cases t with
  | string k =>
    cases taken
    obtain ⟨rest, rfl, last⟩ := colonTaken later
    exact ⟨k, rest, rfl, last⟩
  | _ => cases taken

theorem membersSpelled {n : Nat} (shorter : ∀ us, us.length ≤ n → Spelled limit us) (small : ts.length ≤ n)
    {done : List (String × Document)} {k : String} (fits : stack.length < limit)
    (run : finish? limit (.value (.object done k :: stack)) ts = some out) :
    ∃ d members rest, ts = d.tokens ++ (moreMembers members ++ rest) ∧
      stack.length + 1 + membersDepth ((k, d) :: members) ≤ limit := by
  induction n generalizing ts done k with
  | zero =>
    cases List.length_eq_zero_iff.mp (Nat.le_zero.mp small)
    cases run
  | succ n ih =>
    obtain ⟨d, more, rfl, shallow⟩ := shorter ts small (.object done k :: stack) out fits run
    rw [finishes limit d _ _ shallow] at run
    rw [List.length_cons] at shallow
    rw [List.length_append] at small
    obtain ⟨t, rest, next, rfl, taken, later⟩ := finishTaken (by simp) run
    cases t with
    | objectEnd => exact ⟨d, [], rest, rfl, by simpa [membersDepth] using shallow⟩
    | comma =>
      cases taken
      obtain ⟨j, rest, rfl, later⟩ := keyTaken later
      simp only [List.length_cons] at small
      obtain ⟨e, members, last, rfl, nested⟩ :=
        ih (fun us less => shorter us (Nat.le_succ_of_le less)) (by omega) later
      refine ⟨d, (j, e) :: members, last, ?_, ?_⟩
      · rw [moreMembers]
        simp only [List.cons_append, List.append_assoc]
      · rw [membersDepth]
        omega
    | _ => cases taken

theorem arraySpelled {n : Nat} (shorter : ∀ us, us.length ≤ n → Spelled limit us) (small : ts.length ≤ n)
    (fits : stack.length < limit) (run : finish? limit (.item stack) ts = some out) :
    ∃ ds rest, .arrayStart :: ts = (Document.array ds).tokens ++ rest ∧
      stack.length + (Document.array ds).depth ≤ limit := by
  obtain ⟨t, rest, next, rfl, taken, later⟩ := finishTaken (by simp) run
  rcases eq_or_ne t .arrayEnd with rfl | more
  · exact ⟨[], rest, rfl, fits⟩
  · rw [itemStarts more] at run
    obtain ⟨d, ds, last, split, nested⟩ := itemsSpelled shorter small fits run
    refine ⟨d :: ds, last, ?_, ?_⟩
    · rw [split, tokens, List.cons_append, List.append_assoc]
    · rw [depth]
      omega

theorem objectSpelled {n : Nat} (shorter : ∀ us, us.length ≤ n → Spelled limit us) (small : ts.length ≤ n)
    (fits : stack.length < limit) (run : finish? limit (.member stack) ts = some out) :
    ∃ members rest, .objectStart :: ts = (Document.object members).tokens ++ rest ∧
      stack.length + (Document.object members).depth ≤ limit := by
  obtain ⟨t, rest, next, rfl, taken, later⟩ := finishTaken (by simp) run
  cases t with
  | objectEnd => exact ⟨[], rest, rfl, fits⟩
  | string k =>
    cases taken
    obtain ⟨rest, rfl, later⟩ := colonTaken later
    simp only [List.length_cons] at small
    obtain ⟨d, members, last, rfl, nested⟩ := membersSpelled shorter (by omega) fits later
    refine ⟨(k, d) :: members, last, ?_, ?_⟩
    · rw [tokens]
      simp only [List.cons_append, List.append_assoc]
    · rw [depth]
      omega
  | _ => cases taken

theorem spelled (limit : Nat) {n : Nat} (small : ts.length ≤ n) : Spelled limit ts := by
  induction n generalizing ts with
  | zero =>
    intro stack out fits run
    cases List.length_eq_zero_iff.mp (Nat.le_zero.mp small)
    cases run
  | succ n ih =>
    intro stack out fits run
    obtain ⟨t, rest, next, rfl, taken, later⟩ := finishTaken (by simp) run
    have less : rest.length ≤ n := Nat.le_of_succ_le_succ small
    cases t with
    | null => exact ⟨.null, rest, rfl, fits⟩
    | bool b => exact ⟨.bool b, rest, rfl, fits⟩
    | number m => exact ⟨.number m, rest, rfl, fits⟩
    | string s => exact ⟨.string s, rest, rfl, fits⟩
    | arrayStart =>
      obtain ⟨inside, same⟩ := Option.ite_none_right_eq_some.mp taken
      cases same
      obtain ⟨ds, last, split, nested⟩ := arraySpelled (fun _ => ih) less inside later
      exact ⟨.array ds, last, split, nested⟩
    | objectStart =>
      obtain ⟨inside, same⟩ := Option.ite_none_right_eq_some.mp taken
      cases same
      obtain ⟨members, last, split, nested⟩ := objectSpelled (fun _ => ih) less inside later
      exact ⟨.object members, last, split, nested⟩
    | _ => cases taken

theorem finishIff {d : Document} {rest : List Token} :
    finish? limit (.value []) ts = some (d, rest) ↔ ts = d.tokens ++ rest ∧ d.depth ≤ limit := by
  constructor
  · intro run
    obtain ⟨d, more, rfl, nested⟩ := spelled limit (Nat.le_refl _) [] _ (Nat.zero_le limit) run
    rw [finishes limit d _ _ nested, finish?] at run
    cases run
    rw [List.length_nil, Nat.zero_add] at nested
    exact ⟨rfl, nested⟩
  · intro spelling
    obtain ⟨rfl, nested⟩ := spelling
    rw [finishes limit d _ _ (by rwa [List.length_nil, Nat.zero_add]), finish?]

end

end Document

theorem valueTaken {limit : Nat} {ts rest : List Token} {v : Value} : value? limit ts = some (v, rest) ↔
    ∃ d : Document, ts = d.tokens ++ rest ∧ d.depth ≤ limit ∧ d.value = v := by
  simp only [value?, bind, Option.bind_eq_some_iff]
  constructor
  · intro read
    obtain ⟨⟨d, more⟩, run, w, own, last⟩ := read
    cases Option.some.inj last
    rw [d.untaggedValue] at own
    obtain ⟨spelling, nested⟩ := Document.finishIff.mp run
    exact ⟨d, spelling, nested, Option.some.inj own⟩
  · intro spelling
    obtain ⟨d, split, nested, rfl⟩ := spelling
    exact ⟨(d, rest), Document.finishIff.mpr ⟨split, nested⟩, d.value, d.untaggedValue, rfl⟩

end ChartTree.Json
