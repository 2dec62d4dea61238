/-! String-keyed maps. The keys of a map stand in increasing code-point order, and the order is part of
the type, so two maps with the same look-ups are the same map and printing one needs no sorting. -/
namespace ChartTree

def Above : Option String → String → Prop
  | none, _ => True
  | some low, key => low < key

instance (low : Option String) (key : String) : Decidable (Above low key) := by
  unfold Above; split <;> infer_instance

theorem Above.trans {low : Option String} {j k : String} (first : Above low j) (next : j < k) : Above low k := by
  cases low with
  | none => trivial
  | some low => exact String.lt_trans first next

inductive Entries (α : Type) : Option String → Type where
  | nil {low : Option String} : Entries α low
  | cons {low : Option String} (key : String) (above : Above low key) (value : α)
      (rest : Entries α (some key)) : Entries α low

abbrev Map (α : Type) := Entries α none

namespace Entries
variable {α β : Type} {low : Option String}

def empty : Map α := nil

def get? {low : Option String} : Entries α low → String → Option α
  | nil, _ => none
  | cons key _ value rest, k => if k = key then some value else rest.get? k

def contains (m : Entries α low) (k : String) : Bool := (m.get? k).isSome

def toList {low : Option String} : Entries α low → List (String × α)
  | nil => []
  | cons key _ value rest => (key, value) :: rest.toList

def size {low : Option String} : Entries α low → Nat
  | nil => 0
  | cons _ _ _ rest => rest.size + 1

def isEmpty : Entries α low → Bool
  | nil => true
  | cons .. => false

def keys (m : Entries α low) : List String := m.toList.map Prod.fst

def put {low : Option String} (k : String) (v : α) : Above low k → Entries α low → Entries α low
  | above, nil => cons k above v nil
  | above, cons key own value rest =>
    if before : k < key then cons k above v (cons key before value rest)
    else if same : k = key then cons key own v rest
    else cons key own value (put k v (by
      rcases Std.lt_trichotomy k key with h | h | h
      · exact absurd h before
      · exact absurd h same
      · exact h) rest)

def insert (m : Map α) (k : String) (v : α) : Map α := m.put k v trivial

def lower {low : Option String} {key : String} (above : Above low key) : Entries α (some key) → Entries α low
  | nil => nil
  | cons next own value rest => cons next (above.trans own) value rest

def erase {low : Option String} : Entries α low → String → Entries α low
  | nil, _ => nil
  | cons key above value rest, k =>
    if k = key then lower above rest else cons key above value (rest.erase k)

def map (f : α → β) {low : Option String} : Entries α low → Entries β low
  | nil => nil
  | cons key above value rest => cons key above (f value) (rest.map f)

def extend (m : Map α) (bindings : List (String × α)) : Map α :=
  bindings.foldl (fun m kv => m.insert kv.1 kv.2) m

def ofList (bindings : List (String × α)) : Map α := empty.extend bindings

def overlay (base top : Map α) : Map α := base.extend top.toList

theorem getEmpty (k : String) : (empty : Map α).get? k = none := rfl

theorem getBelow {key k : String} (m : Entries α (some key)) (h : ¬ key < k) : m.get? k = none := by
  suffices general : ∀ (low : Option String) (m : Entries α low), (∀ j, Above low j → j ≠ k) → m.get? k = none from
    general _ m fun j above eq => h (eq ▸ above)
  intro low m
  induction m with
  | nil => intro _; rfl
  | cons key above value rest ih =>
    intro apart
    rw [get?, if_neg (apart key above).symm]
    exact ih fun j next => apart j (above.trans next)

theorem getPut (k : String) (v : α) {low : Option String} (above : Above low k) (m : Entries α low) (j : String) :
    (m.put k v above).get? j = if j = k then some v else m.get? j := by
  induction m with
  | nil => simp [put, get?]
  | cons key own value rest ih => grind [put, get?]

theorem getInsert (m : Map α) (k : String) (v : α) (j : String) :
    (m.insert k v).get? j = if j = k then some v else m.get? j :=
  getPut k v (show Above none k from trivial) m j

theorem getLower {key : String} (above : Above low key) (m : Entries α (some key)) (k : String) :
    (lower above m).get? k = m.get? k := by
  cases m <;> rfl

theorem getErase (m : Entries α low) (k j : String) :
    (m.erase k).get? j = if j = k then none else m.get? j := by
  induction m with
  | nil => simp [erase, get?]
  | cons key above value rest ih =>
    have gone : rest.get? key = none := getBelow rest (String.lt_irrefl key)
    grind [erase, get?, getLower]

theorem getMap (f : α → β) (m : Entries α low) (k : String) : (m.map f).get? k = (m.get? k).map f := by
  induction m with
  | nil => rfl
  | cons key above value rest ih => grind [map, get?]

theorem getOverlay (base top : Map α) (k : String) :
    (base.overlay top).get? k = (top.get? k).or (base.get? k) := by
  suffices general : ∀ (low : Option String) (top : Entries α low) (base : Map α),
      (base.extend top.toList).get? k = (top.get? k).or (base.get? k) from general none top base
  intro low top
  induction top with
  | nil => intro base; rfl
  | cons key above value rest ih =>
    intro base
    have gone : rest.get? key = none := getBelow rest (String.lt_irrefl key)
    rw [toList, extend, List.foldl_cons]
    refine (ih (base.insert key value)).trans ?_
    by_cases same : k = key
    · subst same; simp [get?, gone, getInsert]
    · simp [get?, same, getInsert]

theorem getExtendAppend (m : Map α) (bindings : List (String × α)) (k : String) (v : α) (j : String) :
    (m.extend (bindings ++ [(k, v)])).get? j = if j = k then some v else (m.extend bindings).get? j := by
  simp [extend, getInsert]

theorem getExtend (m : Map α) (bindings : List (String × α)) (k : String) :
    (m.extend bindings).get? k = ((ofList bindings).get? k).or (m.get? k) := by
  induction bindings generalizing m with
  | nil => rfl
  | cons first rest ih =>
    have left := ih (m.insert first.1 first.2)
    have right := ih (empty.insert first.1 first.2)
    refine left.trans (Eq.trans ?_ (congrArg (Option.or · (m.get? k)) right.symm))
    by_cases same : k = first.1 <;> simp [getInsert, same, getEmpty]

theorem getOfListCons (first : String × α) (rest : List (String × α)) (k : String) :
    (ofList (first :: rest)).get? k =
      ((ofList rest).get? k).or (if k = first.1 then some first.2 else none) := by
  have found := getExtend (empty.insert first.1 first.2) rest k
  rwa [getInsert, getEmpty] at found

theorem getOfListMem (bindings : List (String × α)) (k : String) :
    ((ofList bindings).get? k).isSome ↔ k ∈ bindings.map Prod.fst := by
  induction bindings with
  | nil => simp [ofList, extend, getEmpty]
  | cons first rest ih =>
    by_cases same : k = first.1 <;> simp [getOfListCons, same, ← ih]

theorem ext {low : Option String} (m n : Entries α low) (h : ∀ k, m.get? k = n.get? k) : m = n := by
  induction m with
  | nil =>
    cases n with
    | nil => rfl
    | cons key above value rest => have := h key; simp [get?] at this
  | cons key above value rest ih =>
    cases n with
    | nil => have := h key; simp [get?] at this
    | cons key' above' value' rest' =>
      have same : key = key' := by
        rcases Std.lt_trichotomy key key' with lt | eq | gt
        · have found := h key
          have absent := getBelow rest' (String.lt_asymm lt)
          grind [get?]
        · exact eq
        · have found := h key'
          have absent := getBelow rest (String.lt_asymm gt)
          grind [get?]
      subst same
      have value : value = value' := by have := h key; simpa [get?] using this
      subst value
      congr 1
      apply ih
      intro k
      by_cases eq : k = key
      · subst eq
        rw [getBelow rest (String.lt_irrefl k), getBelow rest' (String.lt_irrefl k)]
      · have := h k; simpa [get?, eq] using this

theorem ofListCons {xs ys : List (String × α)} (first : String × α) (same : ofList xs = ofList ys) :
    ofList (first :: xs) = ofList (first :: ys) := by
  apply ext
  intro k
  rw [getOfListCons, getOfListCons, same]

theorem ofListRebound {rest : List (String × α)} {k : String} (v : α) (bound : k ∈ rest.map Prod.fst) :
    ofList ((k, v) :: rest) = ofList rest := by
  apply ext
  intro j
  rw [getOfListCons]
  by_cases same : j = k
  · subst same
    obtain ⟨own, found⟩ := Option.isSome_iff_exists.mp ((getOfListMem rest j).mpr bound)
    rw [found, Option.some_or]
  · rw [if_neg same, Option.or_none]

theorem sizeToList (m : Entries α low) : m.size = m.toList.length := by
  induction m with
  | nil => rfl
  | cons key above value rest ih => simp [size, toList, ih]

end Entries
end ChartTree
