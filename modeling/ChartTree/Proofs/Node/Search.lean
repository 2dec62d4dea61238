import ChartTree.Proofs.Node.Tree
import Mathlib.Data.List.Lex

/-! The search for an identifier. Every node stands at a path of child indices, and of the nodes with the
identifier the one at the least path is found. Paths are compared lexicographically: a path comes before its
extensions and before the paths to later siblings and below them, so their order is preorder. -/
namespace ChartTree.Node
variable {id : UInt64} {n d : Node} {position : Nat} {path : List Nat}

def at? (n : Node) : List Nat → Option Node
  | [] => some n
  | position :: path => n.children[position]?.bind fun child => child.at? path

def Lacks (n : Node) (id : UInt64) : Prop := ∀ path d, n.at? path = some d → d.id ≠ some id

structure First (n : Node) (id : UInt64) (path : List Nat) (d : Node) : Prop where
  found : n.at? path = some d
  named : d.id = some id
  least : ∀ before < path, ∀ other, n.at? before = some other → other.id ≠ some id

theorem atBelow : n.at? (position :: path) = some d ↔
    ∃ child, n.children[position]? = some child ∧ child.at? path = some d :=
  Option.bind_eq_some_iff

theorem lacksBelow : n.Lacks id ↔ n.id ≠ some id ∧ ∀ child ∈ n.children, child.Lacks id := by
  constructor
  · intro lacks
    refine ⟨lacks [] n rfl, fun child inside path d found => ?_⟩
    obtain ⟨position, stands⟩ := List.getElem?_of_mem inside
    exact lacks (position :: path) d (atBelow.mpr ⟨child, stands, found⟩)
  · intro lacks path d found
    obtain ⟨own, below⟩ := lacks
    cases path with
    | nil =>
      cases found
      exact own
    | cons position path =>
      obtain ⟨child, stands, deeper⟩ := atBelow.mp found
      exact below child (List.mem_of_getElem? stands) path d deeper

theorem firstSelf (own : n.id = some id) : n.First id path d ↔ path = [] ∧ d = n := by
  constructor
  · intro first
    cases path with
    | nil => exact ⟨rfl, (Option.some.inj first.found).symm⟩
    | cons position path => exact absurd own (first.least [] (List.nil_lt_cons _ _) n rfl)
  · intro same
    obtain ⟨rfl, rfl⟩ := same
    exact ⟨rfl, own, fun before earlier => absurd earlier (List.not_lt_nil before)⟩

def LackedBefore (nodes : List Node) (position : Nat) (id : UInt64) : Prop :=
  ∀ before < position, ∀ sibling, nodes[before]? = some sibling → sibling.Lacks id

/- Before a path into a child come the node itself, the earlier siblings with all below them, and what
comes first in the child. -/
theorem firstBelow (other : n.id ≠ some id) :
    n.First id (position :: path) d ↔ ∃ child, n.children[position]? = some child ∧
      LackedBefore n.children position id ∧ child.First id path d := by
  constructor
  · intro first
    obtain ⟨child, stands, found⟩ := atBelow.mp first.found
    refine ⟨child, stands, ?_, found, first.named, ?_⟩
    · intro before earlier sibling front path e inside
      exact first.least (before :: path) (List.cons_lt_cons_iff.mpr (.inl earlier)) e
        (atBelow.mpr ⟨sibling, front, inside⟩)
    · intro before earlier e inside
      exact first.least (position :: before) (List.cons_lt_cons_iff.mpr (.inr ⟨rfl, earlier⟩)) e
        (atBelow.mpr ⟨child, stands, inside⟩)
  · intro below
    obtain ⟨child, stands, front, first⟩ := below
    refine ⟨atBelow.mpr ⟨child, stands, first.found⟩, first.named, ?_⟩
    intro before earlier e inside
    cases before with
    | nil =>
      cases inside
      exact other
    | cons index deeper =>
      obtain ⟨sibling, there, inside⟩ := atBelow.mp inside
      rcases List.cons_lt_cons_iff.mp earlier with left | ⟨rfl, same⟩
      · exact front index left sibling there deeper e inside
      · cases there.symm.trans stands
        exact first.least deeper same e inside

theorem findNode (id : UInt64) (n : Node) :
    n.find? id = if n.id = some id then some n else findIn? id n.children := by
  cases n
  rw [find?]

theorem findInNone (nodes : List Node) :
    findIn? id nodes = none ↔ ∀ child ∈ nodes, child.find? id = none := by
  induction nodes with
  | nil => simp [findIn?]
  | cons first rest ih => rw [findIn?, Option.or_eq_none_iff, ih, List.forall_mem_cons]

theorem findInSome (nodes : List Node) :
    findIn? id nodes = some d ↔ ∃ (position : Nat) (child : Node), nodes[position]? = some child ∧
      child.find? id = some d ∧
      ∀ before < position, ∀ sibling : Node, nodes[before]? = some sibling → sibling.find? id = none := by
  induction nodes with
  | nil => simp [findIn?]
  | cons first rest ih =>
    rw [findIn?, Option.or_eq_some_iff, ih]
    constructor
    · intro found
      rcases found with here | ⟨absent, position, child, stands, found, earlier⟩
      · exact ⟨0, first, rfl, here, fun before below => absurd below (Nat.not_lt_zero before)⟩
      · refine ⟨position + 1, child, stands, found, fun before below sibling there => ?_⟩
        cases before with
        | zero =>
          cases there
          exact absent
        | succ before => exact earlier before (Nat.lt_of_succ_lt_succ below) sibling there
    · intro found
      obtain ⟨position, child, stands, found, earlier⟩ := found
      cases position with
      | zero =>
        cases stands
        exact .inl found
      | succ position =>
        exact .inr ⟨earlier 0 (Nat.succ_pos position) first rfl, position, child, stands, found,
          fun before below => earlier (before + 1) (Nat.succ_lt_succ below)⟩

theorem findNone : n.find? id = none ↔ n.Lacks id := by
  induction n using childInduction with
  | node n ih =>
    rw [findNode, lacksBelow]
    split
    · rename_i own
      simp [own]
    · rename_i other
      rw [findInNone]
      exact ⟨fun absent => ⟨other, fun child inside => (ih child inside).mp (absent child inside)⟩,
        fun lacks child inside => (ih child inside).mpr (lacks.2 child inside)⟩

theorem findFirst : n.find? id = some d ↔ ∃ path, n.First id path d := by
  induction n using childInduction generalizing d with
  | node n ih =>
    rw [findNode]
    split
    · rename_i own
      simp [firstSelf own, eq_comm]
    · rename_i other
      rw [findInSome]
      constructor
      · intro found
        obtain ⟨position, child, stands, found, earlier⟩ := found
        obtain ⟨path, first⟩ := (ih child (List.mem_of_getElem? stands)).mp found
        exact ⟨position :: path, (firstBelow other).mpr ⟨child, stands,
          fun before left sibling there => findNone.mp (earlier before left sibling there), first⟩⟩
      · intro found
        obtain ⟨path, first⟩ := found
        cases path with
        | nil =>
          cases first.found
          exact absurd first.named other
        | cons position path =>
          obtain ⟨child, stands, front, first⟩ := (firstBelow other).mp first
          exact ⟨position, child, stands, (ih child (List.mem_of_getElem? stands)).mpr ⟨path, first⟩,
            fun before left sibling there => findNone.mpr (front before left sibling there)⟩

theorem findPreorder (id : UInt64) (n : Node) : n.find? id = n.preorder.find? fun d => d.id = some id := by
  have listed : ∀ nodes : List Node,
      (∀ child ∈ nodes, child.find? id = child.preorder.find? fun d => d.id = some id) →
      findIn? id nodes = (preorderAll nodes).find? fun d => d.id = some id := by
    intro nodes each
    induction nodes with
    | nil => rw [findIn?, preorderAll, List.find?_nil]
    | cons first rest ih =>
      obtain ⟨here, later⟩ := List.forall_mem_cons.mp each
      rw [findIn?, preorderAll, List.find?_append, here, ih later]
  induction n using childInduction with
  | node n ih =>
    rw [findNode, preorderNode, List.find?_cons, descendants, listed n.children ih]
    split <;> simp_all

theorem foundInPreorder (n : Node) (id : UInt64) :
    (∀ d, n.find? id = some d ↔ ∃ path, n.First id path d) ∧ (n.find? id = none ↔ n.Lacks id) ∧
      n.find? id = n.preorder.find? fun d => d.id = some id :=
  ⟨fun _ => findFirst, findNone, findPreorder id n⟩

example :
    let deep := (ofTag (.transform .bin)).withId 1
    let hidden := (ofTag (.encode .field)).withChild deep
    ((ofTag .defaultView).withChildren [hidden, (ofTag (.mark .line)).withId 1]).find? 1 = some deep := rfl

end ChartTree.Node
