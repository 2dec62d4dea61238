import ChartTree.Proofs.Compile.Agreement
import Mathlib.Data.List.Lex

/-! Which nodes of a tree are compiled: those to which a path leads that enters no child in a named-pair
slot. They are listed with their paths, since equal nodes may stand in several places. -/
namespace ChartTree.Registry
variable {r : Registry} {n d : Node} {path : List Nat}

def Entered (r : Registry) (child : Node) : Prop := Slot.classify (r.slotOf child) ≠ .namedPair

instance (r : Registry) (child : Node) : Decidable (r.Entered child) := by unfold Entered; infer_instance

inductive Visited (r : Registry) : Node → List Nat → Node → Prop where
  | here (n : Node) : Visited r n [] n
  | down {n child d : Node} {position : Nat} {path : List Nat} (found : n.children[position]? = some child)
      (entered : r.Entered child) (next : Visited r child path d) : Visited r n (position :: path) d

mutual
def visits (r : Registry) : Node → List (List Nat × Node)
  | ⟨tag, id, slot, props, children⟩ => ([], ⟨tag, id, slot, props, children⟩) :: r.visitsFrom 0 children

def visitsFrom (r : Registry) (position : Nat) : List Node → List (List Nat × Node)
  | [] => []
  | child :: rest =>
    (if r.Entered child then (r.visits child).map fun visit => (position :: visit.1, visit.2) else []) ++
      r.visitsFrom (position + 1) rest
end

theorem visitsNode (r : Registry) (n : Node) : r.visits n = ([], n) :: r.visitsFrom 0 n.children := by
  cases n
  rw [visits]

theorem visitsFromIn (first : Nat) (nodes : List Node) :
    (path, d) ∈ r.visitsFrom first nodes ↔
      ∃ position child deeper, nodes[position]? = some child ∧ r.Entered child ∧
        (deeper, d) ∈ r.visits child ∧ path = (first + position) :: deeper := by
  induction nodes generalizing first with
  | nil => simp [visitsFrom]
  | cons child rest ih =>
    rw [visitsFrom, List.mem_append, ih]
    constructor
    · intro visited
      rcases visited with here | ⟨position, sibling, deeper, found, entered, inside, rfl⟩
      · split at here
        · rename_i entered
          obtain ⟨⟨deeper, _⟩, inside, same⟩ := List.mem_map.mp here
          cases same
          exact ⟨0, child, deeper, rfl, entered, inside, rfl⟩
        · cases here
      · exact ⟨position + 1, sibling, deeper, found, entered, inside, by rw [Nat.add_right_comm]; rfl⟩
    · intro visited
      obtain ⟨position, sibling, deeper, found, entered, inside, rfl⟩ := visited
      cases position with
      | zero =>
        cases found
        rw [if_pos entered]
        exact .inl (List.mem_map.mpr ⟨(deeper, d), inside, rfl⟩)
      | succ position =>
        exact .inr ⟨position, sibling, deeper, found, entered, inside, by rw [Nat.add_right_comm]; rfl⟩

theorem visitsIff : (path, d) ∈ r.visits n ↔ r.Visited n path d := by
  induction n using Node.childInduction generalizing path with
  | node n ih =>
    rw [visitsNode, List.mem_cons, visitsFromIn]
    constructor
    · intro listed
      rcases listed with here | ⟨position, child, deeper, found, entered, inside, rfl⟩
      · cases here
        exact .here _
      · rw [Nat.zero_add]
        exact .down found entered ((ih child (List.mem_of_getElem? found)).mp inside)
    · intro visited
      cases visited with
      | here => exact .inl rfl
      | @down _ child _ position deeper found entered next =>
        exact .inr ⟨position, child, deeper, found, entered,
          (ih child (List.mem_of_getElem? found)).mpr next, by rw [Nat.zero_add]⟩

/- In the lexicographic order a path comes before its extensions and before the paths to later siblings, so
an increasing list has every path once and in preorder. -/
theorem visitsFromOrdered (first : Nat) {nodes : List Node}
    (below : ∀ child ∈ nodes, (r.visits child).Pairwise fun a b => a.1 < b.1) :
    (r.visitsFrom first nodes).Pairwise fun a b => a.1 < b.1 := by
  induction nodes generalizing first with
  | nil => rw [visitsFrom]; exact .nil
  | cons child rest ih =>
    rw [visitsFrom, List.pairwise_append]
    refine ⟨?_, ih (first + 1) fun sibling inside => below sibling (List.mem_cons_of_mem _ inside), ?_⟩
    · split
      · refine List.pairwise_map.mpr ((below child List.mem_cons_self).imp fun before => ?_)
        exact List.cons_lt_cons_iff.mpr (.inr ⟨rfl, before⟩)
      · exact .nil
    · intro left here right later
      obtain ⟨position, _, deeper, _, _, _, split⟩ := visitsFromIn (first + 1) rest |>.mp later
      split at here
      · obtain ⟨visit, _, rfl⟩ := List.mem_map.mp here
        rw [split]
        exact List.cons_lt_cons_iff.mpr (.inl (by omega))
      · cases here

theorem visitsOrdered (r : Registry) (n : Node) : (r.visits n).Pairwise fun a b => a.1 < b.1 := by
  induction n using Node.childInduction with
  | node n ih =>
    rw [visitsNode, List.pairwise_cons]
    refine ⟨fun visit later => ?_, visitsFromOrdered 0 ih⟩
    obtain ⟨position, _, deeper, _, _, _, split⟩ := visitsFromIn 0 n.children |>.mp later
    rw [split]
    exact List.nil_lt_cons _ _

theorem enteredCons {α : Type} (f : Node → List α) (child : Node) (rest : List Node) :
    ((child :: rest).filter r.Entered).flatMap f =
      (if r.Entered child then f child else []) ++ (rest.filter r.Entered).flatMap f := by
  rw [List.filter_cons]
  split <;> simp_all

def reached (r : Registry) (n : Node) : List Node := (r.visits n).map Prod.snd

theorem reachedNode (r : Registry) (n : Node) :
    r.reached n = n :: (n.children.filter r.Entered).flatMap r.reached := by
  have below : ∀ (first : Nat) (nodes : List Node),
      (r.visitsFrom first nodes).map Prod.snd = (nodes.filter r.Entered).flatMap r.reached := by
    intro first nodes
    induction nodes generalizing first with
    | nil => rw [visitsFrom]; rfl
    | cons child rest ih =>
      rw [visitsFrom, List.map_append, ih, enteredCons]
      split <;> simp [reached, Function.comp_def]
  rw [reached, visitsNode, List.map_cons, below]

end ChartTree.Registry
