import ChartTree.Compile
import Mathlib.Data.List.Induction

/-! What the children of a node leave in the three layers. Each layer holds exactly the slots of its own
class, so the entry under a key is decided by the children in that slot and the own property alone. -/
namespace ChartTree

namespace Slot

theorem insertOwn {α : Type} (m : Map α) (slot key : String) (f : String → α) {kind : SlotClass}
    (own : Slot.classify slot = kind) :
    (m.insert slot (f slot)).get? key =
      if slot = key ∧ Slot.classify key = kind then some (f key) else m.get? key := by
  rw [Entries.getInsert]
  split
  · rename_i same
    subst same
    rw [if_pos ⟨rfl, own⟩]
  · rename_i other
    rw [if_neg fun taken => other taken.1.symm]

theorem otherClass {slot key : String} {kind wanted : SlotClass} (own : Slot.classify slot = kind)
    (differ : kind ≠ wanted) : ¬ (slot = key ∧ Slot.classify key = wanted) := by
  intro taken
  obtain ⟨rfl, found⟩ := taken
  exact differ (own.symm.trans found)

end Slot

namespace Registry
variable (r : Registry)

def occupants (slot : String) (children : List Node) : List Node :=
  children.filter fun child => r.slotOf child = slot

def bindings (slot : String) (children : List Node) : List (String × Value) :=
  (r.occupants slot children).filterMap Node.namedPair?

def put (layers : Layers) (child : Node) : Layers :=
  match Slot.classify (r.slotOf child) with
  | .single => layers.occupy (r.slotOf child) (r.compile child).toValue
  | .collection => layers.append (r.slotOf child) (r.compile child).toValue
  | .namedPair =>
    match child.namedPair? with
    | some (name, value) => layers.bind (r.slotOf child) name value
    | none => layers

theorem placeFold (children : List Node) (layers : Layers) :
    r.place children layers = children.foldl r.put layers := by
  induction children generalizing layers with
  | nil => rw [place, List.foldl_nil]
  | cons child rest ih => rw [place, ih]; rfl

theorem placeCons (child : Node) (rest : List Node) (layers : Layers) :
    r.place (child :: rest) layers = r.place rest (r.put layers child) := by
  rw [placeFold, placeFold, List.foldl_cons]

theorem placeSnoc (front : List Node) (child : Node) (layers : Layers) :
    r.place (front ++ [child]) layers = r.put (r.place front layers) child := by
  simp only [placeFold, List.foldl_append, List.foldl_cons, List.foldl_nil]

theorem occupantsAppend (slot : String) (front back : List Node) :
    r.occupants slot (front ++ back) = r.occupants slot front ++ r.occupants slot back :=
  List.filter_append ..

theorem occupantsCons (slot : String) (child : Node) (rest : List Node) :
    r.occupants slot (child :: rest) =
      if r.slotOf child = slot then child :: r.occupants slot rest else r.occupants slot rest := by
  simp only [occupants, List.filter_cons, decide_eq_true_eq]

theorem occupantChild {slot : String} {children : List Node} {child : Node} :
    child ∈ r.occupants slot children ↔ child ∈ children ∧ r.slotOf child = slot := by
  simp only [occupants, List.mem_filter, decide_eq_true_eq]

theorem occupantsSnoc (slot : String) (front : List Node) (child : Node) :
    r.occupants slot (front ++ [child]) =
      if r.slotOf child = slot then r.occupants slot front ++ [child] else r.occupants slot front := by
  rw [occupantsAppend]
  split <;> simp_all [occupants]

theorem bindingsSnoc (slot : String) (front : List Node) (child : Node) :
    r.bindings slot (front ++ [child]) =
      if r.slotOf child = slot then r.bindings slot front ++ child.namedPair?.toList
      else r.bindings slot front := by
  simp only [bindings, occupantsSnoc]
  split
  · cases h : child.namedPair? <;> simp [h]
  · rfl

/- One child changes a layer at its own slot only, and only if the layer belongs to the class of the slot. -/
theorem singlesPut (layers : Layers) (child : Node) (key : String) :
    (r.put layers child).singles.get? key =
      if r.slotOf child = key ∧ Slot.classify key = .single then some (r.compile child).toValue
      else layers.singles.get? key := by
  unfold put
  split
  · rename_i kind
    exact Slot.insertOwn _ _ key (fun _ => (r.compile child).toValue) kind
  · rename_i kind
    rw [if_neg (Slot.otherClass kind (by decide))]
    rfl
  · rename_i kind
    rw [if_neg (Slot.otherClass kind (by decide))]
    split <;> rfl

theorem collectionsPut (layers : Layers) (child : Node) (key : String) :
    (r.put layers child).collections.get? key =
      if r.slotOf child = key ∧ Slot.classify key = .collection then
        some ((layers.collections.get? key).getD [] ++ [(r.compile child).toValue])
      else layers.collections.get? key := by
  unfold put
  split
  · rename_i kind
    rw [if_neg (Slot.otherClass kind (by decide))]
    rfl
  · rename_i kind
    exact Slot.insertOwn _ _ key (fun slot => (layers.collections.get? slot).getD [] ++ [_]) kind
  · rename_i kind
    rw [if_neg (Slot.otherClass kind (by decide))]
    split <;> rfl

theorem pairsPut (layers : Layers) (child : Node) (key : String) :
    (r.put layers child).pairs.get? key =
      if r.slotOf child = key ∧ Slot.classify key = .namedPair then
        match child.namedPair? with
        | some (name, value) => some (((layers.pairs.get? key).getD .empty).insert name value)
        | none => layers.pairs.get? key
      else layers.pairs.get? key := by
  unfold put
  split
  · rename_i kind
    rw [if_neg (Slot.otherClass kind (by decide))]
    rfl
  · rename_i kind
    rw [if_neg (Slot.otherClass kind (by decide))]
    rfl
  · rename_i kind
    cases pair : child.namedPair? with
    | none => rw [ite_self]
    | some binding =>
      exact Slot.insertOwn _ _ key (fun slot => ((layers.pairs.get? slot).getD .empty).insert _ _) kind

theorem placedSingles (children : List Node) (key : String) :
    (r.place children .empty).singles.get? key =
      if Slot.classify key = .single then
        (r.occupants key children).getLast?.map fun child => (r.compile child).toValue
      else none := by
  induction children using List.reverseRecOn with
  | nil => simp [place, Layers.empty, Entries.getEmpty, occupants]
  | append_singleton front child ih =>
    rw [placeSnoc, singlesPut, ih, occupantsSnoc]
    by_cases own : r.slotOf child = key <;> by_cases kind : Slot.classify key = .single <;> simp [own, kind]

theorem placedCollections (children : List Node) (key : String) :
    (r.place children .empty).collections.get? key =
      if Slot.classify key = .collection ∧ r.occupants key children ≠ [] then
        some ((r.occupants key children).map fun child => (r.compile child).toValue)
      else none := by
  induction children using List.reverseRecOn with
  | nil => simp [place, Layers.empty, Entries.getEmpty, occupants]
  | append_singleton front child ih =>
    rw [placeSnoc, collectionsPut, ih, occupantsSnoc]
    by_cases own : r.slotOf child = key <;> by_cases kind : Slot.classify key = .collection <;>
      simp [own, kind]
    by_cases first : r.occupants key front = [] <;> simp [first]

theorem placedPairs (children : List Node) (key : String) :
    (r.place children .empty).pairs.get? key =
      if Slot.classify key = .namedPair ∧ r.bindings key children ≠ [] then
        some (.ofList (r.bindings key children))
      else none := by
  induction children using List.reverseRecOn with
  | nil => simp [place, Layers.empty, Entries.getEmpty, bindings, occupants]
  | append_singleton front child ih =>
    rw [placeSnoc, pairsPut, ih, bindingsSnoc]
    by_cases own : r.slotOf child = key <;> by_cases kind : Slot.classify key = .namedPair <;>
      simp [own, kind]
    cases pair : child.namedPair? with
    | none => simp
    | some binding =>
      by_cases first : r.bindings key front = [] <;> simp [first, Entries.ofList, Entries.extend]

def contribution (key : String) (children : List Node) : Option Value :=
  match Slot.classify key with
  | .single => (r.occupants key children).getLast?.map fun child => (r.compile child).toValue
  | .collection =>
    if r.occupants key children = [] then none
    else some (.array ((r.occupants key children).map fun child => (r.compile child).toValue))
  | .namedPair =>
    if r.bindings key children = [] then none else some (.object (.ofList (r.bindings key children)))

theorem contributionCongr {key : String} {xs ys : List Node} (same : r.occupants key xs = r.occupants key ys) :
    r.contribution key xs = r.contribution key ys := by
  rw [contribution, contribution, bindings, bindings, same]

theorem getPlaced (children : List Node) (props : Map Value) (key : String) :
    ((r.place children .empty).onto props).get? key =
      (r.contribution key children).or (props.get? key) := by
  rw [Layers.getOnto, placedSingles, placedCollections, placedPairs, contribution]
  cases kind : Slot.classify key with
  | single => simp
  | collection => by_cases first : r.occupants key children = [] <;> simp [first]
  | namedPair => by_cases first : r.bindings key children = [] <;> simp [first]

theorem getCompile (n : Node) (key : String) :
    (r.compile n).get? key =
      if key = typeKey then some (.string n.tag.variant)
      else (r.contribution key n.children).or (n.props.get? key) := by
  obtain ⟨tag, id, slot, props, children⟩ := n
  rw [compile, Layers.getAssemble, getPlaced, Entries.getErase]
  by_cases isType : key = typeKey <;> simp [isType]

end Registry
end ChartTree
