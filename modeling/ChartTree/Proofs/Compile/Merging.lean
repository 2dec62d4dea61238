import ChartTree.Node.Catalogue
import ChartTree.Proofs.Compile.Placement

/-! Children that are appended to a node. What two portions of children make of a slot is put together by
the class of the slot, in front of the own property; so it does not matter in how many portions the
children of a node are declared. -/
namespace ChartTree

namespace Entries
variable {α : Type}

theorem ofListAppend (xs ys : List (String × α)) : ofList (xs ++ ys) = (ofList xs).overlay (ofList ys) := by
  apply ext
  intro k
  rw [getOverlay, ← getExtend]
  simp only [ofList, extend, List.foldl_append]

end Entries

namespace Node

inductive Addition where
  | child (node : Node)
  | children (nodes : List Node)

def Addition.declared : Addition → List Node
  | .child node => [node]
  | .children nodes => nodes

def add (n : Node) : Addition → Node
  | .child node => n.withChild node
  | .children nodes => n.withChildren nodes

theorem addDeclared (n : Node) (addition : Addition) : n.add addition = n.withChildren addition.declared := by
  cases addition <;> rfl

theorem addEach (n : Node) (additions : List Addition) :
    additions.foldl add n = n.withChildren (additions.flatMap Addition.declared) := by
  induction additions generalizing n with
  | nil =>
    cases n
    simp [withChildren]
  | cons addition rest ih => simp [ih, addDeclared, withChildren]

end Node

namespace Registry
variable {r : Registry}

/- The entry of a node, the last argument, from the entries that its early and its late children make
without the others, and from its own property. -/
inductive Merged (key : String) : Option Value → Option Value → Option Value → Option Value → Prop where
  | neither (own : Option Value) : Merged key none none own own
  | early (value : Value) (own : Option Value) : Merged key (some value) none own (some value)
  | late (value : Value) (own : Option Value) : Merged key none (some value) own (some value)
  | single (kind : Slot.classify key = .single) (first last : Value) (own : Option Value) :
      Merged key (some first) (some last) own (some last)
  | collection (kind : Slot.classify key = .collection) (front back : List Value) (own : Option Value) :
      Merged key (some (.array front)) (some (.array back)) own (some (.array (front ++ back)))
  | namedPair (kind : Slot.classify key = .namedPair) (base top : Map Value) (own : Option Value) :
      Merged key (some (.object base)) (some (.object top)) own (some (.object (base.overlay top)))

theorem bindingsAppend (slot : String) (front back : List Node) :
    r.bindings slot (front ++ back) = r.bindings slot front ++ r.bindings slot back := by
  rw [bindings, occupantsAppend, List.filterMap_append, bindings, bindings]

theorem contributionsMerged (key : String) (front back : List Node) (own : Option Value) :
    Merged key (r.contribution key front) (r.contribution key back) own
      ((r.contribution key (front ++ back)).or own) := by
  simp only [contribution, occupantsAppend, bindingsAppend]
  cases kind : Slot.classify key with
  | single =>
    rw [List.getLast?_append]
    cases (r.occupants key front).getLast? <;> cases (r.occupants key back).getLast?
    · exact .neither own
    · exact .late _ own
    · exact .early _ own
    · exact .single kind _ _ own
  | collection =>
    cases r.occupants key front <;> cases r.occupants key back
    · exact .neither own
    · exact .late _ own
    · simpa using .early _ own
    · simpa using .collection kind _ _ own
  | namedPair =>
    cases first : r.bindings key front <;> cases second : r.bindings key back
    · exact .neither own
    · exact .late _ own
    · simpa using .early _ own
    · have both := Merged.namedPair kind (.ofList (r.bindings key front)) (.ofList (r.bindings key back)) own
      rw [← Entries.ofListAppend, first, second] at both
      simpa using both

theorem contributionEntry {key : String} (other : key ≠ typeKey) (tag : Tag) (props : Map Value)
    (children : List Node) :
    (r.compile (((Node.ofTag tag).setProps props).withChildren children)).get? key =
      (r.contribution key children).or (props.get? key) :=
  (r.getCompile _ key).trans (if_neg other)

theorem appendedChildrenMerge (r : Registry) (tag : Tag) (props : Map Value) (front back : List Node) :
    let part (children : List Node) := r.compile ((Node.ofTag tag).withChildren children)
    let whole := r.compile (((Node.ofTag tag).setProps props).withChildren (front ++ back))
    (∀ key, key ≠ "type" →
      Merged key ((part front).get? key) ((part back).get? key) (props.get? key) (whole.get? key)) ∧
    ∀ (n : Node) (additions : List Node.Addition),
      r.compile (additions.foldl Node.add n) =
        r.compile (n.withChildren (additions.flatMap Node.Addition.declared)) := by
  intro part whole
  refine ⟨fun key other => ?_, fun n additions => by rw [Node.addEach]⟩
  have alone (children : List Node) : (part children).get? key = r.contribution key children :=
    (contributionEntry other tag .empty children).trans Option.or_none
  rw [alone front, alone back, contributionEntry other]
  exact contributionsMerged key front back (props.get? key)

theorem splitEncodingsMerged :
    let early := [.encoding .field "x" (.string "genre"), .encoding .field "y" (.string "sold")]
    let late := [.encoding .constant "y" (.bool true), .encoding .field "size" .null]
    let props := Entries.ofList [("encode", .null), ("legend", .bool false)]
    let bar := ((Node.ofTag (.mark .interval)).setProps props).withChildren (early ++ late)
    "encode" ≠ "type" ∧
    Merged "encode" (some (.object (.ofList [("x", .string "genre"), ("y", .string "sold")])))
      (some (.object (.ofList [("y", .bool true)]))) (some .null) ((standard.compile bar).get? "encode") ∧
    (standard.compile bar).get? "encode" =
      some (.object (.ofList [("x", .string "genre"), ("y", .bool true)])) := by
  intro early late props bar
  have other : "encode" ≠ "type" := by decide
  exact ⟨other, (appendedChildrenMerge standard (.mark .interval) props early late).1 "encode" other, rfl⟩

end Registry
end ChartTree
