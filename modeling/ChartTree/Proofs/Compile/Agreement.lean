import ChartTree.Proofs.Compile.Placement
import ChartTree.Proofs.Node.Tree
import Mathlib.Data.List.Forall2

/-! When two nodes compile alike. Of the children in a slot only the last one counts, or their list, or
what they bind, by the class of the slot; own properties count where the children leave nothing. The two
nodes may be compiled with different registries. -/
namespace ChartTree

theorem Entries.ofListEmpty {α : Type} (bindings : List (String × α)) :
    Entries.ofList bindings = .empty ↔ bindings = [] := by
  constructor
  · intro empty
    rcases List.eq_nil_or_concat bindings with rfl | ⟨front, ⟨key, value⟩, rfl⟩
    · rfl
    · have found := Entries.getExtendAppend .empty front key value key
      rw [if_pos rfl, ← List.concat_eq_append] at found
      rw [Entries.ofList] at empty
      rw [empty] at found
      cases found
  · rintro rfl
    rfl

theorem Spec.ext {a b : Spec} (same : a.entries = b.entries) : a = b := by
  cases a
  cases b
  cases same
  rfl

namespace Registry
variable {r s : Registry}

theorem relatedOccupants {R : Node → Node → Prop} (slots : ∀ {x y}, R x y → r.slotOf x = r.slotOf y)
    {xs ys : List Node} (slot : String) (all : List.Forall₂ R xs ys) :
    List.Forall₂ R (r.occupants slot xs) (r.occupants slot ys) :=
  List.rel_filter (fun x y related => by simp only [slots related]) all

theorem lastOverwritten {child : Node} {later : List Node}
    (taken : r.occupants (r.slotOf child) later ≠ []) (slot : String) :
    (r.occupants slot (child :: later)).getLast? = (r.occupants slot later).getLast? := by
  rw [occupantsCons]
  split
  · rename_i own
    subst own
    obtain ⟨next, rest, shape⟩ := List.exists_cons_of_ne_nil taken
    rw [shape, List.getLast?_cons_cons]
  · rfl

theorem contributionSame {key : String} {xs ys : List Node}
    (single : Slot.classify key = .single →
      (r.occupants key xs).getLast?.map r.compile = (s.occupants key ys).getLast?.map s.compile)
    (collection : Slot.classify key = .collection →
      (r.occupants key xs).map r.compile = (s.occupants key ys).map s.compile)
    (namedPair : Slot.classify key = .namedPair →
      Entries.ofList (r.bindings key xs) = Entries.ofList (s.bindings key ys)) :
    r.contribution key xs = s.contribution key ys := by
  unfold contribution
  cases kind : Slot.classify key with
  | single =>
    have last := congrArg (Option.map Spec.toValue) (single kind)
    simpa only [Option.map_map, Function.comp_def] using last
  | collection =>
    have free : r.occupants key xs = [] ↔ s.occupants key ys = [] := by
      rw [← List.map_eq_nil_iff, collection kind, List.map_eq_nil_iff]
    have items := congrArg (List.map Spec.toValue) (collection kind)
    simp only [List.map_map, Function.comp_def] at items
    simp only [free, items]
  | namedPair =>
    have free : r.bindings key xs = [] ↔ s.bindings key ys = [] := by
      rw [← Entries.ofListEmpty, namedPair kind, Entries.ofListEmpty]
    simp only [free, namedPair kind]

theorem compileSame {a b : Node} (tag : a.tag = b.tag)
    (entry : ∀ key, key ≠ typeKey →
      (r.contribution key a.children).or (a.props.get? key) =
        (s.contribution key b.children).or (b.props.get? key)) :
    r.compile a = s.compile b := by
  apply Spec.ext
  apply Entries.ext
  intro key
  refine (r.getCompile a key).trans (Eq.trans ?_ (s.getCompile b key).symm)
  rw [tag]
  split
  · rfl
  · rename_i other
    exact entry key other

end Registry
end ChartTree
