import ChartTree.Node.Catalogue
import ChartTree.Proofs.Compile.Contents

/-! Trees that are numerically equal. They compile to equal specifications, although equality tells less than
identity between two zeros and more than identity at a NaN. Only a NaN that gets into the specification
keeps a tree from compiling twice to the same. -/
namespace ChartTree

namespace Value
variable {v w : Value}

theorem sameNull (same : Same v w) : v.isNull = w.isNull := by
  cases v <;> cases w <;> first | rfl | cases same

theorem sameString (same : Same v w) : v.string? = w.string? := by
  cases v with
  | string s =>
    cases w with
    | string t => exact congrArg some (beq_iff_eq.mp same)
    | _ => cases same
  | _ => cases w <;> first | rfl | cases same

end Value

namespace Node

def Same (a b : Node) : Prop := a.same b = true

theorem sameAllIff (as bs : List Node) : sameAll as bs = true ↔ List.Forall₂ Same as bs := by
  induction as generalizing bs with
  | nil =>
    cases bs with
    | nil => exact iff_of_true rfl .nil
    | cons b bs => exact iff_of_false Bool.false_ne_true nofun
  | cons a as ih =>
    cases bs with
    | nil => exact iff_of_false Bool.false_ne_true nofun
    | cons b bs => rw [sameAll, Bool.and_eq_true, ih, List.forall₂_cons, Same]

structure Alike (a b : Node) : Prop where
  tag : a.tag = b.tag
  id : a.id = b.id
  slot : a.slot = b.slot
  props : ∀ key, Option.Rel Value.Same (a.props.get? key) (b.props.get? key)
  children : List.Forall₂ Same a.children b.children

theorem sameAlike {a b : Node} (same : Same a b) : a.Alike b := by
  obtain ⟨tag, id, slot, props, children⟩ := a
  rw [Same, Node.same] at same
  simp only [Bool.and_eq_true, beq_iff_eq, Value.sameMapIff, sameAllIff] at same
  obtain ⟨⟨⟨⟨tag, id⟩, slot⟩, props⟩, children⟩ := same
  exact ⟨tag, id, slot, props, children⟩

def SameBinding (x y : String × Value) : Prop := x.1 = y.1 ∧ Value.Same x.2 y.2

theorem sameNamedPair {a b : Node} (same : Same a b) : Option.Rel SameBinding a.namedPair? b.namedPair? := by
  have name := (sameAlike same).props nameKey
  have value := (sameAlike same).props valueKey
  unfold namedPair?
  generalize a.props.get? nameKey = x, b.props.get? nameKey = y at name
  generalize a.props.get? valueKey = v, b.props.get? valueKey = w at value
  cases name with
  | none => exact .none
  | @some x y sameName =>
    simp only [bind, Option.bind_some, Value.sameString sameName]
    cases y.string? with
    | none => exact .none
    | some text =>
      cases value with
      | none => exact .none
      | some sameValue =>
        simp only [Option.bind_some, Value.sameNull sameValue]
        split
        · exact .none
        · exact .some ⟨rfl, sameValue⟩

end Node

theorem Entries.ofListSame {xs ys : List (String × Value)} (all : List.Forall₂ Node.SameBinding xs ys)
    (key : String) : Option.Rel Value.Same ((Entries.ofList xs).get? key) ((Entries.ofList ys).get? key) := by
  induction all with
  | nil => exact .none
  | @cons x y xs ys head tail ih =>
    rw [Entries.getOfListCons, Entries.getOfListCons, head.1]
    refine relatedOr ih ?_
    split
    · exact .some head.2
    · exact .none

namespace Registry
variable {r : Registry}

def SameCompiled (r : Registry) (a b : Node) : Prop := Value.Same (r.compile a).toValue (r.compile b).toValue

theorem sameSlot {a b : Node} (same : a.Same b) : r.slotOf a = r.slotOf b := by
  have alike := Node.sameAlike same
  rw [slotOf, slotOf, alike.slot, alike.tag]

theorem sameContribution {key : String} {xs ys : List Node} (all : List.Forall₂ Node.Same xs ys)
    (compiled : ∀ x ∈ xs, ∀ y, x.Same y → r.SameCompiled x y) :
    Option.Rel Value.Same (r.contribution key xs) (r.contribution key ys) := by
  have occupants := relatedOccupants (r := r) sameSlot key all
  have within : List.Forall₂ r.SameCompiled (r.occupants key xs) (r.occupants key ys) :=
    relatedWithin occupants fun x inside => compiled x (r.occupantChild.mp inside).1
  unfold contribution
  cases Slot.classify key with
  | single => exact relatedOptionMap _ (relatedLast within) fun x y same => same
  | collection =>
    refine relatedIfAny within ((Value.sameItemsIff _ _).mpr ?_)
    exact List.forall₂_map_left_iff.mpr (List.forall₂_map_right_iff.mpr within)
  | namedPair =>
    have bindings : List.Forall₂ Node.SameBinding (r.bindings key xs) (r.bindings key ys) :=
      List.rel_filterMap (fun x y same => Node.sameNamedPair same) occupants
    exact relatedIfAny bindings ((Value.sameMapIff _ _).mpr (Entries.ofListSame bindings))

theorem sameCompile {a b : Node} (same : a.Same b) : r.SameCompiled a b := by
  induction a using Node.childInduction generalizing b with
  | node a ih =>
    have alike := Node.sameAlike same
    refine (Value.sameMapIff _ _).mpr fun key => ?_
    change Option.Rel Value.Same ((r.compile a).get? key) ((r.compile b).get? key)
    rw [getCompile, getCompile, alike.tag]
    split
    · exact .some (beq_self_eq_true b.tag.variant)
    · exact relatedOr (sameContribution alike.children ih) (alike.props key)

theorem equalTreesCompileEqual (r : Registry) :
    (∀ a b : Node, a.same b = true → (r.compile a).same (r.compile b) = true) ∧
    ∀ n, ((r.compile n).same (r.compile n) = true ↔ ¬ Value.Occurs .nan (r.compile n).toValue) ∧
      (Value.Occurs .nan (r.compile n).toValue ↔
        ∃ d ∈ (r.prune n).preorder, Value.Occurs .nan (.object d.props)) :=
  ⟨fun _ _ same => sameCompile same, fun n => ⟨Value.sameSelf (r.compile n).toValue, compiledOccurs⟩⟩

/- The zeros have opposite signs at three places, a property, an item of an array and a named value. The NaN
stands in a property that a child hides, and keeps the tree from being equal to itself. -/
theorem zerosAgreeAndHiddenNaN :
    let point (negative : Bool) := ((Node.ofTag (.mark .point)).withProps
      [("size", .number (.zero negative)), ("data", .array [.null, .number (.zero negative)])]).withChildren
        [.encoding .field "x" (.number (.zero negative))]
    let line := ((Node.ofTag (.mark .line)).withProp "title" (.number .nan)).withChildren [.title "sales"]
    ((point false).same (point true) = true ∧
      (standard.compile (point false)).same (standard.compile (point true)) = true) ∧
    line.same line = false ∧ (standard.compile line).same (standard.compile line) = true := by
  intro point line
  obtain ⟨equal, self⟩ := equalTreesCompileEqual standard
  have zeros : (point false).same (point true) = true := by decide +kernel
  have hidden : ¬ ∃ d ∈ (standard.prune line).preorder, Value.Occurs .nan (.object d.props) := by decide +kernel
  have clean := (self line).1.mpr (mt (self line).2.mp hidden)
  exact ⟨⟨zeros, equal _ _ zeros⟩, by decide +kernel, clean⟩

end Registry
end ChartTree
