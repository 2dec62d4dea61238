import ChartTree.Proofs.Compile.Placement

/-! Where each entry of a compiled node comes from: its tag, the children in one slot, or an own property.
The sources are stated on the declared tree, without layers and without an order of work. -/
namespace ChartTree

namespace Node

def Binds (n : Node) (name : String) (value : Value) : Prop :=
  n.props.get? "name" = some (.string name) ∧ n.props.get? "value" = some value ∧ value ≠ .null

def WellFormed (n : Node) : Prop := ∃ name value, n.Binds name value

theorem namedPairBinds (n : Node) (name : String) (value : Value) :
    n.namedPair? = some (name, value) ↔ n.Binds name value := by
  simp only [namedPair?, Binds, nameKey, valueKey, bind, Option.bind_eq_some_iff]
  constructor
  · intro found
    obtain ⟨given, atName, own, text, value, atValue, last⟩ := found
    have isText : given = .string own := by cases given <;> simp_all [Value.string?]
    split at last <;> try contradiction
    rename_i present
    cases last
    exact ⟨isText ▸ atName, atValue, fun null => present (by rw [null]; rfl)⟩
  · intro binds
    obtain ⟨atName, atValue, notNull⟩ := binds
    have present : value.isNull = false := by cases value <;> simp_all [Value.isNull]
    exact ⟨.string name, atName, name, rfl, value, atValue, by simp [present]⟩

theorem namedPairNone (n : Node) : n.namedPair? = none ↔ ¬ n.WellFormed := by
  simp only [WellFormed, ← namedPairBinds]
  cases pair : n.namedPair? with
  | none => simp
  | some binding => simp [Prod.exists.symm]

def LastBinding (children : List Node) (name : String) (value : Value) : Prop :=
  ∃ front child back, children = front ++ child :: back ∧ child.Binds name value ∧
    ∀ later ∈ back, ∀ other, ¬ later.Binds name other

theorem lastBindingSnoc (front : List Node) (child : Node) (name : String) (value : Value) :
    LastBinding (front ++ [child]) name value ↔
      child.Binds name value ∨ (∀ other, ¬ child.Binds name other) ∧ LastBinding front name value := by
  constructor
  · intro bound
    obtain ⟨before, last, after, split, binds, silent⟩ := bound
    rcases List.eq_nil_or_concat after with rfl | ⟨rest, final, rfl⟩
    · obtain ⟨-, same⟩ := List.append_inj' split rfl
      cases same
      exact .inl binds
    · have longer : front ++ [child] = (before ++ last :: rest) ++ [final] := by simpa using split
      obtain ⟨rfl, same⟩ := List.append_inj' longer rfl
      cases same
      exact .inr ⟨silent child (by simp), before, last, rest, rfl, binds,
        fun later inside => silent later (by simp [inside])⟩
  · intro bound
    rcases bound with binds | ⟨silent, before, last, after, rfl, binds, quiet⟩
    · exact ⟨front, child, [], rfl, binds, by simp⟩
    · refine ⟨before, last, after ++ [child], by simp, binds, fun later inside other => ?_⟩
      rcases List.mem_append.mp inside with early | final
      · exact quiet later early other
      · cases List.mem_singleton.mp final
        exact silent other

theorem getBindings (children : List Node) (name : String) (value : Value) :
    (Entries.ofList (children.filterMap namedPair?)).get? name = some value ↔
      LastBinding children name value := by
  induction children using List.reverseRecOn with
  | nil => simp [Entries.ofList, Entries.extend, Entries.getEmpty, LastBinding]
  | append_singleton front child ih =>
    rw [lastBindingSnoc, ← ih, List.filterMap_append, List.filterMap_cons, List.filterMap_nil]
    simp only [← namedPairBinds]
    cases pair : child.namedPair? with
    | none => simp
    | some binding =>
      obtain ⟨own, bound⟩ := binding
      simp only [Entries.ofList, Entries.getExtendAppend]
      by_cases same : name = own <;> simp [same, eq_comm]

end Node

namespace Registry

/- The rules exclude each other: a slot has one class, and only a slot that nothing well formed is put
into shows the own property. Null is an own property like any other. -/
inductive EntrySource (r : Registry) (n : Node) (key : String) : Option Value → Prop where
  | tag (own : key = "type") : EntrySource r n key (some (.string n.tag.variant))
  | single {last : Node} (other : key ≠ "type") (kind : Slot.classify key = .single)
      (taken : (r.occupants key n.children).getLast? = some last) :
      EntrySource r n key (some (.object (r.compile last).entries))
  | collection (other : key ≠ "type") (kind : Slot.classify key = .collection)
      (taken : r.occupants key n.children ≠ []) :
      EntrySource r n key
        (some (.array ((r.occupants key n.children).map fun child => .object (r.compile child).entries)))
  | namedPair {object : Map Value} (other : key ≠ "type") (kind : Slot.classify key = .namedPair)
      (taken : ∃ child ∈ r.occupants key n.children, child.WellFormed)
      (exact : ∀ name value, object.get? name = some value ↔
        Node.LastBinding (r.occupants key n.children) name value) :
      EntrySource r n key (some (.object object))
  | property (other : key ≠ "type")
      (free : r.occupants key n.children = [] ∨
        Slot.classify key = .namedPair ∧ ∀ child ∈ r.occupants key n.children, ¬ child.WellFormed) :
      EntrySource r n key (n.props.get? key)

variable {r : Registry} {n : Node} {key : String}

theorem bindingsEmpty (children : List Node) :
    r.bindings key children = [] ↔ ∀ child ∈ r.occupants key children, ¬ child.WellFormed := by
  simp only [bindings, List.filterMap_eq_nil_iff, Node.namedPairNone]

theorem bindingsTaken {children : List Node}
    (taken : ∃ child ∈ r.occupants key children, child.WellFormed) : r.bindings key children ≠ [] := by
  intro empty
  obtain ⟨child, inside, formed⟩ := taken
  exact bindingsEmpty children |>.mp empty child inside formed

theorem contributionFree (children : List Node)
    (free : r.occupants key children = [] ∨
      Slot.classify key = .namedPair ∧ ∀ child ∈ r.occupants key children, ¬ child.WellFormed) :
    r.contribution key children = none := by
  rcases free with empty | ⟨kind, malformed⟩
  · cases kind : Slot.classify key <;> simp [contribution, kind, bindings, empty]
  · simp [contribution, kind, (bindingsEmpty children).mpr malformed]

theorem sourceSound {entry : Option Value} (source : r.EntrySource n key entry) :
    (r.compile n).get? key = entry := by
  rw [getCompile, typeKey]
  cases source with
  | tag own => rw [if_pos own]
  | single other kind taken => simp [other, contribution, kind, taken, Spec.toValue]
  | collection other kind taken => simp [other, contribution, kind, taken, Spec.toValue]
  | @namedPair object other kind taken exact =>
    have same : Entries.ofList (r.bindings key n.children) = object := by
      apply Entries.ext
      intro name
      apply Option.ext
      intro value
      exact (Node.getBindings _ name value).trans (exact name value).symm
    simp [other, contribution, kind, bindingsTaken taken, same]
  | property other free => rw [if_neg other, contributionFree n.children free, Option.none_or]

theorem sourceExists (r : Registry) (n : Node) (key : String) : ∃ entry, r.EntrySource n key entry := by
  by_cases own : key = "type"
  · exact ⟨_, .tag own⟩
  by_cases empty : r.occupants key n.children = []
  · exact ⟨_, .property own (.inl empty)⟩
  cases kind : Slot.classify key with
  | single => exact ⟨_, .single own kind (List.getLast?_eq_some_getLast empty)⟩
  | collection => exact ⟨_, .collection own kind empty⟩
  | namedPair =>
    by_cases taken : ∃ child ∈ r.occupants key n.children, child.WellFormed
    · exact ⟨_, .namedPair own kind taken (Node.getBindings _)⟩
    · exact ⟨_, .property own (.inr ⟨kind, fun child inside formed => taken ⟨child, inside, formed⟩⟩)⟩

theorem compiledEntryIff (r : Registry) (n : Node) (key : String) (entry : Option Value) :
    (r.compile n).get? key = entry ↔ r.EntrySource n key entry := by
  constructor
  · intro found
    obtain ⟨own, source⟩ := sourceExists r n key
    rw [← found, sourceSound source]
    exact source
  · exact sourceSound

end Registry
end ChartTree
