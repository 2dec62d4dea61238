import ChartTree.Node.Catalogue
import ChartTree.Proofs.Compile.EntrySource
import Mathlib.Data.List.Basic

/-! Channels as they are declared and as they are compiled. Encodings and axes are named pairs in slots of
their own, so either family leaves one object: the last value of each channel that is not null. -/
namespace ChartTree

theorem Entries.getOfList {α : Type} (bindings : List (String × α)) (k : String) :
    (ofList bindings).get? k =
      (bindings.filterMap fun binding => if binding.1 = k then some binding.2 else none).getLast? := by
  induction bindings using List.reverseRecOn with
  | nil => rfl
  | append_singleton front binding ih =>
    obtain ⟨own, value⟩ := binding
    rw [ofList, getExtendAppend, List.filterMap_append, List.getLast?_append, ← ih, ofList]
    by_cases here : own = k
    · simp [here]
    · simp [here, Ne.symm here]

theorem Value.isNullIff (v : Value) : v.isNull = true ↔ v = .null := by
  cases v <;> simp [isNull]

namespace Node

inductive Maker where
  | encoding (encoder : Encoder)
  | axis (a : Axis)

def Maker.slot : Maker → String
  | encoding _ => "encode"
  | axis _ => "axis"

def Maker.node (channel : String) (value : Value) : Maker → Node
  | encoding encoder => .encoding encoder.kind channel value
  | axis a => .axis a channel value

inductive Declaration where
  | made (maker : Maker) (channel : String) (value : Value)
  | other (node : Node)

namespace Declaration

def node : Declaration → Node
  | made maker channel value => maker.node channel value
  | other node => node

def use? (slot : String) : Declaration → Option (String × Value)
  | made maker channel value => if maker.slot = slot then some (channel, value) else none
  | other _ => none

end Declaration

theorem namedPairNamed (tag : Tag) (name : String) (value : Value) :
    (named tag name value).namedPair? = if value.isNull then none else some (name, value) := by
  have atName : (named tag name value).props.get? nameKey = some (.string name) := by
    simp [named, withProp, Entries.getInsert, nameKey, valueKey]
  have atValue : (named tag name value).props.get? valueKey = some value := by
    simp [named, withProp, Entries.getInsert]
  simp [namedPair?, atName, atValue, Value.string?]

end Node

namespace Registry
open Node (Declaration)

def uses (slot : String) (declared : List Declaration) : List (String × Value) :=
  declared.filterMap (Declaration.use? slot)

def nonNull (uses : List (String × Value)) : List (String × Value) := uses.filter fun use => !use.2.isNull

def channelValues (uses : List (String × Value)) (channel : String) : List Value :=
  (nonNull uses).filterMap fun use => if use.1 = channel then some use.2 else none

inductive ChannelEntry (uses : List (String × Value)) (own : Option Value) : Option Value → Prop where
  | bound {channels : Map Value} (given : ∃ use ∈ uses, use.2 ≠ .null)
      (exact : ∀ channel, channels.get? channel = (channelValues uses channel).getLast?) :
      ChannelEntry uses own (some (.object channels))
  | property (silent : ∀ use ∈ uses, use.2 = .null) : ChannelEntry uses own own

variable {r : Registry} {slot : String}

theorem memNonNull (uses : List (String × Value)) (use : String × Value) :
    use ∈ nonNull uses ↔ use ∈ uses ∧ use.2 ≠ .null := by
  rw [nonNull, List.mem_filter, Bool.not_eq_true', ← Bool.not_eq_true, Value.isNullIff]

theorem bindingsRead (slot : String) (children : List Node) :
    r.bindings slot children =
      children.filterMap fun child => if r.slotOf child = slot then child.namedPair? else none := by
  simp only [bindings, occupants, List.filterMap_filter, decide_eq_true_eq]

theorem bindingsDeclared {declared : List Declaration}
    (reads : ∀ child ∈ declared, (if r.slotOf child.node = slot then child.node.namedPair? else none) =
      (child.use? slot).filter fun use => !use.2.isNull) :
    r.bindings slot (declared.map Declaration.node) = nonNull (uses slot declared) := by
  rw [bindingsRead, List.filterMap_map, nonNull, uses, List.filter_filterMap]
  exact List.filterMap_congr reads

theorem channelEntry {n : Node} {uses : List (String × Value)} (kind : Slot.classify slot = .namedPair)
    (bound : r.bindings slot n.children = nonNull uses) :
    ChannelEntry uses (n.props.get? slot) ((r.compile n).get? slot) := by
  have other : slot ≠ typeKey := by
    rintro rfl
    cases kind
  simp only [getCompile, other, if_false, contribution, kind, bound]
  split
  · rename_i empty
    refine .property fun use inside => ?_
    by_contra given
    exact List.not_mem_nil (empty ▸ (memNonNull uses use).mpr ⟨inside, given⟩)
  · rename_i taken
    obtain ⟨use, inside⟩ := List.exists_mem_of_ne_nil _ taken
    exact .bound ⟨use, (memNonNull uses use).mp inside⟩ (Entries.getOfList (nonNull uses))

theorem makerSlot (maker : Node.Maker) (channel : String) (value : Value) :
    standard.slotOf (maker.node channel value) = maker.slot := by
  cases maker with
  | encoding encoder => exact congrArg (Option.getD · _) (getStandard (.encode encoder.kind))
  | axis a =>
    refine (congrArg (Option.getD · _) (getStandard (.component a.kind))).trans ?_
    cases a <;> rfl

theorem makerPair (maker : Node.Maker) (channel : String) (value : Value) :
    (maker.node channel value).namedPair? = if value.isNull then none else some (channel, value) := by
  cases maker <;> exact Node.namedPairNamed _ channel value

theorem declarationReads {child : Declaration}
    (apart : ∀ node, child = .other node → standard.slotOf node ≠ slot) :
    (if standard.slotOf child.node = slot then child.node.namedPair? else none) =
      (child.use? slot).filter fun use => !use.2.isNull := by
  cases child with
  | made maker channel value =>
    rw [Declaration.node, makerSlot, makerPair, Declaration.use?]
    split
    · cases null : value.isNull <;> simp [Option.filter, null]
    · rfl
  | other node => exact if_neg (apart node rfl)

theorem channelsReachParent (n : Node) (declared : List Declaration)
    (apart : ∀ node, .other node ∈ declared →
      standard.slotOf node ≠ "encode" ∧ standard.slotOf node ≠ "axis") :
    let compiled := standard.compile (n.setChildren (declared.map Declaration.node))
    ChannelEntry (uses "encode" declared) (n.props.get? "encode") (compiled.get? "encode") ∧
    ChannelEntry (uses "axis" declared) (n.props.get? "axis") (compiled.get? "axis") := by
  intro compiled
  constructor
  · refine channelEntry (n := n.setChildren _) (by decide) (bindingsDeclared fun child inside => ?_)
    exact declarationReads fun node same => (apart node (same ▸ inside)).1
  · refine channelEntry (n := n.setChildren _) (by decide) (bindingsDeclared fun child inside => ?_)
    exact declarationReads fun node same => (apart node (same ▸ inside)).2

/- A null neither deletes the field of the channel nor hides the axis property. -/
theorem laterNullsBindNothing :
    let declared : List Declaration :=
      [.made (.encoding .encode) "x" (.string "genre"), .other (.title "sales"), .made (.axis .x) "x" .null,
        .made (.encoding .constant) "x" .null, .made (.encoding .custom) "" (.bool true)]
    let bar := ((Node.ofTag (.mark .interval)).withProp "encode" .null).withProp "axis" (.bool false)
    let compiled := standard.compile (bar.setChildren (declared.map Declaration.node))
    (∀ node, .other node ∈ declared → standard.slotOf node ≠ "encode" ∧ standard.slotOf node ≠ "axis") ∧
    ChannelEntry (uses "encode" declared) (some .null) (compiled.get? "encode") ∧
    ChannelEntry (uses "axis" declared) (some (.bool false)) (compiled.get? "axis") ∧
    compiled.get? "encode" = some (.object (.ofList [("x", .string "genre"), ("", .bool true)])) ∧
    compiled.get? "axis" = some (.bool false) := by
  intro declared bar compiled
  have apart : ∀ node, .other node ∈ declared →
      standard.slotOf node ≠ "encode" ∧ standard.slotOf node ≠ "axis" := by
    intro node inside
    simp only [declared, List.mem_cons, reduceCtorEq, Declaration.other.injEq, List.not_mem_nil, or_false,
      false_or] at inside
    subst inside
    decide
  obtain ⟨encode, axis⟩ := channelsReachParent bar declared apart
  exact ⟨apart, encode, axis, rfl, rfl⟩

end Registry
end ChartTree
