import ChartTree.Chart.Options
import ChartTree.Node.Catalogue
import ChartTree.Proofs.Compile.Agreement
import ChartTree.Proofs.Compile.TopLevel
import ChartTree.Proofs.Map.Arrangement
import ChartTree.Proofs.Node.Tree
import ChartTree.Proofs.Registry.Steps

/-! Maps gone through in any order. Wherever the entries of a map are copied into another, the order of the
copying does not show: two entries of one map never share a key, and neither do two layers of a node. -/
namespace ChartTree

namespace Entries
variable {α β : Type} {low : Option String}

theorem extendRounds (base : Map α) (rounds : List (List (String × α))) :
    rounds.foldl extend base = base.extend rounds.flatten :=
  List.foldl_flatten.symm

theorem keysMap (f : α → β) (m : Entries α low) : (m.map f).keys = m.keys := by
  rw [keys, toListMap, List.map_map]
  rfl

end Entries

namespace Layers
variable {l : Layers}

structure Classed (l : Layers) : Prop where
  single : ∀ key ∈ l.singles.keys, Slot.classify key = .single
  collection : ∀ key ∈ l.collections.keys, Slot.classify key = .collection
  namedPair : ∀ key ∈ l.pairs.keys, Slot.classify key = .namedPair

structure Apart (l : Layers) : Prop where
  singlesCollections : l.singles.keys.Disjoint l.collections.keys
  singlesPairs : l.singles.keys.Disjoint l.pairs.keys
  collectionsPairs : l.collections.keys.Disjoint l.pairs.keys

structure Filled (l : Layers) : Prop where
  collections : ∀ key items, l.collections.get? key = some items → items ≠ []
  pairs : ∀ key names, l.pairs.get? key = some names → names ≠ .empty

def rounds (l : Layers) : List (List (String × Value)) :=
  [l.singles.toList, (l.collections.map .array).toList, (l.pairs.map .object).toList]

inductive Visits (l : Layers) : List (List (String × Value)) → Prop where
  | all {singles : List (String × Value)} {collections : List (String × List Value)}
      {pairs : List (String × Map Value)} {visits : List (List (String × Value))}
      (everySingle : l.singles.toList.Perm singles) (everyCollection : l.collections.toList.Perm collections)
      (everyPair : l.pairs.toList.Perm pairs)
      (order : [singles, collections.map fun kv => (kv.1, .array kv.2),
        pairs.map fun kv => (kv.1, .object kv.2)].Perm visits) : Visits l visits

theorem classedApart (classed : l.Classed) : l.Apart := by
  have differ {xs ys : List String} {kind other : SlotClass} (left : ∀ key ∈ xs, Slot.classify key = kind)
      (right : ∀ key ∈ ys, Slot.classify key = other) (apart : kind ≠ other) : xs.Disjoint ys :=
    fun key inside among => apart ((left key inside).symm.trans (right key among))
  exact ⟨differ classed.single classed.collection (by decide), differ classed.single classed.namedPair (by decide),
    differ classed.collection classed.namedPair (by decide)⟩

theorem visitsSelf (l : Layers) : l.Visits l.rounds := by
  rw [rounds, Entries.toListMap, Entries.toListMap]
  exact .all (.refl _) (.refl _) (.refl _) (.refl _)

theorem visitsPermuted {visits : List (List (String × Value))} (visited : l.Visits visits) :
    l.rounds.flatten.Perm visits.flatten := by
  cases visited with
  | @all singles collections pairs _ everySingle everyCollection everyPair order =>
    refine List.Perm.trans ?_ order.flatten
    rw [rounds, Entries.toListMap, Entries.toListMap]
    exact .flatten_congr (.cons everySingle (.cons (everyCollection.map _) (.cons (everyPair.map _) .nil)))

theorem roundsDistinct (apart : l.Apart) : (l.rounds.flatten.map Prod.fst).Nodup := by
  have keys : l.rounds.map (List.map Prod.fst) = [l.singles.keys, l.collections.keys, l.pairs.keys] := by
    rw [← l.collections.keysMap Value.array, ← l.pairs.keysMap Value.object]
    rfl
  rw [List.map_flatten, keys, List.nodup_flatten]
  constructor
  · simp [Entries.keysDiffer]
  · simp [apart.singlesCollections, apart.singlesPairs, apart.collectionsPairs]

theorem ontoVisits {visits : List (List (String × Value))} (apart : l.Apart) (visited : l.Visits visits)
    (props : Map Value) : visits.foldl Entries.extend props = l.onto props :=
  calc visits.foldl Entries.extend props
      = props.extend visits.flatten := Entries.extendRounds props visits
    _ = props.extend l.rounds.flatten :=
        (Entries.extendPermuted props (roundsDistinct apart) (visitsPermuted visited)).symm
    _ = l.rounds.foldl Entries.extend props := (Entries.extendRounds props l.rounds).symm
    _ = l.onto props := rfl

end Layers

namespace Registry
open Chart (Options)

theorem placedClassed (r : Registry) (children : List Node) : (r.place children .empty).Classed := by
  refine ⟨fun key inside => ?_, fun key inside => ?_, fun key inside => ?_⟩
  · rw [Entries.keyFound, placedSingles] at inside
    obtain ⟨_, found⟩ := Option.isSome_iff_exists.mp inside
    exact (Option.ite_none_right_eq_some.mp found).1
  · rw [Entries.keyFound, placedCollections] at inside
    exact (Option.isSome_ite.mp inside).1
  · rw [Entries.keyFound, placedPairs] at inside
    exact (Option.isSome_ite.mp inside).1

theorem placedFilled (r : Registry) (children : List Node) : (r.place children .empty).Filled := by
  constructor
  · intro key items found
    rw [placedCollections] at found
    obtain ⟨⟨_, taken⟩, found⟩ := Option.ite_none_right_eq_some.mp found
    cases found
    exact mt List.map_eq_nil_iff.mp taken
  · intro key names found
    rw [placedPairs] at found
    obtain ⟨⟨_, taken⟩, found⟩ := Option.ite_none_right_eq_some.mp found
    cases found
    exact mt (Entries.ofListEmpty _).mp taken

/- What a tag with properties and children may compile to when every map is gone through in an order of its
own, at this node and at all nodes below. -/
mutual
inductive Compiles (r : Registry) : Tag → Map Value → List Node → Map Value → Prop where
  | laid {tag : Tag} {props : Map Value} {children : List Node} {layers : Layers}
      {visits : List (List (String × Value))} (fills : r.Fills children .empty layers)
      (visited : layers.Visits visits) :
      r.Compiles tag props children
        ((visits.foldl Entries.extend (props.erase typeKey)).insert typeKey (.string tag.variant))

inductive Fills (r : Registry) : List Node → Layers → Layers → Prop where
  | done {layers : Layers} : r.Fills [] layers layers
  | single {child : Node} {rest : List Node} {before after : Layers} {entries : Map Value}
      (kind : Slot.classify (r.slotOf child) = .single)
      (compiles : r.Compiles child.tag child.props child.children entries)
      (others : r.Fills rest (before.occupy (r.slotOf child) (.object entries)) after) :
      r.Fills (child :: rest) before after
  | collection {child : Node} {rest : List Node} {before after : Layers} {entries : Map Value}
      (kind : Slot.classify (r.slotOf child) = .collection)
      (compiles : r.Compiles child.tag child.props child.children entries)
      (others : r.Fills rest (before.append (r.slotOf child) (.object entries)) after) :
      r.Fills (child :: rest) before after
  | bound {child : Node} {rest : List Node} {before after : Layers} {name : String} {value : Value}
      (kind : Slot.classify (r.slotOf child) = .namedPair) (pair : child.namedPair? = some (name, value))
      (others : r.Fills rest (before.bind (r.slotOf child) name value) after) :
      r.Fills (child :: rest) before after
  | dropped {child : Node} {rest : List Node} {before after : Layers}
      (kind : Slot.classify (r.slotOf child) = .namedPair) (malformed : child.namedPair? = none)
      (others : r.Fills rest before after) : r.Fills (child :: rest) before after
end

/- By induction on how the entries came about: with the same specifications below, the layers are those of any
other order, and from then on the layers being apart is enough. -/
mutual
theorem compilesSame {r : Registry} :
    ∀ {tag : Tag} {props : Map Value} {children : List Node} {entries : Map Value},
      r.Compiles tag props children entries → entries = (r.compileParts tag props children).entries
  | _, _, _, _, .laid fills visited => by
    rw [fillsSame fills] at visited
    rw [Layers.ontoVisits (Layers.classedApart (placedClassed r _)) visited]
    rfl

theorem fillsSame {r : Registry} : ∀ {children : List Node} {before after : Layers},
    r.Fills children before after → after = r.place children before
  | _, _, _, .done => rfl
  | _, _, _, .single kind compiles others => by
    rw [placeCons, fillsSame others, compilesSame compiles, ← compileOfParts, put, kind]
    rfl
  | _, _, _, .collection kind compiles others => by
    rw [placeCons, fillsSame others, compilesSame compiles, ← compileOfParts, put, kind]
    rfl
  | _, _, _, .bound kind pair others => by
    rw [placeCons, fillsSame others, put, kind, pair]
  | _, _, _, .dropped kind malformed others => by
    rw [placeCons, fillsSame others, put, kind, malformed]
end

theorem fillsEach {r : Registry} {children : List Node}
    (each : ∀ child ∈ children, r.Compiles child.tag child.props child.children (r.compile child).entries)
    (before : Layers) : r.Fills children before (r.place children before) := by
  induction children generalizing before with
  | nil => exact .done
  | cons child rest ih =>
    have own := each child List.mem_cons_self
    have others := ih fun later inside => each later (List.mem_cons_of_mem child inside)
    rw [placeCons, put]
    cases kind : Slot.classify (r.slotOf child) with
    | single => exact .single kind own (others _)
    | collection => exact .collection kind own (others _)
    | namedPair =>
      cases pair : child.namedPair? with
      | none => exact .dropped kind pair (others _)
      | some binding => exact .bound kind pair (others _)

theorem compilesParts {r : Registry} {children : List Node}
    (each : ∀ child ∈ children, r.Compiles child.tag child.props child.children (r.compile child).entries)
    (tag : Tag) (props : Map Value) :
    r.Compiles tag props children (r.compileParts tag props children).entries :=
  .laid (fillsEach each .empty) (r.place children .empty).visitsSelf

theorem compilesNode (r : Registry) (n : Node) :
    r.Compiles n.tag n.props n.children (r.compile n).entries := by
  induction n using Node.childInduction with
  | node n ih =>
    rw [compileOfParts]
    exact compilesParts ih n.tag n.props

theorem compilesIff (r : Registry) (tag : Tag) (props : Map Value) (children : List Node) (entries : Map Value) :
    r.Compiles tag props children entries ↔ entries = (r.compileParts tag props children).entries := by
  refine ⟨compilesSame, ?_⟩
  rintro rfl
  exact compilesParts (fun child _ => r.compilesNode child) tag props

theorem everyIterationSameMap :
    (∀ (r : Registry) (children : List Node),
      (r.place children .empty).Apart ∧ (r.place children .empty).Filled) ∧
    (∀ (r : Registry) (tag : Tag) (props : Map Value) (children : List Node) (entries : Map Value),
      r.Compiles tag props children entries ↔ entries = (r.compileParts tag props children).entries) ∧
    (∀ (s : Spec) (base : Map Value) (visited : List (String × Value)),
      s.entries.toList.Perm visited → base.extend visited = s.layeredOver base) ∧
    (∀ (r base : Registry) (visited : List (Tag × String)), base.entries.Perm visited →
      visited.foldl (fun r entry => r.slot entry.1 entry.2) r = r.extendFrom base) ∧
    ∀ (o : Options) (visited : List (String × Value)), o.style.toList.Perm visited →
      o.container = o.size.map fun size =>
        ⟨size.1, size.2, Options.fullClass o.className, Options.defaultStyle.extend visited⟩ := by
  refine ⟨fun r children => ?_, compilesIff, fun s base visited every => ?_,
    fun r base visited every => extendFromPermuted r every, fun o visited every => ?_⟩
  · exact ⟨Layers.classedApart (placedClassed r children), placedFilled r children⟩
  · exact (Entries.extendArranged base every).symm
  · rw [Options.containerSize, Entries.overlay, Entries.extendArranged _ every]

/- The layers are laid from the last to the first and each from its last key to its first, and so are the
other maps copied. -/
theorem backwardIterationSame :
    let children : List Node :=
      [.title "sales", .encoding .field "x" (.string "genre"), .ofTag (.mark .point), .title "profit"]
    let layers := standard.place children .empty
    let backward := [layers.pairs.toList.reverse.map fun kv => (kv.1, .object kv.2),
      layers.collections.toList.reverse.map fun kv => (kv.1, .array kv.2), layers.singles.toList.reverse]
    let props : Map Value := .ofList [("encode", .null), ("type", .null)]
    let laid := (backward.foldl Entries.extend (props.erase typeKey)).insert typeKey (.string "interval")
    let bar := standard.compileParts (.mark .interval) props children
    let base : Registry := build 2 [.slot (.mark .line) "lines", .slot (.data .fetch) "source"]
    let options := (Options.default.withStyle "width" (.string "50%")).withStyle "border" (.string "none")
    layers.Visits backward ∧ laid = bar.entries ∧
    laid.get? "encode" = some (.object (.ofList [("x", .string "genre")])) ∧
    props.extend bar.entries.toList.reverse = bar.layeredOver props ∧
    base.entries.reverse.foldl (fun r entry => r.slot entry.1 entry.2) standard = standard.extendFrom base ∧
    options.container = .ok ⟨options.width, options.height, Options.containerClass,
      Options.defaultStyle.extend options.style.toList.reverse⟩ := by
  intro children layers backward props laid bar base options
  obtain ⟨_, compiled, layered, registered, contained⟩ := everyIterationSameMap
  have visited : layers.Visits backward :=
    .all (List.reverse_perm _).symm (List.reverse_perm _).symm (List.reverse_perm _).symm (List.reverse_perm _).symm
  have fills : standard.Fills children .empty layers := fillsEach (fun child _ => standard.compilesNode child) .empty
  have same : laid = bar.entries := (compiled standard (.mark .interval) props children laid).mp (.laid fills visited)
  refine ⟨visited, same, rfl, layered bar props _ (List.reverse_perm _).symm,
    registered standard base _ (List.reverse_perm _).symm, ?_⟩
  have size : options.size = .ok (options.width, options.height) := if_pos (by decide +kernel)
  have named : Options.fullClass options.className = Options.containerClass := by decide +kernel
  rw [contained options _ (List.reverse_perm _).symm, size, Except.map, named]

end Registry
end ChartTree
