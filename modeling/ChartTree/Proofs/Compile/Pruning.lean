import ChartTree.Proofs.Compile.Agreement
import ChartTree.Proofs.Compile.EntrySource

/-! Declarations that do not count: identifiers, types given by hand, overwritten and malformed children, what
stands below a named pair, and own properties under a taken slot. A pruned tree has none of them left and
compiles to the same specification. -/
namespace ChartTree

namespace Entries
variable {α : Type} {low : Option String}

def filter (keep : String → Bool) {low : Option String} : Entries α low → Entries α low
  | nil => nil
  | cons key above value rest =>
    if keep key then cons key above value (rest.filter keep) else lower above (rest.filter keep)

theorem getFilter (keep : String → Bool) (m : Entries α low) (k : String) :
    (m.filter keep).get? k = if keep k then m.get? k else none := by
  induction m with
  | nil => simp [filter, get?]
  | cons key above value rest ih =>
    have gone : rest.get? key = none := getBelow rest (String.lt_irrefl key)
    grind [filter, get?, getLower]

end Entries

namespace Node

def bare (n : Node) : Node :=
  { n with id := none, props := n.props.filter fun key => key == nameKey || key == valueKey, children := [] }

structure Bare (n : Node) : Prop where
  id : n.id = none
  children : n.children = []
  props : ∀ key, key ≠ "name" → key ≠ "value" → n.props.get? key = none

theorem bareIsBare (n : Node) : n.bare.Bare := by
  refine ⟨rfl, rfl, fun key notName notValue => ?_⟩
  have found := Entries.getFilter (fun key => key == nameKey || key == valueKey) n.props key
  refine found.trans (if_neg ?_)
  simp [nameKey, valueKey, notName, notValue]

theorem bareNamedPair (n : Node) : n.bare.namedPair? = n.namedPair? := by
  simp [namedPair?, bare, Entries.getFilter]

end Node

namespace Registry
variable {r : Registry} {child : Node} {later : List Node}

inductive Dead (r : Registry) (child : Node) (later : List Node) : Prop where
  | typed (slot : r.slotOf child = "type")
  | overwritten {sibling : Node} (kind : Slot.classify (r.slotOf child) = .single)
      (after : sibling ∈ later) (same : r.slotOf sibling = r.slotOf child)
  | malformed (kind : Slot.classify (r.slotOf child) = .namedPair) (unread : ¬ child.WellFormed)
  | rebound {sibling : Node} {name : String} {value other : Value}
      (kind : Slot.classify (r.slotOf child) = .namedPair) (own : child.Binds name value)
      (after : sibling ∈ later) (same : r.slotOf sibling = r.slotOf child) (rebinds : sibling.Binds name other)

def dead (r : Registry) (child : Node) (later : List Node) : Bool :=
  match Slot.classify (r.slotOf child) with
  | .single => r.slotOf child == typeKey || !(r.occupants (r.slotOf child) later).isEmpty
  | .collection => false
  | .namedPair =>
    match child.namedPair? with
    | some (name, _) => decide (name ∈ (r.bindings (r.slotOf child) later).map Prod.fst)
    | none => true

theorem deadSound (marked : r.dead child later = true) : r.Dead child later := by
  unfold dead at marked
  split at marked
  · rename_i kind
    simp only [Bool.or_eq_true, beq_iff_eq, Bool.not_eq_true', List.isEmpty_eq_false_iff] at marked
    rcases marked with typed | taken
    · exact .typed typed
    · obtain ⟨sibling, inside⟩ := List.exists_mem_of_ne_nil _ taken
      obtain ⟨after, same⟩ := r.occupantChild.mp inside
      exact .overwritten kind after same
  · cases marked
  · rename_i kind
    split at marked
    · rename_i name value own
      obtain ⟨⟨_, other⟩, bound, rfl⟩ := List.mem_map.mp (of_decide_eq_true marked)
      obtain ⟨sibling, inside, read⟩ := List.mem_filterMap.mp bound
      obtain ⟨after, same⟩ := r.occupantChild.mp inside
      exact .rebound kind ((child.namedPairBinds _ _).mp own) after same ((sibling.namedPairBinds _ _).mp read)
    · rename_i unread
      exact .malformed kind (child.namedPairNone.mp unread)

theorem deadComplete (gone : r.Dead child later) : r.dead child later = true := by
  cases gone with
  | typed slot => simp [dead, slot, typeKey, Slot.classifyType]
  | overwritten kind after same =>
    have taken : r.occupants (r.slotOf child) later ≠ [] :=
      List.ne_nil_of_mem (r.occupantChild.mpr ⟨after, same⟩)
    simp [dead, kind, taken]
  | malformed kind unread => simp [dead, kind, child.namedPairNone.mpr unread]
  | @rebound sibling name value other kind own after same rebinds =>
    have read : child.namedPair? = some (name, value) := (child.namedPairBinds name value).mpr own
    have bound : (name, other) ∈ r.bindings (r.slotOf child) later :=
      List.mem_filterMap.mpr ⟨sibling, r.occupantChild.mpr ⟨after, same⟩,
        (sibling.namedPairBinds name other).mpr rebinds⟩
    have named : name ∈ (r.bindings (r.slotOf child) later).map Prod.fst := List.mem_map_of_mem bound
    simp only [dead, kind, read, decide_eq_true named]

theorem deadIff : r.dead child later = true ↔ r.Dead child later := ⟨deadSound, deadComplete⟩

instance : Decidable (r.Dead child later) := decidable_of_iff _ deadIff

mutual
/-- The tree without its dead declarations. What is kept of a named pair is not compiled, so nothing in it
is weighed again. -/
def prune (r : Registry) : Node → Node
  | ⟨tag, _, slot, props, children⟩ =>
    let kept := r.pruneAll children
    ⟨tag, none, slot, props.filter fun key => key != typeKey && !(kept.map r.slotOf).contains key, kept⟩

def pruneAll (r : Registry) : List Node → List Node
  | [] => []
  | child :: later =>
    if r.Dead child later then r.pruneAll later
    else if Slot.classify (r.slotOf child) = .namedPair then child.bare :: r.pruneAll later
    else r.prune child :: r.pruneAll later
end

inductive Pruned (r : Registry) : Node → Prop where
  | intro {n : Node} (id : n.id = none) (type : n.props.get? "type" = none)
      (shown : ∀ child ∈ n.children, n.props.get? (r.slotOf child) = none)
      (live : ∀ front child later, n.children = front ++ child :: later → ¬ r.Dead child later)
      (bare : ∀ child ∈ n.children, Slot.classify (r.slotOf child) = .namedPair → child.Bare)
      (below : ∀ child ∈ n.children, Slot.classify (r.slotOf child) ≠ .namedPair → Pruned r child) :
      Pruned r n

def trim (r : Registry) (child : Node) : Node :=
  if Slot.classify (r.slotOf child) = .namedPair then child.bare else r.prune child

theorem pruneAllCons (child : Node) (later : List Node) :
    r.pruneAll (child :: later) =
      if r.dead child later then r.pruneAll later else r.trim child :: r.pruneAll later := by
  rw [pruneAll, trim]
  simp only [deadIff]
  split
  · rfl
  · split <;> rfl

theorem pruneTag (n : Node) : (r.prune n).tag = n.tag := by
  cases n
  rw [prune]

theorem pruneChildren (n : Node) : (r.prune n).children = r.pruneAll n.children := by
  cases n
  rw [prune]

theorem pruneSlot (n : Node) : r.slotOf (r.prune n) = r.slotOf n := by
  cases n
  rw [prune]
  rfl

theorem getPrune (n : Node) (key : String) :
    (r.prune n).props.get? key =
      if key = typeKey ∨ key ∈ (r.pruneAll n.children).map r.slotOf then none else n.props.get? key := by
  obtain ⟨tag, id, slot, props, children⟩ := n
  rw [prune, Entries.getFilter]
  by_cases typed : key = typeKey
  · simp [typed]
  · by_cases taken : key ∈ (r.pruneAll children).map r.slotOf <;> simp [typed, taken]

theorem trimSlot (child : Node) : r.slotOf (r.trim child) = r.slotOf child := by
  unfold trim
  split
  · rfl
  · exact pruneSlot child

theorem trimNamedPair (kind : Slot.classify (r.slotOf child) = .namedPair) :
    (r.trim child).namedPair? = child.namedPair? := by
  rw [trim, if_pos kind, child.bareNamedPair]

theorem trimCompiled (kind : Slot.classify (r.slotOf child) ≠ .namedPair) : r.trim child = r.prune child :=
  if_neg kind

theorem keptSplit {children front back : List Node} {kept : Node}
    (split : r.pruneAll children = front ++ kept :: back) :
    ∃ before child later, children = before ++ child :: later ∧ r.dead child later = false ∧
      kept = r.trim child ∧ back = r.pruneAll later := by
  induction children generalizing front with
  | nil => simp [pruneAll] at split
  | cons child later ih =>
    rw [pruneAllCons] at split
    cases gone : r.dead child later with
    | true =>
      rw [gone, if_pos rfl] at split
      obtain ⟨before, next, rest, shape, found⟩ := ih split
      exact ⟨child :: before, next, rest, by rw [shape, List.cons_append], found⟩
    | false =>
      rw [gone, if_neg Bool.false_ne_true] at split
      rcases List.cons_eq_append_iff.mp split with ⟨rfl, same⟩ | ⟨tail, rfl, shorter⟩
      · cases same
        exact ⟨[], child, later, rfl, gone, rfl, rfl⟩
      · obtain ⟨before, next, rest, shape, found⟩ := ih shorter
        exact ⟨child :: before, next, rest, by rw [shape, List.cons_append], found⟩

theorem keptChild {children : List Node} {kept : Node} (inside : kept ∈ r.pruneAll children) :
    ∃ child later, child ∈ children ∧ r.dead child later = false ∧ kept = r.trim child := by
  obtain ⟨front, back, split⟩ := List.append_of_mem inside
  obtain ⟨before, child, later, shape, alive, trimmed, _⟩ := keptSplit split
  exact ⟨child, later, by simp [shape], alive, trimmed⟩

theorem keptReads {children : List Node} {kept : Node} (inside : kept ∈ r.pruneAll children)
    (kind : Slot.classify (r.slotOf kept) = .namedPair) : kept.namedPair?.isSome := by
  obtain ⟨child, later, _, alive, rfl⟩ := keptChild inside
  rw [trimSlot] at kind
  rw [trimNamedPair kind]
  cases read : child.namedPair? with
  | none => simp [dead, kind, read] at alive
  | some binding => rfl

theorem keptGone (gone : r.dead child later = true) : r.pruneAll (child :: later) = r.pruneAll later := by
  rw [pruneAllCons, if_pos gone]

theorem keptOwn (alive : r.dead child later = false) :
    r.occupants (r.slotOf child) (r.pruneAll (child :: later)) =
      r.trim child :: r.occupants (r.slotOf child) (r.pruneAll later) := by
  rw [pruneAllCons, alive, if_neg Bool.false_ne_true, occupantsCons, trimSlot, if_pos rfl]

theorem keptOther {slot : String} (later : List Node) (other : r.slotOf child ≠ slot) :
    r.occupants slot (r.pruneAll (child :: later)) = r.occupants slot (r.pruneAll later) := by
  rw [pruneAllCons]
  split
  · rfl
  · rw [occupantsCons, trimSlot, if_neg other]

theorem keptLast {slot : String} (children : List Node) (kind : Slot.classify slot = .single)
    (typed : slot ≠ typeKey) :
    (r.occupants slot (r.pruneAll children)).getLast? = (r.occupants slot children).getLast?.map r.prune := by
  induction children with
  | nil => rfl
  | cons child later ih =>
    by_cases own : r.slotOf child = slot
    · subst own
      by_cases taken : r.occupants (r.slotOf child) later = []
      · have alive : r.dead child later = false := by simp [dead, kind, taken, typed]
        have compiled : r.trim child = r.prune child := trimCompiled (by rw [kind]; decide)
        rw [taken, List.getLast?_nil, Option.map_none, List.getLast?_eq_none_iff] at ih
        rw [keptOwn alive, ih, occupantsCons, if_pos rfl, taken, compiled]
        rfl
      · have gone : r.dead child later = true := by simp [dead, kind, taken]
        rw [keptGone gone, ih, lastOverwritten taken]
    · rw [keptOther later own, occupantsCons, if_neg own, ih]

theorem keptItems {slot : String} (children : List Node) (kind : Slot.classify slot = .collection) :
    r.occupants slot (r.pruneAll children) = (r.occupants slot children).map r.prune := by
  induction children with
  | nil => rfl
  | cons child later ih =>
    by_cases own : r.slotOf child = slot
    · subst own
      have alive : r.dead child later = false := by simp [dead, kind]
      have compiled : r.trim child = r.prune child := trimCompiled (by rw [kind]; decide)
      rw [keptOwn alive, ih, occupantsCons, if_pos rfl, compiled, List.map_cons]
    · rw [keptOther later own, occupantsCons, if_neg own, ih]

theorem keptBindings {slot : String} (children : List Node) (kind : Slot.classify slot = .namedPair) :
    Entries.ofList (r.bindings slot (r.pruneAll children)) = Entries.ofList (r.bindings slot children) := by
  induction children with
  | nil => rfl
  | cons child later ih =>
    by_cases own : r.slotOf child = slot
    · subst own
      cases read : child.namedPair? with
      | none =>
        have gone : r.dead child later = true := by simp [dead, kind, read]
        have here : r.bindings (r.slotOf child) (child :: later) = r.bindings (r.slotOf child) later := by
          simp [bindings, occupantsCons, read]
        rw [keptGone gone, ih, here]
      | some binding =>
        obtain ⟨name, value⟩ := binding
        have here : r.bindings (r.slotOf child) (child :: later) =
            (name, value) :: r.bindings (r.slotOf child) later := by
          simp [bindings, occupantsCons, read]
        by_cases bound : name ∈ (r.bindings (r.slotOf child) later).map Prod.fst
        · have gone : r.dead child later = true := by simp only [dead, kind, read, decide_eq_true bound]
          rw [keptGone gone, ih, here, Entries.ofListRebound value bound]
        · have alive : r.dead child later = false := by simp only [dead, kind, read, decide_eq_false bound]
          have kept : r.bindings (r.slotOf child) (r.pruneAll (child :: later)) =
              (name, value) :: r.bindings (r.slotOf child) (r.pruneAll later) := by
            rw [bindings, keptOwn alive]
            exact List.filterMap_cons_some ((trimNamedPair kind).trans read)
          rw [kept, here, Entries.ofListCons _ ih]
    · rw [bindings, bindings, keptOther later own, occupantsCons, if_neg own]
      exact ih

theorem keptShown {children : List Node} {key : String} (taken : key ∈ (r.pruneAll children).map r.slotOf) :
    (r.contribution key (r.pruneAll children)).isSome := by
  obtain ⟨kept, inside, rfl⟩ := List.mem_map.mp taken
  have occupant : kept ∈ r.occupants (r.slotOf kept) (r.pruneAll children) :=
    r.occupantChild.mpr ⟨inside, rfl⟩
  have occupied := List.ne_nil_of_mem occupant
  unfold contribution
  split
  · simpa using occupied
  · simp [occupied]
  · rename_i kind
    have reads := keptReads inside kind
    obtain ⟨binding, read⟩ := Option.isSome_iff_exists.mp reads
    have bound : binding ∈ r.bindings (r.slotOf kept) (r.pruneAll children) :=
      List.mem_filterMap.mpr ⟨kept, occupant, read⟩
    simp [List.ne_nil_of_mem bound]

theorem pruneCompile (n : Node) : r.compile (r.prune n) = r.compile n := by
  induction n using Node.childInduction with
  | node n ih =>
    refine compileSame (pruneTag n) fun key typed => ?_
    rw [pruneChildren, getPrune]
    have contribution : r.contribution key (r.pruneAll n.children) = r.contribution key n.children := by
      refine contributionSame (fun kind => ?_) (fun kind => ?_) (keptBindings n.children)
      · rw [keptLast n.children kind typed, Option.map_map]
        refine Option.map_congr fun child last => ih child ?_
        exact (r.occupantChild.mp (List.mem_of_getLast? last)).1
      · rw [keptItems n.children kind, List.map_map]
        exact List.map_congr_left fun child inside => ih child (r.occupantChild.mp inside).1
    by_cases taken : key ∈ (r.pruneAll n.children).map r.slotOf
    · obtain ⟨value, shown⟩ := Option.isSome_iff_exists.mp (keptShown taken)
      rw [← contribution, shown, Option.some_or, Option.some_or]
    · rw [contribution, if_neg (by simp [typed, taken])]

theorem trimBinds (kind : Slot.classify (r.slotOf child) = .namedPair) (name : String) (value : Value) :
    (r.trim child).Binds name value ↔ child.Binds name value := by
  rw [← Node.namedPairBinds, trimNamedPair kind, Node.namedPairBinds]

theorem trimDead (gone : r.Dead (r.trim child) (r.pruneAll later)) : r.Dead child later := by
  cases gone with
  | typed slot => exact .typed ((trimSlot child).symm.trans slot)
  | overwritten kind after same =>
    obtain ⟨sibling, _, inside, _, rfl⟩ := keptChild after
    rw [trimSlot] at kind
    rw [trimSlot, trimSlot] at same
    exact .overwritten kind inside same
  | malformed kind unread =>
    rw [trimSlot] at kind
    refine .malformed kind fun formed => unread ?_
    obtain ⟨name, value, binds⟩ := formed
    exact ⟨name, value, (trimBinds kind name value).mpr binds⟩
  | rebound kind own after same rebinds =>
    obtain ⟨sibling, _, inside, _, rfl⟩ := keptChild after
    rw [trimSlot] at kind
    rw [trimSlot, trimSlot] at same
    have siblingKind : Slot.classify (r.slotOf sibling) = .namedPair := same ▸ kind
    exact .rebound kind ((trimBinds kind _ _).mp own) inside same ((trimBinds siblingKind _ _).mp rebinds)

theorem prunePruned (n : Node) : r.Pruned (r.prune n) := by
  induction n using Node.childInduction with
  | node n ih =>
    refine .intro (by cases n; rw [prune]) ?_ ?_ ?_ ?_ ?_
    · rw [getPrune, if_pos (.inl rfl)]
    · intro kept inside
      rw [pruneChildren] at inside
      rw [getPrune, if_pos (.inr (List.mem_map_of_mem inside))]
    · intro front kept back split gone
      rw [pruneChildren] at split
      obtain ⟨before, child, later, shape, alive, rfl, rfl⟩ := keptSplit split
      have marked := deadComplete (trimDead gone)
      rw [alive] at marked
      cases marked
    · intro kept inside kind
      rw [pruneChildren] at inside
      obtain ⟨child, later, _, _, rfl⟩ := keptChild inside
      rw [trimSlot] at kind
      rw [trim, if_pos kind]
      exact child.bareIsBare
    · intro kept inside kind
      rw [pruneChildren] at inside
      obtain ⟨child, later, original, _, rfl⟩ := keptChild inside
      rw [trimSlot] at kind
      rw [trimCompiled kind]
      exact ih child original

theorem prunedTreeCompilesSame (r : Registry) (n : Node) :
    r.compile (r.prune n) = r.compile n ∧ r.Pruned (r.prune n) :=
  ⟨pruneCompile n, prunePruned n⟩

end Registry
end ChartTree
