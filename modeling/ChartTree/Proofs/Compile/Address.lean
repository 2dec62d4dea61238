import ChartTree.Node.Catalogue
import ChartTree.Proofs.Compile.Placement

/-! Where a descendant stands in the specification of its ancestor. A child that its siblings leave alone
is found under its slot, and in a collection at the place that it has among the children there; what is
put in its place changes the specification at that address and nowhere else. -/
namespace ChartTree

inductive Access where
  | key (key : String)
  | index (place : Nat)
  deriving DecidableEq, Repr

def Apart (a b : List Access) : Prop := ¬ a <+: b ∧ ¬ b <+: a

theorem apartTail {access : Access} {a b : List Access} (apart : Apart (access :: a) (access :: b)) :
    Apart a b := by
  simpa only [Apart, List.cons_prefix_cons, true_and] using apart

namespace Value

def read? (v : Value) : Access → Option Value
  | .key key => v.get? key
  | .index place => v.array?.bind (·[place]?)

def write (v : Value) (access : Access) (new : Value) : Value :=
  match access, v with
  | .key key, object entries => object (entries.insert key new)
  | .index place, array items => array (items.set place new)
  | _, v => v

def at? : Value → List Access → Option Value
  | v, [] => some v
  | v, access :: rest => (v.read? access).bind fun found => at? found rest

def replaceAt : Value → List Access → Value → Value
  | _, [], new => new
  | v, access :: rest, new =>
    match v.read? access with
    | some found => v.write access (found.replaceAt rest new)
    | none => v

theorem readWrite {v old : Value} {access : Access} (new : Value) (found : v.read? access = some old) :
    (v.write access new).read? access = some new := by
  cases access with
  | key key =>
    cases v with
    | object entries => exact (Entries.getInsert entries key new key).trans (if_pos rfl)
    | _ => cases found
  | index place =>
    cases v with
    | array items =>
      have inside : place < items.length := (List.getElem?_eq_some_iff.mp found).1
      exact List.getElem?_set_self inside
    | _ => cases found

theorem readWriteOther (v new : Value) {access other : Access} (differ : access ≠ other) :
    (v.write access new).read? other = v.read? other := by
  cases access with
  | key key =>
    cases v with
    | object entries =>
      cases other with
      | key next =>
        have apart : next ≠ key := fun same => differ (congrArg Access.key same.symm)
        exact (Entries.getInsert entries key new next).trans (if_neg apart)
      | index place => rfl
    | _ => rfl
  | index place =>
    cases v with
    | array items =>
      cases other with
      | key key => rfl
      | index next =>
        have apart : place ≠ next := fun same => differ (congrArg Access.index same)
        exact List.getElem?_set_ne apart
    | _ => rfl

theorem readItem (front back : List Value) (item : Value) :
    (array (front ++ item :: back)).read? (.index front.length) = some item := by
  simp [read?, array?]

theorem writeItem (front back : List Value) (item new : Value) :
    (array (front ++ item :: back)).write (.index front.length) new = array (front ++ new :: back) := by
  simp [write]

theorem atAppend (v : Value) (front back : List Access) :
    v.at? (front ++ back) = (v.at? front).bind fun found => found.at? back := by
  induction front generalizing v with
  | nil => rfl
  | cons access rest ih =>
    rw [List.cons_append, at?, at?, Option.bind_assoc]
    exact congrArg (Option.bind _) (funext ih)

theorem replaceAtAppend {v old : Value} (new : Value) {front : List Access} (back : List Access)
    (found : v.at? front = some old) :
    v.replaceAt (front ++ back) new = v.replaceAt front (old.replaceAt back new) := by
  induction front generalizing v with
  | nil => cases found; rfl
  | cons access rest ih =>
    obtain ⟨next, first, deeper⟩ := Option.bind_eq_some_iff.mp found
    simp only [List.cons_append, replaceAt, first, ih deeper]

theorem atReplaceAt {v old : Value} (new : Value) {address : List Access} (found : v.at? address = some old) :
    (v.replaceAt address new).at? address = some new := by
  induction address generalizing v with
  | nil => rfl
  | cons access rest ih =>
    obtain ⟨next, first, deeper⟩ := Option.bind_eq_some_iff.mp found
    simp only [replaceAt, first, at?, readWrite _ first, Option.bind_some]
    exact ih deeper

theorem atApart (v new : Value) {address elsewhere : List Access} (apart : Apart address elsewhere) :
    (v.replaceAt address new).at? elsewhere = v.at? elsewhere := by
  induction address generalizing v elsewhere with
  | nil => exact absurd (List.nil_prefix) apart.1
  | cons access rest ih =>
    cases elsewhere with
    | nil => exact absurd (List.nil_prefix) apart.2
    | cons other deeper =>
      rw [replaceAt]
      split
      · rename_i next first
        by_cases same : access = other
        · subst same
          rw [at?, at?, readWrite _ first, first]
          exact ih next (apartTail apart)
        · rw [at?, at?, readWriteOther _ _ same]
      · rfl

end Value

def Node.replaceAt : Node → List Nat → Node → Node
  | _, [], new => new
  | n, i :: path, new => n.setChildren (n.children.modify i fun child => child.replaceAt path new)

namespace Registry
variable {r : Registry}

/- The accesses that lead from a node to one child. A child in a single slot stays there only if no later
sibling has the slot, and never under the type. -/
inductive Turn (r : Registry) (front : List Node) (child : Node) (back : List Node) :
    List Access → Prop where
  | single (kind : Slot.classify (r.slotOf child) = .single) (other : r.slotOf child ≠ "type")
      (last : ∀ later ∈ back, r.slotOf later ≠ r.slotOf child) :
      Turn r front child back [.key (r.slotOf child)]
  | collection (kind : Slot.classify (r.slotOf child) = .collection) :
      Turn r front child back
        [.key (r.slotOf child), .index (r.occupants (r.slotOf child) front).length]

/- The child indices on the left and the accesses on the right lead from the node to its descendant. -/
inductive Leads (r : Registry) : Node → List Nat → List Access → Node → Prop where
  | here (n : Node) : Leads r n [] [] n
  | down {n child d : Node} {front back : List Node} {path : List Nat} {turn address : List Access}
      (split : n.children = front ++ child :: back) (step : Turn r front child back turn)
      (next : Leads r child path address d) :
      Leads r n (front.length :: path) (turn ++ address) d

def items (r : Registry) (slot : String) (children : List Node) : List Value :=
  (r.occupants slot children).map fun child => (r.compile child).toValue

theorem itemsLength (slot : String) (children : List Node) :
    (r.occupants slot children).length = (r.items slot children).length :=
  List.length_map .. |>.symm

theorem occupantsAround (slot : String) (front : List Node) (child : Node) (back : List Node) :
    r.occupants slot (front ++ child :: back) =
      r.occupants slot front ++ ((if r.slotOf child = slot then [child] else []) ++ r.occupants slot back) := by
  rw [occupantsAppend, occupantsCons]
  split <;> rfl

theorem contributionAround {front back : List Node} {child new : Node} {key : String}
    (same : r.slotOf new = r.slotOf child) (other : key ≠ r.slotOf child) :
    r.contribution key (front ++ new :: back) = r.contribution key (front ++ child :: back) := by
  apply contributionCongr
  simp only [occupantsAround, same, if_neg other.symm]

theorem contributionSingle (front : List Node) {back : List Node} {child : Node}
    (kind : Slot.classify (r.slotOf child) = .single)
    (last : ∀ later ∈ back, r.slotOf later ≠ r.slotOf child) :
    r.contribution (r.slotOf child) (front ++ child :: back) = some (r.compile child).toValue := by
  have after : r.occupants (r.slotOf child) back = [] :=
    List.filter_eq_nil_iff.mpr fun later inside => by simpa using last later inside
  simp [contribution, kind, occupantsAround, after]

theorem contributionCollection (front back : List Node) {child : Node}
    (kind : Slot.classify (r.slotOf child) = .collection) :
    r.contribution (r.slotOf child) (front ++ child :: back) =
      some (.array ((r.items (r.slotOf child) front) ++
        (r.compile child).toValue :: r.items (r.slotOf child) back)) := by
  simp [contribution, kind, occupantsAround, items]

theorem compileReplaced {n child new : Node} {front back : List Node} {value : Value}
    (split : n.children = front ++ child :: back) (same : r.slotOf new = r.slotOf child)
    (other : r.slotOf child ≠ typeKey)
    (placed : r.contribution (r.slotOf child) (front ++ new :: back) = some value) :
    (r.compile (n.setChildren (front ++ new :: back))).entries =
      (r.compile n).entries.insert (r.slotOf child) value := by
  apply Entries.ext
  intro key
  have now := r.getCompile (n.setChildren (front ++ new :: back)) key
  have before := r.getCompile n key
  rw [Entries.getInsert]
  refine now.trans ?_
  by_cases own : key = r.slotOf child
  · rw [if_pos own, own, if_neg other]
    simp only [Node.setChildren, placed, Option.some_or]
  · rw [if_neg own]
    refine Eq.trans ?_ before.symm
    simp only [Node.setChildren, split, contributionAround same own]

theorem turnOther {child : Node} {front back : List Node} {turn : List Access}
    (step : r.Turn front child back turn) : r.slotOf child ≠ typeKey := by
  cases step with
  | single kind other last => exact other
  | collection kind =>
    intro typed
    rw [typed] at kind
    cases kind

theorem turnRead {n child : Node} {front back : List Node} {turn : List Access}
    (split : n.children = front ++ child :: back) (step : r.Turn front child back turn) :
    (r.compile n).toValue.at? turn = some (r.compile child).toValue := by
  have found := r.getCompile n (r.slotOf child)
  rw [if_neg (turnOther step), split] at found
  cases step with
  | single kind other last =>
    rw [contributionSingle front kind last, Option.some_or] at found
    exact Option.bind_eq_some_iff.mpr ⟨_, found, rfl⟩
  | collection kind =>
    rw [contributionCollection front back kind, Option.some_or] at found
    rw [itemsLength]
    exact Option.bind_eq_some_iff.mpr ⟨_, found, Option.bind_eq_some_iff.mpr ⟨_, Value.readItem .., rfl⟩⟩

theorem turnReplace {n child new : Node} {front back : List Node} {turn : List Access}
    (split : n.children = front ++ child :: back) (step : r.Turn front child back turn)
    (same : r.slotOf new = r.slotOf child) :
    (r.compile (n.setChildren (front ++ new :: back))).toValue =
      (r.compile n).toValue.replaceAt turn (r.compile new).toValue := by
  have other := turnOther step
  have found := r.getCompile n (r.slotOf child)
  rw [if_neg other, split] at found
  cases step with
  | single kind _ last =>
    have placed := contributionSingle front (same.symm ▸ kind) (same.symm ▸ last)
    rw [same] at placed
    rw [contributionSingle front kind last, Option.some_or] at found
    have read : (r.compile n).toValue.read? (.key (r.slotOf child)) = _ := found
    simp only [Value.replaceAt, read]
    exact congrArg Value.object (compileReplaced split same other placed)
  | collection kind =>
    have placed := contributionCollection front back (same.symm ▸ kind)
    rw [same] at placed
    rw [contributionCollection front back kind, Option.some_or] at found
    have read : (r.compile n).toValue.read? (.key (r.slotOf child)) = _ := found
    rw [itemsLength]
    simp only [Value.replaceAt, read, Value.readItem, Value.writeItem]
    exact congrArg Value.object (compileReplaced split same other placed)

theorem replaceFirst (n child new : Node) (front back : List Node) (path : List Nat)
    (split : n.children = front ++ child :: back) :
    n.replaceAt (front.length :: path) new = n.setChildren (front ++ child.replaceAt path new :: back) := by
  have inside : front.length < (front ++ child :: back).length := by simp
  rw [Node.replaceAt, split, List.modify_eq_take_cons_drop inside]
  simp

theorem leadsSlot {n d new : Node} {path : List Nat} {address : List Access}
    (leads : r.Leads n path address d) (same : r.slotOf new = r.slotOf d) :
    r.slotOf (n.replaceAt path new) = r.slotOf n := by
  cases leads with
  | here => exact same
  | down split step next => rfl

theorem leadsRead {n d : Node} {path : List Nat} {address : List Access}
    (leads : r.Leads n path address d) : (r.compile n).toValue.at? address = some (r.compile d).toValue := by
  induction leads with
  | here n => rfl
  | down split step next ih =>
    rw [Value.atAppend, turnRead split step]
    exact ih

theorem leadsReplace {n d new : Node} {path : List Nat} {address : List Access}
    (leads : r.Leads n path address d) (same : r.slotOf new = r.slotOf d) :
    (r.compile (n.replaceAt path new)).toValue =
      (r.compile n).toValue.replaceAt address (r.compile new).toValue := by
  induction leads with
  | here n => rfl
  | @down n child d front back path turn address split step next ih =>
    rw [replaceFirst n child new front back path split, turnReplace split step (leadsSlot next same), ih same,
      Value.replaceAtAppend _ _ (turnRead split step)]

theorem survivorAtAddress {n d : Node} {path : List Nat} {address : List Access}
    (leads : r.Leads n path address d) :
    (r.compile n).toValue.at? address = some (r.compile d).toValue ∧
    ∀ new, r.slotOf new = r.slotOf d →
      let changed := (r.compile (n.replaceAt path new)).toValue
      changed = (r.compile n).toValue.replaceAt address (r.compile new).toValue ∧
      changed.at? address = some (r.compile new).toValue ∧
      ∀ elsewhere, Apart address elsewhere → changed.at? elsewhere = (r.compile n).toValue.at? elsewhere := by
  have reads := leadsRead leads
  refine ⟨reads, fun new same => ?_⟩
  intro changed
  have replaced : changed = _ := leadsReplace leads same
  refine ⟨replaced, ?_, fun elsewhere apart => ?_⟩
  · rw [replaced]
    exact Value.atReplaceAt _ reads
  · rw [replaced]
    exact Value.atApart _ _ apart

theorem lastTitleAtAddress :
    let line := (Node.ofTag (.mark .line)).withChildren [.title "draft", .title "sales"]
    let chart := (Node.ofTag .defaultView).withChildren [.ofTag (.mark .interval), .title "chart", line]
    let address := [.key "children", .index 1, .key "title"]
    standard.Leads chart [2, 1] address (.title "sales") ∧
    (standard.compile chart).toValue.at? address = some (standard.compile (.title "sales")).toValue ∧
    standard.slotOf (.title "costs") = standard.slotOf (.title "sales") ∧
    (standard.compile (chart.replaceAt [2, 1] (.title "costs"))).toValue.at? address =
      some (standard.compile (.title "costs")).toValue := by
  intro line chart address
  have outer : standard.Turn [.ofTag (.mark .interval), .title "chart"] line [] [.key "children", .index 1] :=
    .collection (by decide)
  have inner : standard.Turn [.title "draft"] (.title "sales") [] [.key "title"] :=
    .single (by decide) (by decide) (by simp)
  have leads : standard.Leads chart [2, 1] address (.title "sales") := .down rfl outer (.down rfl inner (.here _))
  have same : standard.slotOf (.title "costs") = standard.slotOf (.title "sales") := by decide
  obtain ⟨reads, changes⟩ := survivorAtAddress leads
  exact ⟨leads, reads, same, (changes _ same).2.1⟩

end Registry
end ChartTree
