import ChartTree.Compile.Notice
import ChartTree.Proofs.Compile.EntrySource
import ChartTree.Proofs.Compile.Visits
import ChartTree.Proofs.Map.Arrangement
import Mathlib.Algebra.BigOperators.Group.Finset.Basic
import Mathlib.Algebra.GroupWithZero.Nat
import Mathlib.Data.List.Perm.Basic

/-! What the notices of a compilation add up to. The logs of the compiled children stand between the notices
of a node; taken apart, each node accounts for all its children, and the whole log for the whole tree. -/
namespace ChartTree
open scoped List

namespace Notice

def compiled? : Notice → Option (Tag × Nat)
  | compiling tag children => some (tag, children)
  | _ => none

def isTypeIgnored : Notice → Bool
  | typeIgnored _ => true
  | _ => false

def isOverwritten : Notice → Bool
  | overwritten _ _ => true
  | _ => false

def isDropped : Notice → Bool
  | dropped _ _ _ => true
  | _ => false

end Notice

instance (n : Node) : Decidable n.WellFormed :=
  decidable_of_iff (¬ n.namedPair? = none) (by rw [n.namedPairNone, not_not])

namespace Registry
variable (r : Registry) (tag : Tag)

def reaction (taken : List String) (child : Node) : List Notice :=
  match Slot.classify (r.slotOf child) with
  | .single => if r.slotOf child ∈ taken then [.overwritten tag (r.slotOf child)] else []
  | .collection => []
  | .namedPair => if child.WellFormed then [] else [.dropped tag (r.slotOf child) child.tag]

def takenBy (taken : List String) (child : Node) : List String :=
  if Slot.classify (r.slotOf child) = .single then r.slotOf child :: taken else taken

def reactions (taken : List String) : List Node → List Notice
  | [] => []
  | child :: rest => r.reaction tag taken child ++ reactions (r.takenBy taken child) rest

def heading (n : Node) : List Notice :=
  .compiling n.tag n.children.length :: if n.props.contains typeKey then [.typeIgnored n.tag] else []

def ownNotices (n : Node) : List Notice := heading n ++ r.reactions n.tag [] n.children

theorem placeNoticesCons (taken : List String) (child : Node) (rest : List Node) :
    r.placeNotices tag taken (child :: rest) =
      (if r.Entered child then r.notices child else []) ++
        (r.reaction tag taken child ++ r.placeNotices tag (r.takenBy taken child) rest) := by
  have malformed : child.namedPair?.isNone = true ↔ ¬ child.WellFormed := by
    rw [Option.isNone_iff_eq_none, Node.namedPairNone]
  cases kind : Slot.classify (r.slotOf child) with
  | single => simp [placeNotices, Entered, reaction, takenBy, kind]
  | collection => simp [placeNotices, Entered, reaction, takenBy, kind]
  | namedPair => simp [placeNotices, Entered, reaction, takenBy, kind, malformed]

theorem placeNoticesAppend (taken : List String) (front back : List Node) :
    r.placeNotices tag taken (front ++ back) =
      r.placeNotices tag taken front ++ r.placeNotices tag (front.foldl r.takenBy taken) back := by
  induction front generalizing taken with
  | nil => rw [placeNotices]; rfl
  | cons child rest ih =>
    rw [List.cons_append, placeNoticesCons, placeNoticesCons, ih]
    simp only [List.append_assoc, List.foldl_cons]

theorem placeNoticesCongr {slots others : List String} (same : ∀ slot, slot ∈ slots ↔ slot ∈ others)
    (children : List Node) : r.placeNotices tag slots children = r.placeNotices tag others children := by
  induction children generalizing slots others with
  | nil => rw [placeNotices, placeNotices]
  | cons child rest ih =>
    have reacts : r.reaction tag slots child = r.reaction tag others child := by simp only [reaction, same]
    have later : ∀ slot, slot ∈ r.takenBy slots child ↔ slot ∈ r.takenBy others child := by
      intro slot
      unfold takenBy
      split <;> simp [same]
    rw [placeNoticesCons, placeNoticesCons, reacts, ih later]

theorem takenPlaced (front : List Node) (slot : String) :
    slot ∈ front.foldl r.takenBy [] ↔ slot ∈ (r.place front .empty).singles.keys := by
  induction front using List.reverseRecOn with
  | nil => simp [place, Layers.empty, Entries.keyFound, Entries.getEmpty]
  | append_singleton front child ih =>
    rw [Entries.keyFound] at ih
    rw [List.foldl_append, List.foldl_cons, List.foldl_nil, placeSnoc, Entries.keyFound, singlesPut, takenBy]
    by_cases own : r.slotOf child = slot
    · subst own
      by_cases kind : Slot.classify (r.slotOf child) = .single <;> simp [kind, ih]
    · split <;> simp [own, Ne.symm own, ih]

/- The slots that count as taken are those that the layer of single children has by then. -/
theorem placeNoticesLayered (front back : List Node) :
    r.placeNotices tag [] (front ++ back) =
      r.placeNotices tag [] front ++ r.placeNotices tag (r.place front .empty).singles.keys back := by
  rw [placeNoticesAppend, placeNoticesCongr r tag (r.takenPlaced front)]

theorem overwrittenNoticed (front : List Node) {child : Node}
    (kind : Slot.classify (r.slotOf child) = .single) :
    r.placeNotices tag [] (front ++ [child]) = r.placeNotices tag [] front ++ (r.notices child ++
      if (r.place front .empty).singles.contains (r.slotOf child) then [.overwritten tag (r.slotOf child)]
      else []) := by
  have entered : r.Entered child := by
    intro pair
    cases kind.symm.trans pair
  have taken := (r.place front .empty).singles.keyFound (r.slotOf child)
  rw [placeNoticesLayered, placeNoticesCons, if_pos entered, reaction, kind, placeNotices, List.append_nil]
  dsimp only
  rw [if_congr taken rfl rfl]
  rfl

theorem noticesNode (n : Node) : r.notices n = heading n ++ r.placeNotices n.tag [] n.children := by
  cases n
  rw [notices]
  rfl

/- The notice on an overwritten slot follows the log of the child that takes it, so the logs are taken out
up to order only. -/
theorem placeNoticesApart (taken : List String) (children : List Node) :
    r.placeNotices tag taken children ~
      r.reactions tag taken children ++ (children.filter r.Entered).flatMap r.notices := by
  induction children generalizing taken with
  | nil => simp [placeNotices, reactions]
  | cons child rest ih =>
    rw [placeNoticesCons, reactions, enteredCons]
    calc _
      _ ~ _ := ((ih (r.takenBy taken child)).append_left (r.reaction tag taken child)).append_left _
      _ = _ := by rw [← List.append_assoc (r.reaction tag taken child)]
      _ ~ _ := List.perm_append_comm_assoc ..

theorem noticesApart (n : Node) : r.notices n ~ (r.reached n).flatMap r.ownNotices := by
  induction n using Node.childInduction with
  | node n ih =>
    have logs : (n.children.filter r.Entered).flatMap r.notices ~
        ((n.children.filter r.Entered).flatMap r.reached).flatMap r.ownNotices := by
      rw [List.flatMap_assoc]
      exact List.Perm.flatMap_left _ fun child inside => ih child (List.mem_filter.mp inside).1
    rw [noticesNode, reachedNode, List.flatMap_cons, ownNotices, List.append_assoc]
    exact ((r.placeNoticesApart n.tag [] n.children).trans (logs.append_left _)).append_left _

theorem countNotices (p : Notice → Bool) (n : Node) :
    (r.notices n).countP p = ((r.reached n).map fun d => (r.ownNotices d).countP p).sum := by
  rw [(r.noticesApart n).countP_eq, List.countP_flatMap]
  rfl

theorem reactionCompiled (taken : List String) (child : Node) :
    (r.reaction tag taken child).filterMap Notice.compiled? = [] := by
  unfold reaction
  repeat' split
  all_goals rfl

theorem placeNoticesCompiled (taken : List String) (children : List Node) :
    (r.placeNotices tag taken children).filterMap Notice.compiled? =
      (children.filter r.Entered).flatMap fun child => (r.notices child).filterMap Notice.compiled? := by
  induction children generalizing taken with
  | nil => rw [placeNotices]; rfl
  | cons child rest ih =>
    rw [placeNoticesCons, enteredCons, List.filterMap_append, List.filterMap_append, reactionCompiled, ih,
      List.nil_append]
    split <;> rfl

theorem compiledInOrder (n : Node) :
    (r.notices n).filterMap Notice.compiled? = (r.reached n).map fun d => (d.tag, d.children.length) := by
  induction n using Node.childInduction with
  | node n ih =>
    have head : (heading n).filterMap Notice.compiled? = [(n.tag, n.children.length)] := by
      unfold heading
      split <;> rfl
    rw [noticesNode, reachedNode, List.map_cons, List.map_flatMap, List.filterMap_append, head,
      placeNoticesCompiled]
    exact congrArg _ (List.flatMap_congr fun child inside => ih child (List.mem_filter.mp inside).1)

def inClass (kind : SlotClass) (children : List Node) : List Node :=
  children.filter fun child => Slot.classify (r.slotOf child) = kind

def slotsIn (kind : SlotClass) (children : List Node) : Finset String :=
  ((r.inClass kind children).map r.slotOf).toFinset

theorem inClassCons (kind : SlotClass) (child : Node) (rest : List Node) :
    r.inClass kind (child :: rest) =
      if Slot.classify (r.slotOf child) = kind then child :: r.inClass kind rest else r.inClass kind rest := by
  simp only [inClass, List.filter_cons, decide_eq_true_eq]

theorem classesTogether (children : List Node) :
    children.length = (r.inClass .single children).length + (r.inClass .collection children).length +
      (r.inClass .namedPair children).length := by
  induction children with
  | nil => rfl
  | cons child rest ih =>
    simp only [inClassCons, List.length_cons]
    cases Slot.classify (r.slotOf child) <;> simp <;> omega

theorem slotsInCons (kind : SlotClass) (child : Node) (rest : List Node) :
    r.slotsIn kind (child :: rest) =
      if Slot.classify (r.slotOf child) = kind then insert (r.slotOf child) (r.slotsIn kind rest)
      else r.slotsIn kind rest := by
  unfold slotsIn
  rw [inClassCons]
  split
  · rw [List.map_cons, List.toFinset_cons]
  · rfl

theorem reactionOverwritten (taken : List String) (child : Node) :
    (r.reaction tag taken child).countP Notice.isOverwritten =
      if Slot.classify (r.slotOf child) = .single ∧ r.slotOf child ∈ taken then 1 else 0 := by
  unfold reaction
  split <;> rename_i kind <;> simp only [kind, true_and, reduceCtorEq, false_and, if_false]
  · split <;> rfl
  · rfl
  · split <;> rfl

theorem reactionDropped (taken : List String) (child : Node) :
    (r.reaction tag taken child).filter Notice.isDropped =
      if Slot.classify (r.slotOf child) = .namedPair ∧ ¬ child.WellFormed then
        [.dropped tag (r.slotOf child) child.tag]
      else [] := by
  unfold reaction
  split <;> rename_i kind <;> simp only [kind, true_and, reduceCtorEq, false_and, if_false]
  · split <;> rfl
  · rfl
  · split <;> simp_all [Notice.isDropped]

theorem newlyTaken (slots taken : Finset String) (slot : String) :
    (insert slot slots \ taken).card = (slots \ insert slot taken).card + if slot ∈ taken then 0 else 1 := by
  split
  · rename_i old
    rw [Finset.insert_sdiff_of_mem _ old, Finset.insert_eq_of_mem old, Nat.add_zero]
  · rename_i new
    have same : insert slot slots \ taken = insert slot (slots \ insert slot taken) := by
      ext other
      by_cases here : other = slot <;> simp [here, new]
    rw [same, Finset.card_insert_of_notMem (by simp)]

theorem takenByOne (taken : List String) (child : Node) :
    (r.takenBy taken child).toFinset =
      if Slot.classify (r.slotOf child) = .single then insert (r.slotOf child) taken.toFinset
      else taken.toFinset := by
  unfold takenBy
  split
  · rw [List.toFinset_cons]
  · rfl

theorem overwrittenReactions (taken : List String) (children : List Node) :
    (r.reactions tag taken children).countP Notice.isOverwritten +
      (r.slotsIn .single children \ taken.toFinset).card = (r.inClass .single children).length := by
  induction children generalizing taken with
  | nil => simp [reactions, slotsIn, inClass]
  | cons child rest ih =>
    have later := ih (r.takenBy taken child)
    rw [takenByOne] at later
    rw [reactions, List.countP_append, reactionOverwritten, slotsInCons, inClassCons]
    split at later <;> rename_i kind
    · rw [if_pos kind, if_pos kind, newlyTaken, List.length_cons, ← later]
      by_cases old : r.slotOf child ∈ taken <;> simp [kind, old] <;> omega
    · rw [if_neg kind, if_neg kind, if_neg (kind ·.1), Nat.zero_add, later]

theorem droppedReactions (taken : List String) (children : List Node) :
    (r.reactions tag taken children).filter Notice.isDropped =
      ((r.inClass .namedPair children).filter fun child => ¬ child.WellFormed).map fun child =>
        .dropped tag (r.slotOf child) child.tag := by
  induction children generalizing taken with
  | nil => rfl
  | cons child rest ih =>
    rw [reactions, List.filter_append, reactionDropped, ih, inClassCons]
    by_cases kind : Slot.classify (r.slotOf child) = .namedPair <;>
      by_cases formed : child.WellFormed <;> simp [kind, formed]

theorem reactionTyped (taken : List String) (children : List Node) :
    (r.reactions tag taken children).countP Notice.isTypeIgnored = 0 := by
  induction children generalizing taken with
  | nil => rfl
  | cons child rest ih =>
    rw [reactions, List.countP_append, ih, Nat.add_zero, reaction]
    repeat' split
    all_goals rfl

theorem headingQuiet {p : Notice → Bool} (compiling : ∀ tag children, p (.compiling tag children) = false)
    (ignored : ∀ tag, p (.typeIgnored tag) = false) (n : Node) : (heading n).countP p = 0 := by
  unfold heading
  split <;> simp [compiling, ignored]

theorem ownOverwritten (n : Node) :
    (r.ownNotices n).countP Notice.isOverwritten + (r.slotsIn .single n.children).card =
      (r.inClass .single n.children).length := by
  have head : (heading n).countP Notice.isOverwritten = 0 := headingQuiet (fun _ _ => rfl) (fun _ => rfl) n
  have placed := r.overwrittenReactions n.tag [] n.children
  rw [List.toFinset_nil, Finset.sdiff_empty] at placed
  rw [ownNotices, List.countP_append, head, Nat.zero_add, placed]

theorem ownDropped (n : Node) :
    (r.ownNotices n).countP Notice.isDropped =
      (r.inClass .namedPair n.children).countP fun child => ¬ child.WellFormed := by
  have head : (heading n).countP Notice.isDropped = 0 := headingQuiet (fun _ _ => rfl) (fun _ => rfl) n
  have placed := congrArg List.length (r.droppedReactions n.tag [] n.children)
  rw [List.length_map, ← List.countP_eq_length_filter, ← List.countP_eq_length_filter] at placed
  rw [ownNotices, List.countP_append, head, Nat.zero_add, placed]

theorem ownTypeIgnored (n : Node) :
    (r.ownNotices n).countP Notice.isTypeIgnored = if n.props.contains typeKey then 1 else 0 := by
  rw [ownNotices, List.countP_append, reactionTyped, Nat.add_zero, heading]
  split <;> rfl

theorem collectionLength {n : Node} {key : String} (kind : Slot.classify key = .collection)
    (taken : r.occupants key n.children ≠ []) :
    ((r.compile n).collection key).length = (r.occupants key n.children).length := by
  have other : key ≠ "type" := by
    intro typed
    rw [typed] at kind
    cases kind
  rw [Spec.collection, sourceSound (.collection other kind taken)]
  exact List.length_map ..

theorem slotCount (kind : SlotClass) (children : List Node) {key : String} (own : Slot.classify key = kind) :
    ((r.inClass kind children).map r.slotOf).count key = (r.occupants key children).length := by
  rw [List.count_eq_countP, List.countP_map, inClass, List.countP_filter, occupants,
    ← List.countP_eq_length_filter]
  refine List.countP_congr fun child _ => ?_
  simp only [Function.comp_apply, beq_iff_eq, Bool.and_eq_true, decide_eq_true_eq, and_iff_left_iff_imp]
  intro same
  rw [same, own]

theorem collectionsTogether (n : Node) :
    ∑ key ∈ r.slotsIn .collection n.children, ((r.compile n).collection key).length =
      (r.inClass .collection n.children).length := by
  have each : ∀ key ∈ r.slotsIn .collection n.children,
      ((r.compile n).collection key).length = ((r.inClass .collection n.children).map r.slotOf).count key := by
    intro key taken
    obtain ⟨child, inside, rfl⟩ := List.mem_map.mp (List.mem_toFinset.mp taken)
    obtain ⟨within, kind⟩ := List.mem_filter.mp inside
    have kind : Slot.classify (r.slotOf child) = .collection := of_decide_eq_true kind
    have occupied := List.ne_nil_of_mem (r.occupantChild.mpr ⟨within, rfl⟩)
    rw [r.collectionLength kind occupied, r.slotCount .collection n.children kind]
  rw [Finset.sum_congr rfl each, slotsIn, List.sum_toFinset_count_eq_length, List.length_map]

theorem childrenAccounted (n : Node) :
    n.children.length =
      (r.slotsIn .single n.children).card + (r.ownNotices n).countP Notice.isOverwritten +
        ∑ key ∈ r.slotsIn .collection n.children, ((r.compile n).collection key).length +
        (r.inClass .namedPair n.children).countP (fun child => child.WellFormed) +
        (r.ownNotices n).countP Notice.isDropped := by
  have pairs := List.length_eq_countP_add_countP (fun child : Node => child.WellFormed)
    (l := r.inClass .namedPair n.children)
  rw [r.classesTogether n.children, ← r.ownOverwritten n, r.collectionsTogether n, r.ownDropped n]
  simp only [decide_eq_true_eq] at pairs
  omega

theorem typedTogether (nodes : List Node) :
    (nodes.flatMap r.ownNotices).countP Notice.isTypeIgnored =
      nodes.countP fun d => d.props.contains typeKey := by
  induction nodes with
  | nil => rfl
  | cons first rest ih =>
    rw [List.flatMap_cons, List.countP_append, ownTypeIgnored, ih, List.countP_cons, Nat.add_comm]

/- The log of a compilation, from its lines to the tree. The overwritten slots are counted with the type among
them, although no child is ever shown there. -/
theorem logAccountsForTree (n : Node) :
    ((r.notices n).filterMap Notice.compiled? = (r.reached n).map (fun d => (d.tag, d.children.length)) ∧
      (∀ path d, (path, d) ∈ r.visits n ↔ r.Visited n path d) ∧
      (r.visits n).Pairwise fun a b => a.1 < b.1) ∧
    r.notices n ~ (r.reached n).flatMap r.ownNotices ∧
    (r.notices n).countP Notice.isOverwritten +
        ((r.reached n).map fun d => (r.slotsIn .single d.children).card).sum =
      ((r.reached n).map fun d => (r.inClass .single d.children).length).sum ∧
    (r.notices n).countP Notice.isDropped =
      ((r.reached n).map fun d =>
        (r.inClass .namedPair d.children).countP fun child => ¬ child.WellFormed).sum ∧
    (r.notices n).countP Notice.isTypeIgnored = (r.reached n).countP (fun d => d.props.contains "type") ∧
    ∀ d ∈ r.reached n, d.children.length =
      (r.slotsIn .single d.children).card + (r.ownNotices d).countP Notice.isOverwritten +
        ∑ key ∈ r.slotsIn .collection d.children, ((r.compile d).collection key).length +
        (r.inClass .namedPair d.children).countP (fun child => child.WellFormed) +
        (r.ownNotices d).countP Notice.isDropped := by
  have apart := r.noticesApart n
  refine ⟨⟨r.compiledInOrder n, fun _ _ => visitsIff, r.visitsOrdered n⟩, apart, ?_, ?_, ?_,
    fun d _ => r.childrenAccounted d⟩
  · rw [r.countNotices Notice.isOverwritten n, ← List.sum_map_add]
    exact congrArg List.sum (List.map_congr_left fun d _ => r.ownOverwritten d)
  · rw [r.countNotices Notice.isDropped n]
    exact congrArg List.sum (List.map_congr_left fun d _ => r.ownDropped d)
  · rw [apart.countP_eq]
    exact r.typedTogether (r.reached n)

end Registry
end ChartTree
