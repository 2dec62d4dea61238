import ChartTree.Proofs.Map.Arrangement
import ChartTree.Value

/-! The numbers inside a value and how deep it nests. The finite part differs from the value in the numbers
that are not finite, and only in them. -/
namespace ChartTree.Value
variable {p : Number → Bool} {low : Option String}

theorem itemsAllIff (vs : List Value) : itemsAll p vs ↔ ∀ v ∈ vs, v.allNumbers p := by
  induction vs with
  | nil => simp [itemsAll]
  | cons v vs ih => rw [itemsAll, Bool.and_eq_true, ih, List.forall_mem_cons]

theorem entriesAllIff (m : Entries Value low) :
    entriesAll p m ↔ ∀ k v, m.get? k = some v → v.allNumbers p := by
  simp only [← Entries.memToList]
  induction m with
  | nil => simp [entriesAll, Entries.toList]
  | cons key above v rest ih =>
    rw [entriesAll, Bool.and_eq_true, ih, Entries.toList]
    simp only [List.mem_cons, Prod.mk.injEq]
    constructor
    · rintro ⟨own, others⟩ k w (⟨rfl, rfl⟩ | later)
      · exact own
      · exact others k w later
    · exact fun all => ⟨all key v (.inl ⟨rfl, rfl⟩), fun k w later => all k w (.inr later)⟩

theorem depthItem {v : Value} {vs : List Value} (inside : v ∈ vs) : v.depth ≤ itemsDepth vs := by
  induction vs with
  | nil => exact absurd inside List.not_mem_nil
  | cons first vs ih =>
    rcases List.mem_cons.mp inside with rfl | inside
    · exact Nat.le_max_left ..
    · exact Nat.le_trans (ih inside) (Nat.le_max_right ..)

theorem depthEntry {k : String} {v : Value} {m : Entries Value low} (inside : (k, v) ∈ m.toList) :
    v.depth ≤ entriesDepth m := by
  induction m with
  | nil => exact absurd inside List.not_mem_nil
  | cons key above first rest ih =>
    rcases List.mem_cons.mp inside with same | inside
    · cases same
      exact Nat.le_max_left ..
    · exact Nat.le_trans (ih inside) (Nat.le_max_right ..)

theorem finiteItemsMap (vs : List Value) : finiteItems vs = vs.map finitePart := by
  induction vs with
  | nil => rfl
  | cons v vs ih => rw [finiteItems, ih, List.map_cons]

theorem finiteEntriesMap (m : Entries Value low) : finiteEntries m = m.map finitePart := by
  induction m with
  | nil => rfl
  | cons key above v rest ih => rw [finiteEntries, ih, Entries.map]

mutual
theorem finitePartSelf : (v : Value) → v.isFinite → v.finitePart = v
  | .null, _ | .bool _, _ | .string _, _ => rfl
  | .number _, finite => if_pos finite
  | .array items, finite => congrArg Value.array (finiteItemsSelf items finite)
  | .object entries, finite => congrArg Value.object (finiteEntriesSelf entries finite)

theorem finiteItemsSelf : (vs : List Value) → itemsAll Number.isFinite vs → finiteItems vs = vs
  | [], _ => rfl
  | v :: vs, finite => by
    obtain ⟨first, rest⟩ := Bool.and_eq_true_iff.mp finite
    rw [finiteItems, finitePartSelf v first, finiteItemsSelf vs rest]

theorem finiteEntriesSelf : {low : Option String} → (m : Entries Value low) →
    entriesAll Number.isFinite m → finiteEntries m = m
  | _, .nil, _ => rfl
  | _, .cons key above v more, finite => by
    obtain ⟨first, rest⟩ := Bool.and_eq_true_iff.mp finite
    rw [finiteEntries, finitePartSelf v first, finiteEntriesSelf more rest]
end

theorem finiteSize {low : Option String} (m : Entries Value low) : (finiteEntries m).size = m.size := by
  induction m with
  | nil => rfl
  | cons key above v rest ih => rw [finiteEntries, Entries.size, Entries.size, ih]

mutual
theorem finitePartSame : (v : Value) → v.finitePart.same v = v.isFinite
  | .null => rfl
  | .bool b => beq_self_eq_true b
  | .string s => beq_self_eq_true s
  | .number n => by
    cases n with
    | finite negative rank => exact Number.sameSelf (.finite negative rank)
    | _ => rfl
  | .array items => finiteItemsSame items
  | .object entries => by
    rw [finitePart, same, finiteSize, beq_self_eq_true, Bool.true_and]
    exact finiteEntriesSame entries entries fun _ _ found => found

theorem finiteItemsSame : (vs : List Value) → sameItems (finiteItems vs) vs = itemsAll Number.isFinite vs
  | [] => rfl
  | v :: vs => by
    rw [finiteItems, sameItems, itemsAll, finitePartSame v, finiteItemsSame vs, isFinite]

theorem finiteEntriesSame : {low : Option String} → (m : Entries Value low) → (whole : Map Value) →
    (∀ k v, m.get? k = some v → whole.get? k = some v) →
    sameIn (finiteEntries m) whole = entriesAll Number.isFinite m
  | _, .nil, _, _ => rfl
  | _, .cons key _ v rest, whole, inside => by
    have own : whole.get? key = some v := inside key v (if_pos rfl)
    have others : ∀ k w, rest.get? k = some w → whole.get? k = some w := by
      intro k w found
      have gone : rest.get? key = none := Entries.getBelow rest (String.lt_irrefl key)
      refine inside k w ((if_neg ?_).trans found)
      rintro rfl
      rw [gone] at found
      cases found
    rw [finiteEntries, sameIn, own, entriesAll]
    dsimp only
    rw [finitePartSame v, finiteEntriesSame rest whole others, isFinite]
end

theorem finiteSelf {v : Value} (finite : v.isFinite) : v.same v := by
  have same := v.finitePartSame
  rwa [v.finitePartSelf finite, finite] at same

end ChartTree.Value
