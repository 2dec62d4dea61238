import ChartTree.Map
import Mathlib.Data.List.Nodup

/-! The entries of a map in any order. Every arrangement of them puts the same map together, since no two
entries share a key. -/
namespace ChartTree.Entries
variable {α β : Type} {low : Option String}

theorem memToList (m : Entries α low) (k : String) (v : α) : (k, v) ∈ m.toList ↔ m.get? k = some v := by
  induction m with
  | nil => exact iff_of_false List.not_mem_nil (Option.some_ne_none v).symm
  | cons key above value rest ih =>
    have gone : rest.get? key = none := getBelow rest (String.lt_irrefl key)
    rw [toList, List.mem_cons, Prod.mk.injEq, ih, get?]
    split
    · rename_i same
      rw [same, gone]
      simp [eq_comm]
    · rename_i other
      simp [other]

theorem keyFound (m : Entries α low) (k : String) : k ∈ m.keys ↔ (m.get? k).isSome := by
  rw [keys, List.mem_map, Option.isSome_iff_exists]
  constructor
  · intro listed
    obtain ⟨⟨key, v⟩, inside, rfl⟩ := listed
    exact ⟨v, (m.memToList key v).mp inside⟩
  · intro present
    obtain ⟨v, found⟩ := present
    exact ⟨(k, v), (m.memToList k v).mpr found, rfl⟩

theorem keysDiffer (m : Entries α low) : m.keys.Nodup := by
  induction m with
  | nil => exact List.nodup_nil
  | cons key above value rest ih =>
    refine List.nodup_cons.mpr ⟨fun again => ?_, ih⟩
    have found := (rest.keyFound key).mp again
    rw [getBelow rest (String.lt_irrefl key)] at found
    cases found

theorem toListMap (f : α → β) (m : Entries α low) :
    (m.map f).toList = m.toList.map fun kv => (kv.1, f kv.2) := by
  induction m with
  | nil => rfl
  | cons key above value rest ih => rw [map, toList, toList, ih, List.map_cons]

theorem insertSwap (m : Map α) {j k : String} (apart : j ≠ k) (v w : α) :
    (m.insert j v).insert k w = (m.insert k w).insert j v := by
  apply ext
  intro i
  simp only [getInsert]
  grind

theorem extendPermuted (base : Map α) {xs ys : List (String × α)} (distinct : (xs.map Prod.fst).Nodup)
    (permuted : xs.Perm ys) : base.extend xs = base.extend ys := by
  refine permuted.foldl_eq' ?_ base
  intro left leftIn right rightIn base
  by_cases same : left.1 = right.1
  · rw [List.inj_on_of_nodup_map distinct leftIn rightIn same]
  · exact insertSwap base same left.2 right.2

theorem extendArranged (base : Map α) {m : Entries α low} {bindings : List (String × α)}
    (arranged : m.toList.Perm bindings) : base.extend m.toList = base.extend bindings :=
  extendPermuted base m.keysDiffer arranged

theorem overlayEmpty (m : Map α) : empty.overlay m = m := by
  apply ext
  intro k
  rw [getOverlay, getEmpty, Option.or_none]

theorem ofListArranged {m : Map α} {bindings : List (String × α)} (arranged : m.toList.Perm bindings) :
    ofList bindings = m :=
  (extendArranged empty arranged).symm.trans (overlayEmpty m)

theorem ofListFound {bindings : List (String × α)} {k : String} {v : α}
    (found : (ofList bindings).get? k = some v) : (k, v) ∈ bindings := by
  induction bindings with
  | nil => cases found
  | cons first rest ih =>
    rw [getOfListCons, Option.or_eq_some_iff] at found
    rcases found with later | ⟨-, own⟩
    · exact List.mem_cons_of_mem first (ih later)
    · split at own
      · rename_i same
        cases own
        rw [same]
        exact List.mem_cons_self
      · cases own

theorem getOfListDistinct {bindings : List (String × α)} (distinct : (bindings.map Prod.fst).Nodup)
    (k : String) (v : α) : (ofList bindings).get? k = some v ↔ (k, v) ∈ bindings := by
  refine ⟨ofListFound, fun inside => ?_⟩
  have bound := (getOfListMem bindings k).mpr (List.mem_map_of_mem (f := Prod.fst) inside)
  obtain ⟨w, found⟩ := Option.isSome_iff_exists.mp bound
  cases List.inj_on_of_nodup_map distinct inside (ofListFound found) rfl
  exact found

theorem toListOfList {bindings : List (String × α)} (distinct : (bindings.map Prod.fst).Nodup) :
    (ofList bindings).toList.Perm bindings := by
  refine (List.perm_ext_iff_of_nodup (ofList bindings).keysDiffer.of_map distinct.of_map).mpr ?_
  intro binding
  exact (memToList _ _ _).trans (getOfListDistinct distinct _ _)

end ChartTree.Entries
