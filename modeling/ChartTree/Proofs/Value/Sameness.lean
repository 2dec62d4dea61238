import ChartTree.Proofs.Relation
import ChartTree.Proofs.Value.FinitePart
import Mathlib.Data.List.Perm.Subperm

/-! Numeric equality of values, part by part: arrays item by item, objects key by key. A value differs from
itself only if a NaN stands somewhere inside it. -/
namespace ChartTree

namespace Entries
variable {α : Type} {low : Option String}

theorem sizeKeys (m : Entries α low) : m.size = m.keys.length := by
  rw [sizeToList, keys, List.length_map]

/- Of two maps of one size, one cannot have more keys than the other. -/
theorem sameKeys {m n : Map α} (size : m.size = n.size) (within : ∀ k, (m.get? k).isSome → (n.get? k).isSome)
    (k : String) : (m.get? k).isSome ↔ (n.get? k).isSome := by
  have kept : m.keys ⊆ n.keys := fun j inside => (n.keyFound j).mpr (within j ((m.keyFound j).mp inside))
  have enough : n.keys.length ≤ m.keys.length := by
    rw [← sizeKeys, ← sizeKeys]
    exact Nat.le_of_eq size.symm
  have permuted : m.keys.Perm n.keys := (m.keysDiffer.subperm kept).perm_of_length_le enough
  rw [← keyFound, ← keyFound, permuted.mem_iff]

theorem sameSize {m n : Map α} (keys : ∀ k, (m.get? k).isSome ↔ (n.get? k).isSome) : m.size = n.size := by
  have permuted : m.keys.Perm n.keys := by
    refine (List.perm_ext_iff_of_nodup m.keysDiffer n.keysDiffer).mpr fun k => ?_
    rw [keyFound, keyFound, keys]
  rw [sizeKeys, sizeKeys, permuted.length_eq]

end Entries

namespace Value
variable {low : Option String}

@[elab_as_elim]
theorem partInduction {motive : Value → Prop} (null : motive .null) (bool : ∀ b, motive (.bool b))
    (number : ∀ n, motive (.number n)) (string : ∀ s, motive (.string s))
    (array : ∀ items, (∀ v ∈ items, motive v) → motive (.array items))
    (object : ∀ entries : Map Value, (∀ key v, entries.get? key = some v → motive v) → motive (.object entries)) :
    (v : Value) → motive v
  | .null => null
  | .bool b => bool b
  | .number n => number n
  | .string s => string s
  | .array items => array items fun v inside =>
    have _ : v.depth < (Value.array items).depth := Nat.lt_succ_of_le (depthItem inside)
    partInduction null bool number string array object v
  | .object entries => object entries fun key v found =>
    have inside : (key, v) ∈ entries.toList := (entries.memToList key v).mpr found
    have _ : v.depth < (Value.object entries).depth := Nat.lt_succ_of_le (depthEntry inside)
    partInduction null bool number string array object v
termination_by v => v.depth

inductive Occurs (n : Number) : Value → Prop where
  | number : Occurs n (.number n)
  | item {items : List Value} {v : Value} (inside : v ∈ items) (below : Occurs n v) : Occurs n (.array items)
  | entry {entries : Map Value} {key : String} {v : Value} (found : entries.get? key = some v)
      (below : Occurs n v) : Occurs n (.object entries)

theorem occursItem {n : Number} {items : List Value} : Occurs n (.array items) ↔ ∃ v ∈ items, Occurs n v := by
  constructor
  · intro occurs
    cases occurs with
    | item inside below => exact ⟨_, inside, below⟩
  · intro within
    obtain ⟨v, inside, below⟩ := within
    exact .item inside below

theorem occursEntry {n : Number} {entries : Map Value} :
    Occurs n (.object entries) ↔ ∃ key v, entries.get? key = some v ∧ Occurs n v := by
  constructor
  · intro occurs
    cases occurs with
    | entry found below => exact ⟨_, _, found, below⟩
  · intro within
    obtain ⟨key, v, found, below⟩ := within
    exact .entry found below

theorem allNumbersIff {p : Number → Bool} (v : Value) : v.allNumbers p ↔ ∀ n, Occurs n v → p n := by
  induction v using partInduction with
  | null => exact iff_of_true rfl nofun
  | bool b => exact iff_of_true rfl nofun
  | string s => exact iff_of_true rfl nofun
  | number n =>
    refine ⟨fun own m occurs => ?_, fun all => all n .number⟩
    cases occurs with
    | number => exact own
  | array items ih =>
    refine (itemsAllIff items).trans ⟨fun all n occurs => ?_, fun all v inside => ?_⟩
    · obtain ⟨v, inside, below⟩ := occursItem.mp occurs
      exact (ih v inside).mp (all v inside) n below
    · exact (ih v inside).mpr fun n below => all n (.item inside below)
  | object entries ih =>
    refine (entriesAllIff entries).trans ⟨fun all n occurs => ?_, fun all key v found => ?_⟩
    · obtain ⟨key, v, found, below⟩ := occursEntry.mp occurs
      exact (ih key v found).mp (all key v found) n below
    · exact (ih key v found).mpr fun n below => all n (.entry found below)

theorem absentIff {n : Number} {v : Value} : ¬ Occurs n v ↔ v.allNumbers fun m => m ≠ n := by
  rw [allNumbersIff]
  constructor
  · intro absent m occurs
    refine decide_eq_true ?_
    intro same
    exact absent (same ▸ occurs)
  · intro others occurs
    exact of_decide_eq_true (others n occurs) rfl

instance (n : Number) (v : Value) : Decidable (Occurs n v) :=
  decidable_of_iff (¬ v.allNumbers fun m => m ≠ n) (by rw [← absentIff, not_not])

def Same (v w : Value) : Prop := v.same w = true

theorem sameItemsIff (xs ys : List Value) : sameItems xs ys = true ↔ List.Forall₂ Same xs ys := by
  induction xs generalizing ys with
  | nil =>
    cases ys with
    | nil => exact iff_of_true rfl .nil
    | cons y ys => exact iff_of_false Bool.false_ne_true nofun
  | cons x xs ih =>
    cases ys with
    | nil => exact iff_of_false Bool.false_ne_true nofun
    | cons y ys => rw [sameItems, Bool.and_eq_true, ih, List.forall₂_cons, Same]

theorem sameInIff (m : Entries Value low) (other : Map Value) :
    sameIn m other = true ↔ ∀ entry ∈ m.toList, ∃ w, other.get? entry.1 = some w ∧ Same entry.2 w := by
  induction m with
  | nil => exact iff_of_true rfl nofun
  | cons key above v rest ih =>
    rw [sameIn, Bool.and_eq_true, ih, Entries.toList, List.forall_mem_cons]
    cases other.get? key with
    | none => simp
    | some found => simp [Same]

theorem sameMapIff (a b : Map Value) : sameMap a b = true ↔ ∀ k, Option.Rel Same (a.get? k) (b.get? k) := by
  rw [sameMap, same, Bool.and_eq_true, beq_iff_eq, sameInIff]
  simp only [relatedOptionIff]
  constructor
  · intro same k
    obtain ⟨size, within⟩ := same
    have kept : ∀ k v, a.get? k = some v → ∃ w, b.get? k = some w ∧ Same v w := fun k v found =>
      within (k, v) ((a.memToList k v).mpr found)
    refine ⟨Entries.sameKeys size (fun k bound => ?_) k, kept k⟩
    obtain ⟨v, found⟩ := Option.isSome_iff_exists.mp bound
    obtain ⟨w, other, _⟩ := kept k v found
    exact Option.isSome_of_eq_some other
  · intro related
    refine ⟨Entries.sameSize fun k => (related k).1, fun entry inside => ?_⟩
    exact (related entry.1).2 entry.2 ((a.memToList entry.1 entry.2).mp inside)

theorem sameSelf (v : Value) : Same v v ↔ ¬ Occurs .nan v := by
  induction v using partInduction with
  | null => exact iff_of_true rfl nofun
  | bool b => exact iff_of_true (beq_self_eq_true b) nofun
  | string s => exact iff_of_true (beq_self_eq_true s) nofun
  | number n =>
    have own : (Value.number n).same (.number n) = !n.isNaN := Number.sameSelf n
    rw [Same, own]
    cases n with
    | nan => exact iff_of_false Bool.false_ne_true fun absent => absent .number
    | _ => exact iff_of_true rfl nofun
  | array items ih =>
    have each : Same (.array items) (.array items) ↔ ∀ v ∈ items, Same v v :=
      (sameItemsIff items items).trans List.forall₂_same
    rw [each, occursItem]
    push Not
    exact forall₂_congr ih
  | object entries ih =>
    have each : Same (.object entries) (.object entries) ↔ ∀ key v, entries.get? key = some v → Same v v := by
      refine (sameMapIff entries entries).trans (forall_congr' fun key => ?_)
      cases entries.get? key with
      | none => exact iff_of_true .none nofun
      | some v => simp
    rw [each, occursEntry]
    push Not
    exact forall₃_congr ih

end Value
end ChartTree
