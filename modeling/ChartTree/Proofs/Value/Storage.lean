import ChartTree.Proofs.Value.Sameness

/-! Values as they are kept: the entries of an object stand in the order of some table. Two kept values are
compared by walking through one table and looking up each key in the other, and what comes out is the
equality of the values themselves, whatever the tables look like. -/
namespace ChartTree

inductive Stored where
  | null
  | bool (b : Bool)
  | number (n : Number)
  | string (s : String)
  | array (items : List Stored)
  | object (table : List (String × Stored))

namespace Stored

mutual
def value : Stored → Value
  | .null => .null
  | .bool b => .bool b
  | .number n => .number n
  | .string s => .string s
  | .array items => .array (itemValues items)
  | .object table => .object (.ofList (tableValues table))

def itemValues : List Stored → List Value
  | [] => []
  | x :: xs => value x :: itemValues xs

def tableValues : List (String × Stored) → List (String × Value)
  | [] => []
  | (key, x) :: rest => (key, value x) :: tableValues rest
end

mutual
/- Only the left table is walked through; that the right one has no other keys is told by its length. -/
def same : Stored → Stored → Bool
  | .null, .null => true
  | .bool a, .bool b => a == b
  | .number a, .number b => a.same b
  | .string a, .string b => a == b
  | .array xs, .array ys => sameItems xs ys
  | .object xs, .object ys => xs.length == ys.length && sameTable xs ys
  | _, _ => false

def sameItems : List Stored → List Stored → Bool
  | [], [] => true
  | x :: xs, y :: ys => same x y && sameItems xs ys
  | _, _ => false

def sameTable : List (String × Stored) → List (String × Stored) → Bool
  | [], _ => true
  | (key, x) :: rest, other =>
    (match other.lookup key with
      | some y => same x y
      | none => false) && sameTable rest other
end

inductive Distinct : Stored → Prop where
  | null : Distinct .null
  | bool (b : Bool) : Distinct (.bool b)
  | number (n : Number) : Distinct (.number n)
  | string (s : String) : Distinct (.string s)
  | array {items : List Stored} (each : ∀ x ∈ items, Distinct x) : Distinct (.array items)
  | object {table : List (String × Stored)} (keys : (table.map Prod.fst).Nodup)
      (each : ∀ entry ∈ table, Distinct entry.2) : Distinct (.object table)

inductive Reordered : Stored → Stored → Prop where
  | refl (x : Stored) : Reordered x x
  | array {xs ys : List Stored} (length : xs.length = ys.length)
      (items : ∀ (i : Nat) x y, xs[i]? = some x → ys[i]? = some y → Reordered x y) :
      Reordered (.array xs) (.array ys)
  | object {xs ys : List (String × Stored)} (keys : (xs.map Prod.fst).Perm (ys.map Prod.fst))
      (entries : ∀ entry ∈ xs, ∀ other ∈ ys, entry.1 = other.1 → Reordered entry.2 other.2) :
      Reordered (.object xs) (.object ys)

theorem itemValuesMap (items : List Stored) : itemValues items = items.map value := by
  induction items with
  | nil => rfl
  | cons x xs ih => rw [itemValues, ih, List.map_cons]

theorem tableValuesMap (table : List (String × Stored)) :
    tableValues table = table.map fun entry => (entry.1, entry.2.value) := by
  induction table with
  | nil => rfl
  | cons entry rest ih => rw [tableValues, ih, List.map_cons]

theorem tableKeys (table : List (String × Stored)) :
    (tableValues table).map Prod.fst = table.map Prod.fst := by
  rw [tableValuesMap, List.map_map]
  rfl

theorem tableArranged {table : List (String × Stored)} (distinct : (table.map Prod.fst).Nodup) :
    (Entries.ofList (tableValues table)).toList.Perm (tableValues table) :=
  Entries.toListOfList ((tableKeys table).symm ▸ distinct)

theorem tableSize {table : List (String × Stored)} (distinct : (table.map Prod.fst).Nodup) :
    (Entries.ofList (tableValues table)).size = table.length := by
  rw [Entries.sizeToList, (tableArranged distinct).length_eq, tableValuesMap, List.length_map]

theorem getTable {table : List (String × Stored)} (distinct : (table.map Prod.fst).Nodup) (key : String) :
    (Entries.ofList (tableValues table)).get? key = (table.lookup key).map value := by
  induction table with
  | nil => rfl
  | cons entry rest ih =>
    obtain ⟨own, x⟩ := entry
    obtain ⟨fresh, others⟩ := List.nodup_cons.mp distinct
    rw [tableValues, Entries.getOfListCons, List.lookup_cons]
    by_cases here : key = own
    · subst here
      have gone : (Entries.ofList (tableValues rest)).get? key = none := by
        rw [← Option.not_isSome_iff_eq_none, Entries.getOfListMem, tableKeys]
        exact fresh
      simp [gone]
    · rw [if_neg here, Option.or_none, ih others, beq_false_of_ne here]

theorem lookupInside {table : List (String × Stored)} {key : String} {x : Stored}
    (found : table.lookup key = some x) : (key, x) ∈ table := by
  obtain ⟨before, after, split, _⟩ := List.lookup_eq_some_iff.mp found
  rw [split]
  exact List.mem_append_right before List.mem_cons_self

theorem lookupBound (table : List (String × Stored)) (key : String) :
    (table.lookup key).isSome ↔ key ∈ table.map Prod.fst := by
  rw [List.lookup_isSome_iff, List.mem_map]
  exact exists_congr fun entry => and_congr_right fun _ => beq_iff_eq.trans eq_comm

theorem sameTableIff (table other : List (String × Stored)) :
    sameTable table other = true ↔ ∀ entry ∈ table, ∃ y, other.lookup entry.1 = some y ∧ entry.2.same y = true := by
  induction table with
  | nil => exact iff_of_true rfl nofun
  | cons entry rest ih =>
    rw [sameTable, Bool.and_eq_true, ih, List.forall_mem_cons]
    cases other.lookup entry.1 with
    | none => simp
    | some found => simp

theorem sameValueItems {xs ys : List Stored} (each : ∀ x ∈ xs, ∀ y ∈ ys, x.same y = x.value.same y.value) :
    sameItems xs ys = Value.sameItems (itemValues xs) (itemValues ys) := by
  induction xs generalizing ys with
  | nil => cases ys <;> rfl
  | cons x xs ih =>
    cases ys with
    | nil => rfl
    | cons y ys =>
      have first := each x List.mem_cons_self y List.mem_cons_self
      have others := ih fun v left w right =>
        each v (List.mem_cons_of_mem x left) w (List.mem_cons_of_mem y right)
      rw [sameItems, itemValues, itemValues, Value.sameItems, first, others]

theorem sameValueTable {xs ys : List (String × Stored)} (left : (xs.map Prod.fst).Nodup)
    (right : (ys.map Prod.fst).Nodup)
    (each : ∀ entry ∈ xs, ∀ other ∈ ys, entry.2.same other.2 = entry.2.value.same other.2.value) :
    sameTable xs ys = Value.sameIn (.ofList (tableValues xs)) (.ofList (tableValues ys)) := by
  have entered := fun entry => (tableArranged left).mem_iff (a := entry)
  rw [Bool.eq_iff_iff, sameTableIff, Value.sameInIff]
  simp only [entered, getTable right]
  rw [tableValuesMap, List.forall_mem_map]
  refine forall₂_congr fun entry inside => ?_
  cases found : ys.lookup entry.1 with
  | none => simp
  | some y => simp [Value.Same, each entry inside _ (lookupInside found)]

theorem sameValue {x y : Stored} (left : x.Distinct) (right : y.Distinct) : x.same y = x.value.same y.value := by
  induction left generalizing y with
  | null => cases y <;> rfl
  | bool b => cases y <;> rfl
  | number n => cases y <;> rfl
  | string s => cases y <;> rfl
  | array each ih =>
    cases right with
    | array others => exact sameValueItems fun x inside y among => ih x inside (others y among)
    | _ => rfl
  | object keys each ih =>
    cases right with
    | object otherKeys others =>
      have parts := sameValueTable keys otherKeys fun entry inside other among =>
        ih entry inside (others other among)
      rw [same, value, value, Value.same, tableSize keys, tableSize otherKeys, parts]
    | _ => rfl

theorem valueReordered {x y : Stored} (reordered : x.Reordered y) (distinct : x.Distinct) : x.value = y.value := by
  induction reordered with
  | refl x => rfl
  | @array xs ys length _ ih =>
    cases distinct with
    | array each =>
      have values : List.Forall₂ (fun x y => x.value = y.value) xs ys :=
        (relatedPlaces xs ys).mpr ⟨length, fun i x y left right =>
          ih i x y left right (each x (List.mem_of_getElem? left))⟩
      rw [value, value, itemValuesMap, itemValuesMap, relatedMap value values fun _ _ _ same => same]
  | @object xs ys keys _ ih =>
    cases distinct with
    | object own each =>
      have others : (ys.map Prod.fst).Nodup := keys.nodup_iff.mp own
      refine congrArg Value.object (Entries.ext _ _ fun key => ?_)
      have bound : (xs.lookup key).isSome = (ys.lookup key).isSome := by
        rw [Bool.eq_iff_iff, lookupBound, lookupBound, keys.mem_iff]
      have entries : Option.Rel (fun x y => x.value = y.value) (xs.lookup key) (ys.lookup key) :=
        relatedOptions.mpr ⟨bound, fun x y left right =>
          ih _ (lookupInside left) _ (lookupInside right) rfl (each _ (lookupInside left))⟩
      rw [getTable own, getTable others, relatedOption value entries fun _ _ _ same => same]

end Stored
end ChartTree
