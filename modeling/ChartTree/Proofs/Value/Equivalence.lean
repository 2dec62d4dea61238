import ChartTree.Proofs.Value.Storage

/-! What numeric equality is as a relation: symmetric and transitive, and reflexive but for a NaN. It holds
between values that have the same parts in the same places, down to the bits of their numbers. -/
namespace ChartTree

namespace Number

def IsZero (n : Number) : Prop := ∃ negative, n = .zero negative

/- Bit for bit the same, but for the sign of a zero. A NaN agrees with nothing. -/
def Agrees (m n : Number) : Prop := m ≠ .nan ∧ (m.bits = n.bits ∨ m.IsZero ∧ n.IsZero)

theorem bitsSame (m n : Number) : m.bits = n.bits ↔ m = n := by
  constructor
  · intro bits
    rw [← ofBitsBits m, bits, ofBitsBits]
  · exact congrArg bits

theorem isZeroFinite (negative : Bool) (rank : Fin ranks) : (finite negative rank).IsZero ↔ rank.val = 0 := by
  simp [IsZero, zero, Fin.ext_iff]

theorem isZeroInfinite (negative : Bool) : ¬ (infinite negative).IsZero := nofun

theorem agreesIff (m n : Number) : m.same n = true ↔ m.Agrees n := by
  rw [Agrees, bitsSame]
  cases m with
  | nan => exact iff_of_false Bool.false_ne_true fun agrees => agrees.1 rfl
  | infinite a => cases n <;> simp [same, isZeroInfinite]
  | finite a rank =>
    cases n with
    | finite b other =>
      simp only [same, isZeroFinite, finite.injEq, Bool.and_eq_true, Bool.or_eq_true, beq_iff_eq, ne_eq,
        reduceCtorEq, not_false_eq_true, true_and, Fin.ext_iff]
      grind
    | infinite b => simp [same, isZeroInfinite]
    | nan => simp [same, IsZero, zero]

theorem agreesSymm {m n : Number} (agrees : m.Agrees n) : n.Agrees m := by
  rw [← agreesIff, sameSymm]
  exact (agreesIff m n).mpr agrees

theorem agreesTrans {l m n : Number} (first : l.Agrees m) (next : m.Agrees n) : l.Agrees n := by
  obtain ⟨real, bits | ⟨zero, middle⟩⟩ := first
  · rw [bitsSame] at bits
    exact bits ▸ next
  · refine ⟨real, .inr ⟨zero, ?_⟩⟩
    obtain ⟨_, bits | ⟨_, last⟩⟩ := next
    · rw [bitsSame] at bits
      exact bits ▸ middle
    · exact last

end Number

namespace Value

inductive Agrees : Value → Value → Prop where
  | null : Agrees .null .null
  | bool (b : Bool) : Agrees (.bool b) (.bool b)
  | number {m n : Number} (agrees : m.Agrees n) : Agrees (.number m) (.number n)
  | string (s : String) : Agrees (.string s) (.string s)
  | array {xs ys : List Value} (length : xs.length = ys.length)
      (items : ∀ (i : Nat) v w, xs[i]? = some v → ys[i]? = some w → Agrees v w) : Agrees (.array xs) (.array ys)
  | object {a b : Map Value} (keys : ∀ k, a.contains k = b.contains k)
      (entries : ∀ k v w, a.get? k = some v → b.get? k = some w → Agrees v w) : Agrees (.object a) (.object b)

theorem agreesSymm {v w : Value} (agrees : v.Agrees w) : w.Agrees v := by
  induction agrees with
  | null => exact .null
  | bool b => exact .bool b
  | number agrees => exact .number (Number.agreesSymm agrees)
  | string s => exact .string s
  | array length _ ih => exact .array length.symm fun i v w left right => ih i w v right left
  | object keys _ ih => exact .object (fun k => (keys k).symm) fun k v w left right => ih k w v right left

theorem agreesTrans {u v w : Value} (first : u.Agrees v) (next : v.Agrees w) : u.Agrees w := by
  induction first generalizing w with
  | null => exact next
  | bool b => exact next
  | string s => exact next
  | number agrees =>
    cases next with
    | number others => exact .number (Number.agreesTrans agrees others)
  | @array xs ys length _ ih =>
    cases next with
    | @array _ zs more others =>
      refine .array (length.trans more) fun i u w left right => ?_
      have inside : i < ys.length := length ▸ (List.getElem?_eq_some_iff.mp left).1
      have middle : ys[i]? = some ys[i] := List.getElem?_eq_getElem inside
      exact ih i u _ left middle (others i _ w middle right)
  | @object a b keys _ ih =>
    cases next with
    | @object _ c more others =>
      refine .object (fun k => (keys k).trans (more k)) fun k u w left right => ?_
      have present : (b.get? k).isSome := (keys k).symm.trans (Option.isSome_of_eq_some left)
      obtain ⟨v, middle⟩ := Option.isSome_iff_exists.mp present
      exact ih k u v left middle (others k v w middle right)

theorem sameAgrees (v w : Value) : v.same w = true ↔ v.Agrees w := by
  induction v using partInduction generalizing w with
  | null =>
    cases w with
    | null => exact iff_of_true rfl .null
    | _ => exact iff_of_false Bool.false_ne_true nofun
  | bool b =>
    cases w with
    | bool c => exact beq_iff_eq.trans ⟨fun same => same ▸ .bool b, fun agrees => by cases agrees; rfl⟩
    | _ => exact iff_of_false Bool.false_ne_true nofun
  | string s =>
    cases w with
    | string t => exact beq_iff_eq.trans ⟨fun same => same ▸ .string s, fun agrees => by cases agrees; rfl⟩
    | _ => exact iff_of_false Bool.false_ne_true nofun
  | number m =>
    cases w with
    | number n => exact (Number.agreesIff m n).trans ⟨.number, fun agrees => by cases agrees; assumption⟩
    | _ => exact iff_of_false Bool.false_ne_true nofun
  | array xs ih =>
    cases w with
    | array ys =>
      refine (sameItemsIff xs ys).trans ((relatedPlaces xs ys).trans ⟨fun same => ?_, fun agrees => ?_⟩)
      · exact .array same.1 fun i v w left right =>
          (ih v (List.mem_of_getElem? left) w).mp (same.2 i v w left right)
      · cases agrees with
        | array length items =>
          exact ⟨length, fun i v w left right =>
            (ih v (List.mem_of_getElem? left) w).mpr (items i v w left right)⟩
    | _ => exact iff_of_false Bool.false_ne_true nofun
  | object a ih =>
    cases w with
    | object b =>
      refine (sameMapIff a b).trans ?_
      simp only [relatedOptions, forall_and]
      constructor
      · intro same
        exact .object same.1 fun k v w left right => (ih k v left w).mp (same.2 k v w left right)
      · intro agrees
        cases agrees with
        | object keys entries =>
          exact ⟨keys, fun k v w left right => (ih k v left w).mpr (entries k v w left right)⟩
    | _ => exact iff_of_false Bool.false_ne_true nofun

theorem samePartialEquivalence :
    (∀ a b : Value, a.same b = b.same a) ∧
    (∀ a b c : Value, a.same b = true → b.same c = true → a.same c = true) ∧
    (∀ a : Value, a.same a = true ↔ ¬ Occurs .nan a) ∧
    (∀ a b : Value, a.same b = true ↔ a.Agrees b) ∧
    (∀ x y : Stored, x.Distinct → y.Distinct → x.same y = x.value.same y.value) ∧
    ∀ x y : Stored, x.Distinct → x.Reordered y → x.value = y.value := by
  refine ⟨fun a b => ?_, fun a b c first next => ?_, sameSelf, sameAgrees, fun x y => Stored.sameValue,
    fun x y distinct reordered => Stored.valueReordered reordered distinct⟩
  · rw [Bool.eq_iff_iff, sameAgrees, sameAgrees]
    exact ⟨agreesSymm, agreesSymm⟩
  · rw [sameAgrees] at *
    exact agreesTrans first next

/- Both tables are turned round, the inner one as well, and the zeros differ in sign. -/
theorem turnedTablesSame :
    let scale : List (String × Stored) := [("nice", .bool true), ("ticks", .array [.null, .string "year"])]
    let chart (negative : Bool) : Stored := .object [("size", .number (.zero negative)), ("scale", .object scale)]
    let turned : Stored := .object [("scale", .object scale.reverse), ("size", .number (.zero true))]
    (chart true).Distinct ∧ turned.Distinct ∧ (chart true).Reordered turned ∧
    (chart true).value = turned.value ∧ (chart true).same turned = (chart true).value.same turned.value ∧
    (chart true).value.same (chart false).value = true ∧ (chart false).value.same turned.value = true ∧
    (chart true).value.same turned.value = true := by
  intro scale chart turned
  obtain ⟨_, chain, _, _, kept, order⟩ := samePartialEquivalence
  have ticks : (Stored.array [.null, .string "year"]).Distinct :=
    .array (by simp [Stored.Distinct.null, Stored.Distinct.string])
  have inner : (Stored.object scale).Distinct := .object (by decide) (by simp [scale, Stored.Distinct.bool, ticks])
  have innerTurned : (Stored.object scale.reverse).Distinct :=
    .object (by decide) (by simp [scale, Stored.Distinct.bool, ticks])
  have left : (chart true).Distinct := .object (by decide) (by simp [Stored.Distinct.number, inner])
  have right : turned.Distinct := .object (by decide) (by simp [Stored.Distinct.number, innerTurned])
  have innerReordered : (Stored.object scale).Reordered (.object scale.reverse) :=
    .object (.swap ..) (by simp [scale, Stored.Reordered.refl])
  have reordered : (chart true).Reordered turned :=
    .object (.swap ..) (by simp [Stored.Reordered.refl, innerReordered])
  have first : (chart true).value.same (chart false).value = true := by decide +kernel
  have next : (chart false).value.same turned.value = true := by decide +kernel
  exact ⟨left, right, reordered, order _ _ left reordered, kept _ _ left right, first, next,
    chain _ _ _ first next⟩

end Value
end ChartTree
