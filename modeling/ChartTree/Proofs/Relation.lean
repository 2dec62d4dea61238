import Mathlib.Data.List.Forall2

/-! Lists and optional values that are related member by member. -/
namespace ChartTree
variable {α β : Type} {R : α → α → Prop} {xs ys : List α}

theorem relatedWithin {R S : α → β → Prop} {xs : List α} {ys : List β} (all : List.Forall₂ R xs ys)
    (each : ∀ x ∈ xs, ∀ y, R x y → S x y) : List.Forall₂ S xs ys := by
  have both := (List.forall₂_and_left xs ys).mpr ⟨each, all⟩
  exact both.imp fun x y step => step.1 y step.2

theorem relatedPlaces {R : α → β → Prop} (xs : List α) (ys : List β) : List.Forall₂ R xs ys ↔
    xs.length = ys.length ∧ ∀ (i : Nat) x y, xs[i]? = some x → ys[i]? = some y → R x y := by
  rw [List.forall₂_iff_get]
  refine and_congr_right fun _ => ⟨fun each i x y left right => ?_, fun each i inside among => ?_⟩
  · obtain ⟨inside, rfl⟩ := List.getElem?_eq_some_iff.mp left
    obtain ⟨among, rfl⟩ := List.getElem?_eq_some_iff.mp right
    exact each i inside among
  · exact each i _ _ (List.getElem?_eq_getElem inside) (List.getElem?_eq_getElem among)

theorem relatedMap (f : α → β) (all : List.Forall₂ R xs ys) (same : ∀ x ∈ xs, ∀ y, R x y → f x = f y) :
    xs.map f = ys.map f := by
  have equal : List.Forall₂ Eq (xs.map f) (ys.map f) := by
    simpa only [List.forall₂_map_left_iff, List.forall₂_map_right_iff] using relatedWithin all same
  rwa [List.forall₂_eq_eq_eq] at equal

theorem relatedFilterMap (f : α → Option β) (all : List.Forall₂ R xs ys)
    (same : ∀ x ∈ xs, ∀ y, R x y → f x = f y) : xs.filterMap f = ys.filterMap f := by
  have each := congrArg (List.filterMap id) (relatedMap f all same)
  simpa only [List.filterMap_map, Function.id_comp] using each

theorem relatedOption {x y : Option α} (f : α → β) (both : Option.Rel R x y)
    (same : ∀ a ∈ x, ∀ b, R a b → f a = f b) : x.map f = y.map f := by
  cases both with
  | none => rfl
  | some related => exact congrArg some (same _ rfl _ related)

theorem relatedOptionMap {S : β → β → Prop} {x y : Option α} (f : α → β) (both : Option.Rel R x y)
    (related : ∀ a b, R a b → S (f a) (f b)) : Option.Rel S (x.map f) (y.map f) := by
  cases both with
  | none => exact .none
  | some pair => exact .some (related _ _ pair)

theorem relatedIfAny {S : β → β → Prop} {v w : β} [Decidable (xs = [])] [Decidable (ys = [])]
    (all : List.Forall₂ R xs ys) (values : S v w) :
    Option.Rel S (if xs = [] then none else some v) (if ys = [] then none else some w) := by
  cases all with
  | nil =>
    rw [if_pos rfl, if_pos rfl]
    exact .none
  | cons head tail =>
    rw [if_neg (List.cons_ne_nil _ _), if_neg (List.cons_ne_nil _ _)]
    exact .some values

theorem relatedLast (all : List.Forall₂ R xs ys) : Option.Rel R xs.getLast? ys.getLast? := by
  induction all with
  | nil => exact .none
  | cons head tail ih =>
    rw [List.getLast?_cons, List.getLast?_cons]
    revert ih
    generalize List.getLast? _ = x
    generalize List.getLast? _ = y
    intro ih
    cases ih with
    | none => exact .some head
    | some last => exact .some last

theorem relatedOptionIff {x y : Option α} :
    Option.Rel R x y ↔ (x.isSome ↔ y.isSome) ∧ ∀ a, x = some a → ∃ b, y = some b ∧ R a b := by
  cases x <;> cases y <;> simp

theorem relatedOptions {x y : Option α} :
    Option.Rel R x y ↔ x.isSome = y.isSome ∧ ∀ a b, x = some a → y = some b → R a b := by
  cases x <;> cases y <;> simp

theorem relatedOr {x y z w : Option α} (first : Option.Rel R x y) (second : Option.Rel R z w) :
    Option.Rel R (x.or z) (y.or w) := by
  cases first with
  | none => exact second
  | some related => exact .some related

end ChartTree
