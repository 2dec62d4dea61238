import ChartTree.Chart.Options

/-! Sizes that can be drawn. A container is described for these and no others, and it is refused as the size
is. -/
namespace ChartTree

def Number.Drawable (n : Number) : Prop := (∃ magnitude, n = .finite false magnitude) ∨ n = .zero true

theorem Number.extentDrawable (n : Number) : n.isExtent = true ↔ n.Drawable := by
  cases n with
  | nan => simp [isExtent, Drawable, zero]
  | infinite negative => simp [isExtent, Drawable, zero]
  | finite negative rank =>
    cases negative with
    | false => simp [isExtent, Drawable]
    | true => simp [isExtent, Drawable, zero, Fin.ext_iff]

instance (n : Number) : Decidable n.Drawable := decidable_of_iff _ n.extentDrawable

namespace Chart

def Options.Valid (o : Options) : Prop := o.width.Drawable ∧ o.height.Drawable

instance (o : Options) : Decidable o.Valid := inferInstanceAs (Decidable (_ ∧ _))

namespace Options
variable {o : Options}

theorem sizeDecided (o : Options) :
    o.size = if o.Valid then .ok (o.width, o.height) else .error (.invalidSize o.width o.height) := by
  have extents : o.Valid ↔ (o.width.isExtent && o.height.isExtent) = true := by
    rw [Bool.and_eq_true, Number.extentDrawable, Number.extentDrawable, Valid]
  simp only [size, extents]

theorem containerDecided (o : Options) :
    (o.Valid ∧ ∃ container, o.container = .ok container) ∨
      (¬ o.Valid ∧ o.container = .error (.invalidSize o.width o.height)) := by
  rw [containerSize, sizeDecided]
  by_cases valid : o.Valid
  · rw [if_pos valid]
    exact .inl ⟨valid, _, rfl⟩
  · rw [if_neg valid]
    exact .inr ⟨valid, rfl⟩

theorem sizeDrawable {size : Number × Number} (made : o.size = .ok size) : o.Valid := by
  rw [sizeDecided] at made
  split at made
  · assumption
  · cases made

theorem containerDrawable {container : Container} (made : o.container = .ok container) : o.Valid := by
  rcases o.containerDecided with ⟨valid, _⟩ | ⟨_, refused⟩
  · exact valid
  · cases made.symm.trans refused

theorem sizeRefused {e : Error} (refused : o.size = .error e) : e = .invalidSize o.width o.height := by
  rw [sizeDecided] at refused
  split at refused
  · cases refused
  · cases refused
    rfl

theorem containerRefused {e : Error} (refused : o.container = .error e) :
    e = .invalidSize o.width o.height := by
  rcases o.containerDecided with ⟨_, container, made⟩ | ⟨_, invalid⟩
  · cases made.symm.trans refused
  · cases invalid.symm.trans refused
    rfl

end Options
end Chart
end ChartTree
