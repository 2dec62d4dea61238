import ChartTree.Proofs.Chart.Size
import ChartTree.Proofs.Text.Words

/-! The container of a chart, told from its options: their size, their class name without the white space
around it, and their style over a default one. -/
namespace ChartTree.Chart

def blockStyle (key : String) : Option Value :=
  if key = "display" then some (.string "block")
  else if key = "width" ∨ key = "height" then some (.string "100%")
  else none

structure Container.Describes (c : Container) (o : Options) : Prop where
  size : o.size = .ok (c.width, c.height)
  words : Text.words c.className = Options.containerClass :: Text.words o.className
  trimmed : Text.Trimmed c.className.toList
  interior : ∃ lead inner trail, o.className = lead ++ inner ++ trail ∧
    Text.Blank lead.toList ∧ Text.Trimmed inner.toList ∧ Text.Blank trail.toList ∧
    c.className = Options.containerClass ++ if inner = "" then "" else " " ++ inner
  style : ∀ key, c.style.get? key = (o.style.get? key).or (blockStyle key)

namespace Options

theorem fullClassTrim (className : String) : fullClass className =
    containerClass ++ if Text.trim className = "" then "" else " " ++ Text.trim className := by
  rw [fullClass]
  split
  · rw [String.append_empty]
  · rw [String.append_assoc]

theorem containerClassTrimmed : Text.Trimmed containerClass.toList := by
  constructor
  · intro c first
    cases first
    decide
  · intro c last
    cases last
    decide

theorem wordsFullClass (className : String) :
    Text.words (fullClass className) = containerClass :: Text.words className := by
  have own : Text.words containerClass = [containerClass] := by decide +kernel
  rw [← Text.wordsTrim className, fullClass]
  split
  · rename_i bare
    rw [bare, own]
    rfl
  · rw [Text.wordsApart, own, List.singleton_append]

theorem fullClassTrimmed (className : String) : Text.Trimmed (fullClass className).toList := by
  rw [fullClass]
  split
  · exact containerClassTrimmed
  · rename_i more
    obtain ⟨_, _, _, _, kept, _⟩ := (Text.trimIff className _).mp rfl
    simp only [String.toList_append]
    refine Text.trimmedBetween containerClassTrimmed kept (by decide) ?_ _
    simpa using more

theorem getDefaultStyle (key : String) : defaultStyle.get? key = blockStyle key := by
  simp only [defaultStyle, Entries.getOfListCons, blockStyle]
  by_cases display : key = "display"
  · subst display
    rfl
  · by_cases width : key = "width"
    · subst width
      rfl
    · by_cases height : key = "height"
      · subst height
        rfl
      · simp only [display, width, height, or_self, if_false, Option.or_none]
        rfl

theorem describesSize {o : Options} {width height : Number} (size : o.size = .ok (width, height)) (c : Container) :
    c.Describes o ↔ c = ⟨width, height, fullClass o.className, defaultStyle.overlay o.style⟩ := by
  constructor
  · intro describes
    obtain ⟨lead, inner, trail, split, before, kept, after, named⟩ := describes.interior
    obtain rfl := (Text.trimIff o.className inner).mpr ⟨lead, trail, split, before, kept, after⟩
    obtain ⟨w, h, className, style⟩ := c
    cases size.symm.trans describes.size
    have named : className = fullClass o.className := named.trans (fullClassTrim o.className).symm
    have styled : style = defaultStyle.overlay o.style := Entries.ext _ _ fun key => by
      rw [Entries.getOverlay, getDefaultStyle, ← describes.style]
    rw [named, styled]
  · rintro rfl
    obtain ⟨lead, trail, split, before, kept, after⟩ := (Text.trimIff o.className _).mp rfl
    constructor <;> dsimp only
    · exact size
    · exact wordsFullClass o.className
    · exact fullClassTrimmed o.className
    · exact ⟨lead, _, trail, split, before, kept, after, fullClassTrim o.className⟩
    · intro key
      rw [Entries.getOverlay, getDefaultStyle]

theorem containerPadded {left right : String} (before : Text.Blank left.toList) (after : Text.Blank right.toList)
    (o : Options) : (o.withClassName (left ++ o.className ++ right)).container = o.container := by
  have named : fullClass (left ++ o.className ++ right) = fullClass o.className := by
    rw [fullClass, fullClass, Text.trimPadded before after]
  rw [containerSize, containerSize, withClassName, named]
  rfl

theorem describedIff (o : Options) (c : Container) : o.container = .ok c ↔ c.Describes o := by
  rw [containerSize]
  cases size : o.size with
  | error e =>
    refine iff_of_false (fun made => by cases made) fun describes => ?_
    cases size.symm.trans describes.size
  | ok extent =>
    rw [describesSize size]
    exact ⟨fun made => (Except.ok.inj made).symm, fun same => congrArg Except.ok same.symm⟩

theorem containerDescribes (o : Options) :
    o.container.map (fun c => (c.width, c.height)) = o.size ∧
    (∀ e, o.container = .error e → e = .invalidSize o.width o.height) ∧
    (∀ c, o.container = .ok c ↔ c.Describes o) ∧
    ∀ left right, Text.Blank left.toList → Text.Blank right.toList →
      (o.withClassName (left ++ o.className ++ right)).container = o.container := by
  have extent : o.container.map (fun c => (c.width, c.height)) = o.size := by
    rw [containerSize]
    cases o.size <;> rfl
  exact ⟨extent, fun _ => containerRefused, describedIff o,
    fun left right before after => containerPadded before after o⟩

/- White space around the class name goes and white space within it stays. A size without bounds is refused
with any class name. -/
theorem paddedClassContained :
    let bare := (default.withClassName "sales \u3000 trend").withStyle "height" (.string "240px")
    let padded := bare.withClassName ("\u2003\n" ++ bare.className ++ "\t\u00a0")
    let endless := padded.withSize .nan (.infinite true)
    Text.Blank "\u2003\n".toList ∧ Text.Blank "\t\u00a0".toList ∧ padded.container = bare.container ∧
    (∃ c, padded.container = .ok c ∧ c.Describes padded ∧ c.className = "vizir-chart sales \u3000 trend" ∧
      Text.words c.className = ["vizir-chart", "sales", "trend"] ∧
      c.style.get? "height" = some (.string "240px") ∧ c.style.get? "width" = some (.string "100%")) ∧
    endless.container = .error (.invalidSize .nan (.infinite true)) := by
  intro bare padded endless
  have before : Text.Blank "\u2003\n".toList := by decide
  have after : Text.Blank "\t\u00a0".toList := by decide
  obtain ⟨_, _, _, same⟩ := containerDescribes bare
  obtain ⟨_, _, described, _⟩ := containerDescribes padded
  have size : padded.size = .ok (padded.width, padded.height) := if_pos (by decide +kernel)
  obtain ⟨c, made⟩ : ∃ c, padded.container = .ok c := by
    rw [containerSize, size]
    exact ⟨_, rfl⟩
  have describes : c.Describes padded := (described c).mp made
  have named : c.className = "vizir-chart sales \u3000 trend" := by
    simp only [(describesSize size c).mp describes]
    decide +kernel
  have listed : Text.words padded.className = ["sales", "trend"] := by decide +kernel
  refine ⟨before, after, same _ _ before after, ⟨c, made, describes, named, ?_, ?_, ?_⟩, ?_⟩
  · rw [describes.words, listed, containerClass]
  · exact describes.style "height"
  · exact describes.style "width"
  · rfl

end Options
end ChartTree.Chart
