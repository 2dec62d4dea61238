import ChartTree.Registry
import Mathlib.Data.List.Induction
import Mathlib.Data.Set.Card

/-! Registries made by steps. A step mentions its own tag, or all tags that its base registers; of the
mentions of a tag the last one counts. A base may itself have been made by steps, and so may its bases. -/
namespace ChartTree.Registry

def Step.mention? : Step → Tag → Option String
  | slot tag key, t => if t = tag then some key else none
  | extend base, t => base.get t

def mentions (steps : List Step) (tag : Tag) : List String := steps.filterMap fun step => step.mention? tag

structure LastWrites (version : UInt32) (steps : List Step) (r : Registry) : Prop where
  version : r.version = version
  get : ∀ tag, r.get tag = (mentions steps tag).getLast?
  defaultSlot : ∀ tag, r.defaultSlot tag = (mentions steps tag).getLast?.getD tag.variant
  size : r.size = {tag | mentions steps tag ≠ []}.ncard
  empty : r.isEmpty = true ↔ ∀ tag, mentions steps tag = []

theorem mentionsSnoc (front : List Step) (step : Step) (tag : Tag) :
    mentions (front ++ [step]) tag = mentions front tag ++ (step.mention? tag).toList := by
  rw [mentions, List.filterMap_append, List.filterMap_cons]
  cases step.mention? tag <;> rfl

theorem sameGet {r s : Registry} (version : r.version = s.version) (get : ∀ tag, r.get tag = s.get tag) :
    r = s := by
  cases r
  cases s
  cases version
  cases funext get
  rfl

theorem getExtendFrom (r base : Registry) (tag : Tag) :
    (r.extendFrom base).get tag = (base.get tag).or (r.get tag) := by
  suffices general : ∀ (tags : List Tag) (r : Registry),
      ((tags.filterMap fun t => (base.get t).map (t, ·)).foldl (fun r entry => r.slot entry.1 entry.2) r).get tag =
        if tag ∈ tags then (base.get tag).or (r.get tag) else r.get tag by
    rw [extendFrom, entries, general, if_pos (Tag.memAll tag)]
  intro tags
  induction tags with
  | nil => intro r; rfl
  | cons first rest ih =>
    intro r
    rw [List.filterMap_cons]
    cases own : base.get first with
    | none =>
      rw [Option.map_none]
      simp only [ih, List.mem_cons]
      by_cases here : tag = first <;> simp [here, own]
    | some key =>
      rw [Option.map_some]
      simp only [List.foldl_cons, ih, getSlot, List.mem_cons]
      by_cases here : tag = first <;> simp [here, own]

theorem getApply (r : Registry) (step : Step) (tag : Tag) :
    (r.apply step).get tag = (step.mention? tag).or (r.get tag) := by
  cases step with
  | slot own key =>
    rw [apply, getSlot, Step.mention?]
    split <;> rfl
  | extend base => exact getExtendFrom r base tag

theorem versionExtendFrom (r base : Registry) : (r.extendFrom base).version = r.version := by
  rw [extendFrom]
  induction base.entries generalizing r with
  | nil => rfl
  | cons entry rest ih => rw [List.foldl_cons, ih, slot]

theorem versionApply (r : Registry) (step : Step) : (r.apply step).version = r.version := by
  cases step with
  | slot tag key => rfl
  | extend base => exact versionExtendFrom r base

theorem versionSteps (steps : List Step) (r : Registry) : (steps.foldl apply r).version = r.version := by
  induction steps generalizing r with
  | nil => rfl
  | cons step rest ih => rw [List.foldl_cons, ih, versionApply]

theorem getSteps (steps : List Step) (r : Registry) (tag : Tag) :
    (steps.foldl apply r).get tag = (mentions steps tag).getLast?.or (r.get tag) := by
  induction steps using List.reverseRecOn with
  | nil => rfl
  | append_singleton front step ih =>
    rw [List.foldl_append, List.foldl_cons, List.foldl_nil, getApply, ih, mentionsSnoc, List.getLast?_append,
      Option.or_assoc]
    cases step.mention? tag <;> rfl

theorem getBuild (version : UInt32) (steps : List Step) (tag : Tag) :
    (build version steps).get tag = (mentions steps tag).getLast? := by
  rw [build, getSteps]
  exact Option.or_none

theorem buildAppend (version : UInt32) (front back : List Step) :
    build version (front ++ back) = back.foldl apply (build version front) :=
  List.foldl_append

/- A base made by steps could as well be its steps. -/
theorem extendInlined (r : Registry) (version : UInt32) (steps : List Step) :
    r.apply (.extend (build version steps)) = steps.foldl apply r := by
  refine sameGet ((versionApply r _).trans (versionSteps steps r).symm) fun tag => ?_
  rw [getApply, getSteps, Step.mention?, getBuild]

theorem stepsCommute {a b : Step} (apart : ∀ tag, a.mention? tag = none ∨ b.mention? tag = none) (r : Registry) :
    (r.apply a).apply b = (r.apply b).apply a := by
  refine sameGet (by simp only [versionApply]) fun tag => ?_
  simp only [getApply]
  rcases apart tag with free | free
  · rw [free, Option.none_or, Option.none_or]
  · rw [free, Option.none_or, Option.none_or]

theorem entryTags (r : Registry) : r.entries.map Prod.fst = Tag.all.filter fun tag => (r.get tag).isSome := by
  rw [entries]
  induction Tag.all with
  | nil => rfl
  | cons first rest ih =>
    rw [List.filterMap_cons, List.filter_cons]
    cases r.get first <;> simp [ih]

theorem entriesDistinct (r : Registry) : (r.entries.map Prod.fst).Nodup := by
  rw [entryTags]
  exact Tag.allNodup.filter _

theorem sizeTags (r : Registry) : r.size = {tag | r.get tag ≠ none}.ncard := by
  have registered : (↑(r.entries.map Prod.fst).toFinset : Set Tag) = {tag | r.get tag ≠ none} := by
    ext tag
    simp [entryTags, Tag.memAll, Option.isSome_iff_ne_none]
  rw [← registered, Set.ncard_coe_finset, List.toFinset_card_of_nodup r.entriesDistinct, List.length_map, size]

theorem emptyTags (r : Registry) : r.isEmpty = true ↔ ∀ tag, r.get tag = none := by
  simp [isEmpty, entries, Tag.memAll]

theorem extendFromPermuted (r : Registry) {base : Registry} {entries : List (Tag × String)}
    (permuted : base.entries.Perm entries) :
    entries.foldl (fun r entry => r.slot entry.1 entry.2) r = r.extendFrom base := by
  refine (permuted.foldl_eq' ?_ r).symm
  intro left leftIn right rightIn r
  by_cases same : left.1 = right.1
  · rw [List.inj_on_of_nodup_map base.entriesDistinct leftIn rightIn same]
  · refine stepsCommute (a := .slot left.1 left.2) (b := .slot right.1 right.2) (fun tag => ?_) r
    by_cases here : tag = left.1
    · exact .inr (if_neg (here ▸ same))
    · exact .inl (if_neg here)

theorem lastWritesOf {version : UInt32} {steps : List Step} {r : Registry} (own : r.version = version)
    (found : ∀ tag, r.get tag = (mentions steps tag).getLast?) : LastWrites version steps r := by
  have free : ∀ tag, r.get tag = none ↔ mentions steps tag = [] := by
    intro tag
    rw [found, List.getLast?_eq_none_iff]
  refine ⟨own, found, fun tag => ?_, ?_, ?_⟩
  · rw [defaultSlot, found]
  · simp only [sizeTags, ne_eq, free]
  · simp only [emptyTags, free]

theorem builtVersion (version : UInt32) (steps : List Step) : (build version steps).version = version :=
  versionSteps steps _

theorem builtSame (version : UInt32) (steps : List Step) (s : Registry) :
    (build version steps).same s = true ↔
      s.version = version ∧ ∀ tag, s.get tag = (mentions steps tag).getLast? := by
  rw [sameEq]
  constructor
  · rintro rfl
    exact ⟨builtVersion version steps, getBuild version steps⟩
  · intro same
    obtain ⟨own, found⟩ := same
    refine sameGet ((builtVersion version steps).trans own.symm) fun tag => ?_
    rw [getBuild, found]

theorem lastMentionsDecide (version : UInt32) (steps : List Step) :
    LastWrites version steps (build version steps) ∧
    (∀ base tag, (build version (steps ++ [.extend base])).get tag =
      (base.get tag).or ((build version steps).get tag)) ∧
    (∀ other inner rest, build version (steps ++ .extend (build other inner) :: rest) =
      build version (steps ++ inner ++ rest)) ∧
    (∀ a b rest, (∀ tag, a.mention? tag = none ∨ b.mention? tag = none) →
      build version (steps ++ a :: b :: rest) = build version (steps ++ b :: a :: rest)) ∧
    ∀ s : Registry, (build version steps).same s = true ↔
      s.version = version ∧ ∀ tag, s.get tag = (mentions steps tag).getLast? := by
  refine ⟨lastWritesOf (builtVersion version steps) (getBuild version steps), ?_, ?_, ?_, builtSame version steps⟩
  · intro base tag
    rw [buildAppend, List.foldl_cons, List.foldl_nil, getApply, Step.mention?]
  · intro other inner rest
    rw [buildAppend, List.foldl_cons, extendInlined, buildAppend, buildAppend]
  · intro a b rest apart
    simp only [buildAppend, List.foldl_cons, stepsCommute apart]

/- The tables below a base are copied with it, and a step about another tag may come before or after. -/
theorem nestedBasesMentioned :
    let paths := build 8 [.slot (.mark .line) "paths", .slot (.encode .field) "channels"]
    let base := build 9 [.slot (.mark .line) "lines", .extend paths]
    let own : Step := .slot (.mark .rect) "boxes"
    let steps := [.slot (.mark .line) "marks", .extend base]
    (∀ tag, own.mention? tag = none ∨ (Step.extend base).mention? tag = none) ∧
    build 7 (steps ++ [own, .extend base]) = build 7 (steps ++ [.extend base, own]) ∧
    LastWrites 7 steps (build 7 steps) ∧ (build 7 steps).get (.mark .line) = some "paths" ∧
    (build 7 steps).size = 2 := by
  intro paths base own steps
  have apart : ∀ tag, own.mention? tag = none ∨ (Step.extend base).mention? tag = none := by
    intro tag
    by_cases boxed : tag = .mark .rect
    · subst boxed
      exact .inr rfl
    · exact .inl (if_neg boxed)
  obtain ⟨writes, _, _, commute, _⟩ := lastMentionsDecide 7 steps
  have last : (mentions steps (.mark .line)).getLast? = some "paths" := by decide +kernel
  have two : (build 7 steps).size = 2 := by decide +kernel
  exact ⟨apart, commute own (.extend base) [] apart, writes, (writes.get (.mark .line)).trans last, two⟩

end ChartTree.Registry
