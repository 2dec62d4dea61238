import ChartTree.Proofs.Chart.Freshness
import ChartTree.Proofs.Chart.Size

/-! What is in the specifications that a root shows. Each entry is that of the compiled tree, or else the
size, or else an engine option; a mounted root has a size that can be drawn, whatever it was made with. -/
namespace ChartTree.Chart

theorem Options.getRootAttributes (o : Options) (key : String) :
    o.rootAttributes.get? key =
      if key = "width" then some (.number o.width)
      else if key = "height" then some (.number o.height)
      else o.engineOptions.get? key := by
  rw [Options.rootAttributes, Entries.getInsert, Entries.getInsert]
  by_cases wide : key = "width"
  · subst wide
    rfl
  · rw [if_neg wide, if_neg wide]

inductive Shown (out : Outcome Reply) (v : Value) : Prop where
  | drawn (call : .options v ∈ engineCalls out.events)
  | hooked (hook : String) (call : .before hook v ∈ hookCalls out.events)
  | returned (reply : out.result = .ok (.spec (some v)))

namespace Root

structure Layered (r : Root) (v : Value) : Prop where
  object : ∃ entries, v = .object entries
  type : v.get? "type" = some (.string (Registry.rootVariant r.topLevel))
  entry : ∃ spec, r.registry.compileRoot r.topLevel = some spec ∧ ∀ key,
    v.get? key = (spec.get? key).or
      (if key = "width" then some (.number r.options.width)
      else if key = "height" then some (.number r.options.height)
      else r.options.engineOptions.get? key)
  width : (v.get? "width").isSome
  height : (v.get? "height").isSome

theorem mergedLayered {r : Root} {v : Value} (merged : r.mergedSpec? = some v) : r.Layered v := by
  obtain ⟨spec, compiled, rfl⟩ := Option.map_eq_some_iff.mp merged
  have entry : ∀ key, (Value.object (spec.layeredOver r.options.rootAttributes)).get? key = _ := fun key =>
    (spec.getLayered r.options.rootAttributes key).trans
      (congrArg (spec.get? key).or (r.options.getRootAttributes key))
  refine ⟨⟨_, rfl⟩, ?_, ⟨spec, compiled, entry⟩, ?_, ?_⟩
  · rw [entry, ← typeKey, Registry.compileRootType compiled, Option.some_or]
  · rw [entry, Option.isSome_or]
    simp
  · rw [entry, Option.isSome_or]
    simp

/- A step that shows a specification to the engine or to a hook ends with the push of its root. -/
theorem stepShows (r : Root) (op : Operation) :
    (∃ front, (r.step op).events = front ++ (r.step op).root.push.2 ∧
      specsIn front = [] ∧ hookCalls front = []) ∨
    (specsIn (r.step op).events = [] ∧ ∀ hook spec, .before hook spec ∉ hookCalls (r.step op).events) := by
  have effect := r.stepEffect op
  generalize r.step op = out at effect
  cases effect with
  | refused engine hooks own => exact .inr ⟨by simp [specsIn, engine], by simp [hooks]⟩
  | declined phase valid => exact .inr ⟨rfl, by simp⟩
  | mounted phase valid => exact .inl ⟨_, rfl, rfl, rfl⟩
  | declared phase => exact .inl ⟨[], rfl, rfl, rfl⟩
  | configured phase valid => exact .inl ⟨[], rfl, rfl, rfl⟩
  | refreshed phase => exact .inl ⟨[], rfl, rfl, rfl⟩
  | compiled phase => exact .inr ⟨by simp [specsIn], by simp⟩
  | dispatched phase => exact .inr ⟨by simp [specsIn], by simp⟩
  | hooked => exact .inr ⟨rfl, by simp⟩
  | registered => exact .inr ⟨rfl, by simp⟩
  | unmounted phase => exact .inr ⟨rfl, by simp⟩

theorem specCalled {events : List Event} {v : Value} :
    v ∈ specsIn events ↔ .options v ∈ engineCalls events := by
  rw [specsIn, List.mem_filterMap]
  constructor
  · intro called
    obtain ⟨call, inside, spec⟩ := called
    cases call <;> cases spec
    exact inside
  · intro called
    exact ⟨_, called, rfl⟩

theorem drawnPushed {r : Root} {op : Operation} {v : Value}
    (call : .options v ∈ engineCalls (r.step op).events) : (r.step op).root.pushed? = some v := by
  have drawn := specCalled.mpr call
  rcases r.stepShows op with ⟨front, events, silent, _⟩ | ⟨silent, _⟩
  · rw [events, specsInAppend, silent, List.nil_append, pushSpecs] at drawn
    exact Option.mem_toList.mp drawn
  · rw [silent] at drawn
    cases drawn

theorem hookedPushed {r : Root} {op : Operation} {hook : String} {v : Value}
    (call : .before hook v ∈ hookCalls (r.step op).events) : (r.step op).root.pushed? = some v := by
  rcases r.stepShows op with ⟨front, events, _, silent⟩ | ⟨_, silent⟩
  · rw [events, hookCallsAppend, silent, List.nil_append, pushHookCalls, List.mem_flatMap] at call
    obtain ⟨spec, pushed, called⟩ := call
    rcases List.mem_append.mp called with first | last
    · obtain ⟨name, _, same⟩ := Option.map_eq_some_iff.mp (Option.mem_toList.mp first)
      cases same
      exact Option.mem_toList.mp pushed
    · obtain ⟨name, _, same⟩ := Option.map_eq_some_iff.mp (Option.mem_toList.mp last)
      cases same
  · exact absurd call (silent hook v)

theorem returnedMerged {r : Root} {op : Operation} {v : Value}
    (reply : (r.step op).result = .ok (.spec (some v))) : (r.step op).root.mergedSpec? = some v := by
  have effect := r.stepEffect op
  generalize r.step op = out at effect reply
  cases effect with
  | compiled phase =>
    injection reply with reply
    injection reply
  | _ => cases reply

theorem shownLayered {r : Root} {op : Operation} {v : Value} (shown : Shown (r.step op) v) :
    (r.step op).root.Layered v := by
  cases shown with
  | drawn call => exact mergedLayered (pushedSome.mp (drawnPushed call)).2
  | hooked hook call => exact mergedLayered (pushedSome.mp (hookedPushed call)).2
  | returned reply => exact mergedLayered (returnedMerged reply)

/- A size gets in unchecked only before the mount, which checks it. -/
def Sized (r : Root) : Prop := r.phase = .mounted → r.options.width.Drawable ∧ r.options.height.Drawable

theorem stepSized {r : Root} (before : r.Sized) (op : Operation) : (r.step op).root.Sized := by
  have effect := r.stepEffect op
  generalize r.step op = out at effect
  cases effect with
  | mounted phase valid => exact fun _ => Options.containerDrawable valid
  | configured phase valid => exact fun _ => Options.sizeDrawable valid
  | unmounted phase => exact fun mounted => by cases mounted
  | _ => exact before

theorem runSized (options : Options) (ops : List Operation) : ((Root.ofOptions options).final ops).Sized := by
  induction ops using List.reverseRecOn with
  | nil => exact fun mounted => by cases mounted
  | append_singleton ops op ih =>
    rw [finalSnoc]
    exact stepSized ih op

theorem layeredSize {r : Root} {v : Value} {spec : Spec} (layered : r.Layered v)
    (compiled : r.registry.compileRoot r.topLevel = some spec) :
    (spec.get? "width" = none → v.get? "width" = some (.number r.options.width)) ∧
    (spec.get? "height" = none → v.get? "height" = some (.number r.options.height)) := by
  obtain ⟨own, same, entry⟩ := layered.entry
  cases compiled.symm.trans same
  constructor
  · intro absent
    rw [entry, absent]
    rfl
  · intro absent
    rw [entry, absent]
    rfl

theorem shownSpecsLayered (options : Options) (ops : List Operation) (op : Operation) :
    let now := (Root.ofOptions options).final ops
    let out := now.step op
    (∀ v, Shown out v → out.root.Layered v) ∧
    (now.phase = .mounted → now.options.width.Drawable ∧ now.options.height.Drawable) ∧
    ∀ v spec, .options v ∈ engineCalls out.events →
      out.root.registry.compileRoot out.root.topLevel = some spec →
      (spec.get? "width" = none → ∃ width, v.get? "width" = some (.number width) ∧ width.Drawable) ∧
      (spec.get? "height" = none → ∃ height, v.get? "height" = some (.number height) ∧ height.Drawable) := by
  intro now out
  have sized : now.Sized := runSized options ops
  refine ⟨fun v => shownLayered, sized, fun v spec call compiled => ?_⟩
  obtain ⟨mounted, merged⟩ := pushedSome.mp (drawnPushed call)
  obtain ⟨wide, high⟩ := layeredSize (mergedLayered merged) compiled
  obtain ⟨drawableWidth, drawableHeight⟩ := stepSized sized op mounted
  exact ⟨fun absent => ⟨_, wide absent, drawableWidth⟩, fun absent => ⟨_, high absent, drawableHeight⟩⟩

theorem mountedAfterInvalidSize :
    let options := Options.default.withSize (.infinite true) .nan
    let ops := [.setChildren [.ofTag (.mark .interval)], .setOptions .default, .mount none]
    let now := (Root.ofOptions options).final ops
    let out := now.step .refresh
    (now.phase = .mounted ∧ now.options.width.Drawable ∧ now.options.height.Drawable) ∧
    ∃ v spec, .options v ∈ engineCalls out.events ∧ Shown out v ∧ out.root.Layered v ∧
      out.root.registry.compileRoot out.root.topLevel = some spec ∧ spec.get? "width" = none ∧
      ∃ width, v.get? "width" = some (.number width) ∧ width.Drawable := by
  intro options ops now out
  obtain ⟨layered, stored, sized⟩ := shownSpecsLayered options ops .refresh
  obtain ⟨v, calls⟩ : ∃ v, engineCalls out.events = [.options v, .render] := ⟨_, rfl⟩
  have call : .options v ∈ engineCalls out.events := by simp [calls]
  let spec := Registry.standard.compile (Registry.implicitView [.ofTag (.mark .interval)])
  have compiled : out.root.registry.compileRoot out.root.topLevel = some spec := rfl
  have absent : spec.get? "width" = none := by decide
  exact ⟨⟨rfl, stored rfl⟩, v, spec, call, .drawn call, layered v (.drawn call), compiled, absent,
    (sized v spec call compiled).1 absent⟩

end Root
end ChartTree.Chart
