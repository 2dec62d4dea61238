import ChartTree.Proofs.Chart.Session
import ChartTree.Proofs.Compile.TopLevel
import Mathlib.Data.List.DropRight

/-! What an engine shows against what its root stores. The stored declarations are the last accepted ones,
and the last specification of a mounted engine is the one that would be compiled now. -/
namespace ChartTree.Chart

def EngineCall.spec? : EngineCall → Option Value
  | .options spec => some spec
  | _ => none

def specsIn (events : List Event) : List Value := (engineCalls events).filterMap EngineCall.spec?

@[simp] theorem specsInAppend (front back : List Event) :
    specsIn (front ++ back) = specsIn front ++ specsIn back := by
  simp [specsIn]

theorem refusedSpecs (refusals : List (Container × SurfaceError)) :
    (refusedCreates refusals).filterMap EngineCall.spec? = [] := by
  simp [refusedCreates, EngineCall.spec?]

theorem pushedSpecs (specs : List Value) : (pushCalls specs).filterMap EngineCall.spec? = specs := by
  induction specs with
  | nil => rfl
  | cons spec rest ih => exact congrArg (spec :: ·) ih

theorem refusedDrawing (refusals : List (Container × SurfaceError)) (d : Option Drawing) :
    (refusedCreates refusals).foldl Drawing.after d = d := by
  induction refusals with
  | nil => rfl
  | cons refusal rest ih => exact ih

theorem pushedDrawing (specs : List Value) (d : Drawing) :
    (pushCalls specs).foldl Drawing.after (some d) =
      some ⟨specs.getLast?.or d.spec, d.renders + specs.length⟩ := by
  induction specs generalizing d with
  | nil => rfl
  | cons spec rest ih =>
    have later := ih ⟨some spec, d.renders + 1⟩
    rw [List.length_cons, Nat.add_comm rest.length, ← Nat.add_assoc, List.getLast?_cons]
    refine later.trans ?_
    cases rest.getLast? <;> rfl

/- An engine has drawn each specification of its root once, and the last one is what it shows. -/
theorem drawnSoFar {phase : Phase} {calls : List EngineCall} (soFar : SoFar phase calls) :
    calls.foldl Drawing.after none =
      if phase = .mounted then
        some ⟨(calls.filterMap EngineCall.spec?).getLast?, (calls.filterMap EngineCall.spec?).length⟩
      else none := by
  cases soFar with
  | unmounted refusals => exact refusedDrawing refusals none
  | mounted refusals container specs =>
    rw [List.foldl_append, refusedDrawing, List.foldl_cons, List.filterMap_append, refusedSpecs,
      List.nil_append, List.filterMap_cons_none rfl, pushedSpecs, if_pos rfl]
    refine (pushedDrawing specs ⟨none, 0⟩).trans ?_
    rw [Option.or_none, Nat.zero_add]
  | destroyed refusals container specs =>
    rw [List.foldl_append, refusedDrawing, List.foldl_cons, List.foldl_append]
    rfl

def acceptedTopLevel? : Operation × Outcome Reply → Option (List Node)
  | (.setChildren topLevel, ⟨_, .ok _, _⟩) => some topLevel
  | _ => none

def acceptedOptions? : Operation × Outcome Reply → Option Options
  | (.setOptions options, ⟨_, .ok _, _⟩) => some options
  | _ => none

def RegistryKept (steps : List (Operation × Outcome Reply)) : Prop :=
  ∀ registry outcome, (.setRegistry registry, outcome) ∉ steps

namespace Root

def sincePush (r : Root) (ops : List Operation) : List (Operation × Outcome Reply) :=
  (r.history ops).rtakeWhile fun step => (specsIn step.2.events).isEmpty

def UpToDate (r : Root) (specs : List Value) : Prop :=
  ∃ compiled, r.registry.compileRoot r.topLevel = some compiled ∧
    specs.getLast? = some (.object (compiled.layeredOver r.options.rootAttributes)) ∧
    (r.step .compile).result = .ok (.spec specs.getLast?)

theorem stepTopLevel (r : Root) (op : Operation) :
    (r.step op).root.topLevel = (acceptedTopLevel? (op, r.step op)).getD r.topLevel := by
  have effect := r.stepEffect op
  generalize r.step op = out at effect
  cases effect with
  | refused engine hooks own => cases op <;> rfl
  | _ => rfl

theorem stepOptions (r : Root) (op : Operation) :
    (r.step op).root.options = (acceptedOptions? (op, r.step op)).getD r.options := by
  have effect := r.stepEffect op
  generalize r.step op = out at effect
  cases effect with
  | refused engine hooks own => cases op <;> rfl
  | _ => rfl

theorem stepRegistry (r : Root) (op : Operation) (kept : ∀ registry, op ≠ .setRegistry registry) :
    (r.step op).root.registry = r.registry := by
  have effect := r.stepEffect op
  generalize r.step op = out at effect
  cases effect with
  | @registered registry => exact absurd rfl (kept registry)
  | _ => rfl

theorem storedIsLast {α : Type} (field : Root → α) (accepted? : Operation × Outcome Reply → Option α)
    (step : ∀ r op, field (r.step op).root = (accepted? (op, r.step op)).getD (field r))
    (r : Root) (ops : List Operation) :
    field (r.final ops) = ((r.history ops).filterMap accepted?).getLast?.getD (field r) := by
  induction ops using List.reverseRecOn with
  | nil => rfl
  | append_singleton ops op ih =>
    rw [finalSnoc, historySnoc, step, ih, List.filterMap_append, List.getLast?_append]
    cases accepted : accepted? (op, (r.final ops).step op) <;> simp [accepted]

theorem finalRegistry (r : Root) (ops : List Operation) (kept : ∀ registry, .setRegistry registry ∉ ops) :
    (r.final ops).registry = r.registry := by
  induction ops using List.reverseRecOn with
  | nil => rfl
  | append_singleton ops op ih =>
    have same := ih fun registry inside => kept registry (List.mem_append_left _ inside)
    rw [finalSnoc, stepRegistry _ _ fun registry is => kept registry (by simp [is]), same]

theorem mergedSpecNone (r : Root) : r.mergedSpec? = none ↔ r.topLevel = [] := by
  rw [mergedSpec?, Option.map_eq_none_iff, Registry.compileRootNone]

theorem pushSpecs (r : Root) : specsIn r.push.2 = r.pushed?.toList := by
  rw [specsIn, pushEngineCalls, pushedSpecs]

/- A step hands over what its root compiles afterwards, or leaves all that is compiled as it was, the
registry apart, or ends where there is nothing to draw. -/
inductive Drawn (r : Root) (op : Operation) (out : Outcome Reply) : Prop where
  | pushed (spec : Value) (only : specsIn out.events = [spec]) (current : out.root.mergedSpec? = some spec)
  | kept (silent : specsIn out.events = []) (phase : out.root.phase = r.phase)
      (topLevel : out.root.topLevel = r.topLevel)
      (same : (∀ registry, op ≠ .setRegistry registry) → out.root.mergedSpec? = r.mergedSpec?)
  | idle (silent : specsIn out.events = []) (empty : out.root.phase = .mounted → out.root.topLevel = [])

theorem pushDrawn (r : Root) (op : Operation) (out : Outcome Reply)
    (events : specsIn out.events = specsIn out.root.push.2) : r.Drawn op out := by
  rw [pushSpecs, pushed?] at events
  by_cases mounted : out.root.phase = .mounted
  · rw [if_pos mounted] at events
    cases compiled : out.root.mergedSpec? with
    | some spec => exact .pushed spec (by simpa [compiled] using events) compiled
    | none => exact .idle (by simpa [compiled] using events) fun _ => (mergedSpecNone out.root).mp compiled
  · exact .idle (by simpa [mounted] using events) fun shown => absurd shown mounted

theorem stepDrawn (r : Root) (op : Operation) : r.Drawn op (r.step op) := by
  have effect := r.stepEffect op
  generalize r.step op = out at effect
  cases effect with
  | refused engine hooks own => exact .kept (by simp [specsIn, engine]) rfl rfl fun _ => rfl
  | declined phase valid => exact .kept rfl rfl rfl fun _ => rfl
  | mounted phase valid => exact pushDrawn r _ _ rfl
  | declared phase => exact pushDrawn r _ _ rfl
  | configured phase valid => exact pushDrawn r _ _ rfl
  | refreshed phase => exact pushDrawn r _ _ rfl
  | compiled phase => exact .kept (by simp [specsIn]) rfl rfl fun _ => rfl
  | dispatched phase => exact .kept (by simp [specsIn]) rfl rfl fun _ => rfl
  | hooked => exact .kept rfl rfl rfl fun _ => rfl
  | @registered registry => exact .kept rfl rfl rfl fun kept => absurd rfl (kept registry)
  | unmounted phase => exact .idle rfl fun mounted => by cases mounted

theorem sincePushSnoc (r : Root) (ops : List Operation) (op : Operation) :
    r.sincePush (ops ++ [op]) =
      if specsIn ((r.final ops).step op).events = [] then
        r.sincePush ops ++ [(op, (r.final ops).step op)]
      else [] := by
  simp only [sincePush, historySnoc, List.rtakeWhile_concat, List.isEmpty_iff]

theorem runDrawn (options : Options) (ops : List Operation)
    (mounted : ((Root.ofOptions options).final ops).phase = .mounted)
    (shown : ((Root.ofOptions options).final ops).topLevel ≠ []) :
    specsIn ((Root.ofOptions options).eventsOf ops) ≠ [] ∧
    (RegistryKept ((Root.ofOptions options).sincePush ops) →
      (specsIn ((Root.ofOptions options).eventsOf ops)).getLast? =
        ((Root.ofOptions options).final ops).mergedSpec?) := by
  induction ops using List.reverseRecOn with
  | nil => cases mounted
  | append_singleton ops op ih =>
    rw [finalSnoc] at mounted shown ⊢
    rw [eventsSnoc, specsInAppend, sincePushSnoc]
    cases ((Root.ofOptions options).final ops).stepDrawn op with
    | pushed spec only current => simp [only, current]
    | kept silent phase topLevel same =>
      obtain ⟨given, last⟩ := ih (phase ▸ mounted) (topLevel ▸ shown)
      rw [silent, List.append_nil, if_pos rfl]
      refine ⟨given, fun kept => ?_⟩
      have before := last fun registry outcome inside => kept registry outcome (List.mem_append_left _ inside)
      have unchanged := same fun registry is => by
        subst is
        exact kept registry _ (List.mem_append_right _ (List.mem_singleton_self _))
      exact before.trans unchanged.symm
    | idle silent empty => exact absurd (empty mounted) shown

theorem sincePushKept (r : Root) (ops : List Operation) (kept : ∀ registry, .setRegistry registry ∉ ops) :
    RegistryKept (r.sincePush ops) := by
  intro registry outcome inside
  have early := (List.rtakeWhile_suffix _ _).mem inside
  exact kept registry (List.of_mem_zip early).1

theorem mergedUpToDate (r : Root) (specs : List Value) (alive : r.phase = .mounted)
    (shown : r.topLevel ≠ []) (last : specs.getLast? = r.mergedSpec?) : r.UpToDate specs := by
  cases compiled : r.registry.compileRoot r.topLevel with
  | none => exact absurd ((r.registry.compileRootNone r.topLevel).mp compiled) shown
  | some spec =>
    refine ⟨spec, compiled, ?_, ?_⟩
    · rw [last, mergedSpec?, compiled, Option.map_some]
    · rw [step, compile, alive, last]
      rfl

theorem runDrawing (options : Options) (ops : List Operation) :
    let root := Root.ofOptions options
    let specs := specsIn (root.eventsOf ops)
    Drawing.through none (root.eventsOf ops) =
      if (root.final ops).phase = .mounted then some ⟨specs.getLast?, specs.length⟩ else none :=
  drawnSoFar (runSoFar options ops)

theorem drawingCurrent (options : Options) (ops : List Operation)
    (mounted : ((Root.ofOptions options).final ops).phase = .mounted)
    (shown : ((Root.ofOptions options).final ops).topLevel ≠ [])
    (kept : RegistryKept ((Root.ofOptions options).sincePush ops)) :
    (Drawing.through none ((Root.ofOptions options).eventsOf ops)).bind Drawing.spec =
      ((Root.ofOptions options).final ops).mergedSpec? := by
  rw [runDrawing, if_pos mounted]
  exact (runDrawn options ops mounted shown).2 kept

theorem engineUpToDate (options : Options) (ops : List Operation) :
    let root := Root.ofOptions options
    let now := root.final ops
    let specs := specsIn (root.eventsOf ops)
    now.topLevel = ((root.history ops).filterMap acceptedTopLevel?).getLast?.getD [] ∧
    now.options = ((root.history ops).filterMap acceptedOptions?).getLast?.getD options ∧
    (now.phase = .mounted → now.topLevel ≠ [] →
      specs ≠ [] ∧ (RegistryKept (root.sincePush ops) → now.UpToDate specs)) ∧
    ∀ otherOptions otherOps,
      let other := (Root.ofOptions otherOptions).final otherOps
      (∀ registry, .setRegistry registry ∉ ops) → (∀ registry, .setRegistry registry ∉ otherOps) →
      now.phase = .mounted → other.phase = .mounted →
      other.options = now.options → other.topLevel = now.topLevel → now.topLevel ≠ [] →
      (specsIn ((Root.ofOptions otherOptions).eventsOf otherOps)).getLast? = specs.getLast? := by
  intro root now specs
  refine ⟨root.storedIsLast Root.topLevel _ stepTopLevel ops, ?_, ?_, ?_⟩
  · exact root.storedIsLast Root.options _ stepOptions ops
  · intro mounted shown
    obtain ⟨given, last⟩ := runDrawn options ops mounted shown
    exact ⟨given, fun kept => mergedUpToDate now specs mounted shown (last kept)⟩
  · intro otherOptions otherOps other kept otherKept mounted otherMounted sameOptions sameTopLevel shown
    have here := (runDrawn options ops mounted shown).2 (sincePushKept root ops kept)
    have there := (runDrawn otherOptions otherOps otherMounted (sameTopLevel ▸ shown)).2
      (sincePushKept _ otherOps otherKept)
    have registry := finalRegistry root ops kept
    have otherRegistry := finalRegistry (Root.ofOptions otherOptions) otherOps otherKept
    have same : other.mergedSpec? = now.mergedSpec? := by
      rw [mergedSpec?, mergedSpec?, sameOptions, sameTopLevel, registry, otherRegistry]
      rfl
    exact there.trans (same.trans here.symm)

/- The registry is set before the last push, and the second surface refuses once. -/
theorem redeclaredLineUpToDate :
    let line : Node := .ofTag (.mark .line)
    let root := Root.ofOptions .default
    let ops := [.setRegistry (.empty 2), .mount none, .setChildren [line]]
    let early := [.setChildren [line], .mount none]
    let late := [.mount (some .unavailable), .mount none, .setChildren [], .setChildren [line]]
    (root.final ops).phase = .mounted ∧ (root.final ops).topLevel ≠ [] ∧ RegistryKept (root.sincePush ops) ∧
    (root.final ops).UpToDate (specsIn (root.eventsOf ops)) ∧
    (∀ registry, .setRegistry registry ∉ early) ∧ (∀ registry, .setRegistry registry ∉ late) ∧
    (root.final early).phase = .mounted ∧ (root.final late).phase = .mounted ∧
    (root.final late).options = (root.final early).options ∧
    (root.final late).topLevel = (root.final early).topLevel ∧ (root.final early).topLevel ≠ [] ∧
    (specsIn (root.eventsOf late)).getLast? = (specsIn (root.eventsOf early)).getLast? := by
  intro line root ops early late
  have mounted : (root.final ops).phase = .mounted := by decide
  have kept : RegistryKept (root.sincePush ops) := by
    have pushedLast : root.sincePush ops = [] := List.isEmpty_iff.mp (by decide)
    rw [pushedLast]
    exact fun registry outcome => List.not_mem_nil
  have shown : (root.final ops).topLevel ≠ [] := nofun
  have upToDate := ((engineUpToDate .default ops).2.2.1 mounted shown).2 kept
  have earlyKept : ∀ registry, .setRegistry registry ∉ early := by simp [early]
  have lateKept : ∀ registry, .setRegistry registry ∉ late := by simp [late]
  have earlyMounted : (root.final early).phase = .mounted := by decide
  have lateMounted : (root.final late).phase = .mounted := by decide
  have same := (engineUpToDate .default early).2.2.2 .default late earlyKept lateKept earlyMounted lateMounted
    rfl rfl nofun
  exact ⟨mounted, shown, kept, upToDate, earlyKept, lateKept, earlyMounted, lateMounted, rfl, rfl, nofun, same⟩

end Root
end ChartTree.Chart
