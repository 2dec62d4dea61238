import ChartTree.Proofs.Chart.Effect
import Mathlib.Data.List.Induction

/-! The order of calls to surfaces and engines. A root asks surfaces until one gives an engine, draws with
that engine only, and releases it once. What an embedder does with the engine on its own is not counted. -/
namespace ChartTree.Chart

def refusedCreates (refusals : List (Container × SurfaceError)) : List EngineCall :=
  refusals.map fun refusal => .create refusal.1 (some refusal.2)

inductive SoFar : Phase → List EngineCall → Prop where
  | unmounted (refusals : List (Container × SurfaceError)) : SoFar .unmounted (refusedCreates refusals)
  | mounted (refusals : List (Container × SurfaceError)) (container : Container) (specs : List Value) :
      SoFar .mounted (refusedCreates refusals ++ .create container none :: pushCalls specs)
  | destroyed (refusals : List (Container × SurfaceError)) (container : Container) (specs : List Value) :
      SoFar .destroyed (refusedCreates refusals ++ .create container none :: (pushCalls specs ++ [.destroy]))

def Session (calls : List EngineCall) : Prop := SoFar .unmounted calls ∨ SoFar .destroyed calls

namespace Root

theorem pushSoFar {r : Root} {calls : List EngineCall} (before : SoFar r.phase calls) :
    SoFar r.phase (calls ++ engineCalls r.push.2) := by
  rw [pushEngineCalls, pushed?]
  split
  · rename_i mounted
    rw [mounted] at before ⊢
    cases before with
    | mounted refusals container specs =>
      have calls := SoFar.mounted refusals container (specs ++ r.mergedSpec?.toList)
      simpa only [pushCallsAppend, List.append_assoc, List.cons_append] using calls
  · simpa [pushCalls] using before

theorem stepSoFar {r : Root} {calls : List EngineCall} (before : SoFar r.phase calls) (op : Operation) :
    SoFar (r.step op).root.phase (calls ++ engineCalls (r.step op).events) := by
  have effect := r.stepEffect op
  generalize r.step op = out at effect
  cases effect with
  | refused engine hooks own => simpa [engine] using before
  | @declined container cause phase valid =>
    rw [phase] at before ⊢
    cases before with
    | unmounted refusals =>
      have calls := SoFar.unmounted (refusals ++ [(container, cause)])
      simpa [refusedCreates] using calls
  | @mounted container phase valid =>
    rw [phase] at before
    cases before with
    | unmounted refusals =>
      have fresh : SoFar .mounted (refusedCreates refusals ++ [.create container none]) :=
        .mounted refusals container []
      have calls := pushSoFar (r := { r with phase := .mounted }) fresh
      simpa using calls
  | declared phase => exact pushSoFar (r := { r with topLevel := _ }) before
  | configured phase valid => exact pushSoFar (r := { r with options := _ }) before
  | refreshed phase => exact pushSoFar before
  | compiled phase => simpa using before
  | dispatched phase => simpa using before
  | hooked => simpa [withHooks] using before
  | registered => simpa [withRegistry] using before
  | unmounted phase =>
    rw [phase] at before
    cases before with
    | mounted refusals container specs =>
      have calls := SoFar.destroyed refusals container specs
      simpa using calls

theorem runSoFar (options : Options) (ops : List Operation) :
    SoFar ((Root.ofOptions options).final ops).phase (engineCalls ((Root.ofOptions options).eventsOf ops)) := by
  induction ops using List.reverseRecOn with
  | nil => exact .unmounted []
  | append_singleton ops op ih =>
    rw [finalSnoc, eventsSnoc, engineCallsAppend]
    exact stepSoFar ih op

theorem dropSession {r : Root} {calls : List EngineCall} (before : SoFar r.phase calls) :
    Session (calls ++ engineCalls r.drop) := by
  unfold drop
  split
  · rename_i mounted
    rw [mounted] at before
    cases before with
    | mounted refusals container specs =>
      have calls := SoFar.destroyed refusals container specs
      exact .inr (by simpa using calls)
  · rename_i other
    cases phase : r.phase with
    | unmounted => exact .inl (by simpa [phase] using before)
    | mounted => exact absurd phase other
    | destroyed => exact .inr (by simpa [phase] using before)

theorem pushKeepsEngine (r : Root) : .destroy ∉ engineCalls r.push.2 := by
  simp [pushEngineCalls, pushCalls]

theorem stepDestroys (r : Root) (op : Operation) :
    .destroy ∈ engineCalls (r.step op).events ↔ op = .unmount ∧ (r.step op).result = .ok .done := by
  have effect := r.stepEffect op
  generalize r.step op = out at effect
  cases effect with
  | refused engine hooks own => simp [engine]
  | declined phase valid => simp
  | mounted phase valid => simpa using pushKeepsEngine _
  | declared phase => simpa using pushKeepsEngine _
  | configured phase valid => simpa using pushKeepsEngine _
  | refreshed phase => simpa using pushKeepsEngine _
  | compiled phase => simp
  | dispatched phase => simp
  | hooked => simp
  | registered => simp
  | unmounted phase => simp

theorem runDestroys (r : Root) (ops : List Operation) :
    .destroy ∈ engineCalls (r.eventsOf ops) ↔
      ∃ outcome, (.unmount, outcome) ∈ r.history ops ∧ outcome.result = .ok .done := by
  induction ops using List.reverseRecOn with
  | nil => simp [eventsOf, run, history]
  | append_singleton ops op ih =>
    rw [eventsSnoc, engineCallsAppend, List.mem_append, ih, stepDestroys, historySnoc]
    constructor
    · intro called
      rcases called with ⟨outcome, inside, done⟩ | ⟨rfl, done⟩
      · exact ⟨outcome, List.mem_append_left _ inside, done⟩
      · exact ⟨_, by simp, done⟩
    · intro called
      obtain ⟨outcome, inside, done⟩ := called
      rcases List.mem_append.mp inside with early | last
      · exact .inl ⟨outcome, early, done⟩
      · cases List.mem_singleton.mp last
        exact .inr ⟨rfl, done⟩

/- The calls after some operations begin the calls of the whole run, and no engine is released before an
unmount goes through; after the last operation only the end of the root can release one. -/
theorem engineSession (options : Options) (done rest : List Operation) :
    let root := Root.ofOptions options
    let calls := engineCalls (root.eventsOf done)
    let all := engineCalls (root.allEvents (done ++ rest))
    Session all ∧ calls <+: all ∧
      (.destroy ∈ calls ↔
        ∃ outcome, (.unmount, outcome) ∈ root.history done ∧ outcome.result = .ok .done) := by
  intro root calls all
  have split : all = engineCalls (root.eventsOf (done ++ rest)) ++
      engineCalls (root.final (done ++ rest)).drop := engineCallsAppend ..
  refine ⟨?_, ?_, root.runDestroys done⟩
  · rw [split]
    exact dropSession (runSoFar options (done ++ rest))
  · rw [split, eventsAppend, engineCallsAppend, List.append_assoc]
    exact List.prefix_append ..

end Root
end ChartTree.Chart
