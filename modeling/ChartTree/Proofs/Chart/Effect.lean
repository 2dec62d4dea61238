import ChartTree.Chart.Run
import ChartTree.Proofs.Chart.Size

/-! What an operation of a chart root can do, said once for all operations, and how runs are put together.
Invariants of runs are drawn from the effects and never from the operations themselves. Hooks that are set
on a root and hooks that come with it are set by the same operation. -/
namespace ChartTree.Chart

section
variable (front back rest : List Event)

@[simp] theorem engineCallsNil : engineCalls [] = [] := rfl

@[simp] theorem engineCallsEngine (call : EngineCall) :
    engineCalls (.engine call :: rest) = call :: engineCalls rest := rfl

@[simp] theorem engineCallsHook (call : HookCall) : engineCalls (.hook call :: rest) = engineCalls rest := rfl

@[simp] theorem engineCallsLog (report : Report) : engineCalls (.log report :: rest) = engineCalls rest := rfl

@[simp] theorem engineCallsAppend : engineCalls (front ++ back) = engineCalls front ++ engineCalls back :=
  List.filterMap_append ..

@[simp] theorem hookCallsNil : hookCalls [] = [] := rfl

@[simp] theorem hookCallsEngine (call : EngineCall) : hookCalls (.engine call :: rest) = hookCalls rest := rfl

@[simp] theorem hookCallsHook (call : HookCall) : hookCalls (.hook call :: rest) = call :: hookCalls rest := rfl

@[simp] theorem hookCallsLog (report : Report) : hookCalls (.log report :: rest) = hookCalls rest := rfl

@[simp] theorem hookCallsAppend : hookCalls (front ++ back) = hookCalls front ++ hookCalls back :=
  List.filterMap_append ..

end

theorem logsOnly {events : List Event} {event : Event} (engine : engineCalls events = [])
    (hooks : hookCalls events = []) (inside : event ∈ events) : ∃ report, event = .log report := by
  simp only [engineCalls, hookCalls, List.filterMap_eq_nil_iff] at engine hooks
  have noEngine := engine event inside
  have noHook := hooks event inside
  cases event with
  | engine call => cases noEngine
  | hook call => cases noHook
  | log report => exact ⟨report, rfl⟩

def pushCalls (specs : List Value) : List EngineCall :=
  specs.flatMap fun spec => [.options spec, .render]

theorem pushCallsAppend (front back : List Value) :
    pushCalls (front ++ back) = pushCalls front ++ pushCalls back :=
  List.flatMap_append

namespace Root

def pushed? (r : Root) : Option Value := if r.phase = .mounted then r.mergedSpec? else none

@[simp] theorem reportsCallNoEngine (r : Root) : engineCalls r.compileReports = [] := by
  simp [engineCalls, compileReports, List.filterMap_map, Function.comp_def, Event.engine?]

@[simp] theorem hooksCallNoEngine (hook : Option String) (call : String → HookCall) :
    engineCalls (hookEvent hook call) = [] := by
  cases hook <;> rfl

@[simp] theorem reportsCallNoHook (r : Root) : hookCalls r.compileReports = [] := by
  simp [hookCalls, compileReports, List.filterMap_map, Function.comp_def, Event.hook?]

@[simp] theorem hookEventCalls (hook : Option String) (call : String → HookCall) :
    hookCalls (hookEvent hook call) = (hook.map call).toList := by
  cases hook <;> rfl

theorem pushedSome {r : Root} {v : Value} :
    r.pushed? = some v ↔ r.phase = .mounted ∧ r.mergedSpec? = some v := by
  unfold pushed?
  split <;> simp [*]

inductive Pushing (r : Root) : Bool × List Event → Prop where
  | shown {spec : Value} (pushed : r.pushed? = some spec) :
      Pushing r (true, r.compileReports ++ r.pushEvents spec)
  | skipped (phase : r.phase = .mounted) (nothing : r.mergedSpec? = none) :
      Pushing r (false, r.compileReports ++ [.log .nothingDeclared])
  | idle (phase : r.phase ≠ .mounted) : Pushing r (false, [])

theorem pushCases (r : Root) : r.Pushing r.push := by
  unfold push
  split
  · rename_i phase
    split
    · rename_i spec compiled
      exact .shown (pushedSome.mpr ⟨phase, compiled⟩)
    · rename_i nothing
      exact .skipped phase nothing
  · rename_i phase
    exact .idle phase

theorem pushEngineCalls (r : Root) : engineCalls r.push.2 = pushCalls r.pushed?.toList := by
  have pushing := r.pushCases
  generalize r.push = out at pushing
  cases pushing with
  | shown pushed => simp [pushed, pushEvents, pushCalls]
  | skipped phase nothing => simp [pushed?, phase, nothing, pushCalls]
  | idle phase => simp [pushed?, phase, pushCalls]

theorem pushHookCalls (r : Root) :
    hookCalls r.push.2 = r.pushed?.toList.flatMap fun spec =>
      (r.hooks.before.map (.before · spec)).toList ++ (r.hooks.after.map .after).toList := by
  have pushing := r.pushCases
  generalize r.push = out at pushing
  cases pushing with
  | shown pushed => simp [pushed, pushEvents]
  | skipped phase nothing => simp [pushed?, phase, nothing]
  | idle phase => simp [pushed?, phase]

/- A refusal has no effect but log lines; only a surface that was asked leaves a call behind. -/
inductive Effect (r : Root) : Operation → Outcome Reply → Prop where
  | refused {op e events} (engine : engineCalls events = []) (hooks : hookCalls events = [])
      (own : ∀ cause, e ≠ .surface cause) : Effect r op ⟨r, .error e, events⟩
  | declined {container cause} (phase : r.phase = .unmounted) (valid : r.options.container = .ok container) :
      Effect r (.mount (some cause)) ⟨r, .error (.surface cause),
        [.engine (.create container (some cause)), .log (.refused cause)]⟩
  | mounted {container} (phase : r.phase = .unmounted) (valid : r.options.container = .ok container) :
      Effect r (.mount none) ⟨{ r with phase := .mounted }, .ok .done,
        [.engine (.create container none), .log (.mounted container.width container.height)] ++
          (push { r with phase := .mounted }).2⟩
  | declared {topLevel} (phase : r.phase ≠ .destroyed) :
      Effect r (.setChildren topLevel) ⟨{ r with topLevel }, .ok .done, (push { r with topLevel }).2⟩
  | configured {options size} (phase : r.phase ≠ .destroyed) (valid : options.size = .ok size) :
      Effect r (.setOptions options) ⟨{ r with options }, .ok .done, (push { r with options }).2⟩
  | refreshed (phase : r.phase ≠ .destroyed) : Effect r .refresh ⟨r, .ok (.pushed r.push.1), r.push.2⟩
  | compiled (phase : r.phase ≠ .destroyed) : Effect r .compile ⟨r, .ok (.spec r.mergedSpec?), r.compileReports⟩
  | dispatched {what} (phase : r.phase = .mounted) :
      Effect r (.dispatch what) ⟨r, .ok .done,
        .log (.interaction what.event) :: hookEvent r.hooks.interaction (.interaction · what)⟩
  | hooked {hooks} : Effect r (.setHooks hooks) ⟨r.withHooks hooks, .ok .done, []⟩
  | registered {registry} : Effect r (.setRegistry registry) ⟨r.withRegistry registry, .ok .done, []⟩
  | unmounted (phase : r.phase = .mounted) :
      Effect r .unmount ⟨{ r with phase := .destroyed }, .ok .done, [.engine .destroy, .log .destroyed]⟩

theorem refusedDestroyed {α : Type} (r : Root) (op : Operation) (name : String) (f : α → Reply) :
    r.Effect op ((r.refuseDestroyed name : Outcome α).map f) :=
  .refused rfl rfl (by simp)

theorem sizeFault {width height : Number} {e : Error} (invalid : e = .invalidSize width height) :
    ∀ cause, e ≠ .surface cause := by
  intro cause same
  cases invalid.symm.trans same

theorem stepEffect (r : Root) (op : Operation) : r.Effect op (r.step op) := by
  cases op with
  | mount refusal =>
    rw [step, mount]
    split
    · exact .refused rfl rfl (by simp)
    · exact r.refusedDestroyed _ _ _
    · rename_i phase
      split
      · rename_i e invalid
        exact .refused rfl rfl (sizeFault (Options.containerRefused invalid))
      · rename_i container valid
        cases refusal with
        | none => exact .mounted phase valid
        | some cause => exact .declined phase valid
  | setChildren topLevel =>
    rw [step, setChildren]
    split
    · exact r.refusedDestroyed _ _ _
    · rename_i phase
      exact .declared phase
  | setOptions options =>
    rw [step, setOptions]
    split
    · exact r.refusedDestroyed _ _ _
    · rename_i phase
      split
      · rename_i e invalid
        exact .refused rfl rfl (sizeFault (Options.sizeRefused invalid))
      · rename_i size valid
        exact .configured phase valid
  | refresh =>
    rw [step, refresh]
    split
    · exact r.refusedDestroyed _ _ _
    · rename_i phase
      exact .refreshed phase
  | compile =>
    rw [step, compile]
    split
    · exact r.refusedDestroyed _ _ _
    · rename_i phase
      exact .compiled phase
  | dispatch what =>
    rw [step, dispatch]
    split
    · exact .refused rfl rfl (by simp)
    · exact r.refusedDestroyed _ _ _
    · rename_i phase
      exact .dispatched phase
  | setHooks hooks => exact .hooked
  | setRegistry registry => exact .registered
  | unmount =>
    rw [step, unmount]
    split
    · exact .refused rfl rfl (by simp)
    · exact r.refusedDestroyed _ _ _
    · rename_i phase
      exact .unmounted phase

def history (r : Root) (ops : List Operation) : List (Operation × Outcome Reply) := ops.zip (r.run ops)

def eventsOf (r : Root) (ops : List Operation) : List Event := (r.run ops).flatMap Outcome.events

theorem allEventsCons (r : Root) (op : Operation) (ops : List Operation) :
    r.allEvents (op :: ops) = (r.step op).events ++ (r.step op).root.allEvents ops := by
  simp only [allEvents, run, final, List.flatMap_cons, List.append_assoc]

theorem finalAppend (r : Root) (front back : List Operation) :
    r.final (front ++ back) = (r.final front).final back := by
  induction front generalizing r with
  | nil => rfl
  | cons op rest ih => exact ih (r.step op).root

theorem runAppend (r : Root) (front back : List Operation) :
    r.run (front ++ back) = r.run front ++ (r.final front).run back := by
  induction front generalizing r with
  | nil => rfl
  | cons op rest ih => exact congrArg (r.step op :: ·) (ih (r.step op).root)

theorem historyAppend (r : Root) (front back : List Operation) :
    r.history (front ++ back) = r.history front ++ (r.final front).history back := by
  induction front generalizing r with
  | nil => rfl
  | cons op rest ih => exact congrArg ((op, r.step op) :: ·) (ih (r.step op).root)

theorem eventsAppend (r : Root) (front back : List Operation) :
    r.eventsOf (front ++ back) = r.eventsOf front ++ (r.final front).eventsOf back := by
  simp only [eventsOf, runAppend, List.flatMap_append]

theorem finalSnoc (r : Root) (ops : List Operation) (op : Operation) :
    r.final (ops ++ [op]) = ((r.final ops).step op).root :=
  r.finalAppend ops [op]

theorem historySnoc (r : Root) (ops : List Operation) (op : Operation) :
    r.history (ops ++ [op]) = r.history ops ++ [(op, (r.final ops).step op)] :=
  r.historyAppend ops [op]

theorem eventsSnoc (r : Root) (ops : List Operation) (op : Operation) :
    r.eventsOf (ops ++ [op]) = r.eventsOf ops ++ ((r.final ops).step op).events := by
  rw [eventsAppend]
  exact congrArg (r.eventsOf ops ++ ·) (List.append_nil _)

end Root
end ChartTree.Chart
