import ChartTree.Proofs.Chart.Likeness

/-! What hooks see and that nothing depends on them. Other hooks leave everything but their own calls as it
was; and the calls of a run stand at fixed places among those to the engine, each to the hook set at that
time. -/
namespace ChartTree.Chart

def Event.outward : Event → Bool
  | log _ => false
  | _ => true

/- A specification is shown to the hook right before the engine takes it, and the other hook comes right
after the engine has drawn. -/
def attended (hooks : Hooks) : EngineCall → List Event
  | .options spec => Root.hookEvent hooks.before (.before · spec) ++ [.engine (.options spec)]
  | .render => .engine .render :: Root.hookEvent hooks.after .after
  | call => [.engine call]

namespace Root

@[simp] theorem hookEventOutward (hook : Option String) (call : String → HookCall) :
    (hookEvent hook call).filter Event.outward = hookEvent hook call := by
  cases hook <;> rfl

theorem quiet {events : List Event} (engine : engineCalls events = []) (hooks : hookCalls events = []) :
    events.filter Event.outward = [] := by
  refine List.filter_eq_nil_iff.mpr fun event inside => ?_
  obtain ⟨report, rfl⟩ := logsOnly engine hooks inside
  exact Bool.false_ne_true

theorem pushHeard (r : Root) :
    r.push.2.filter Event.outward = (engineCalls r.push.2).flatMap (attended r.hooks) := by
  have silent : r.compileReports.filter Event.outward = [] := quiet r.reportsCallNoEngine r.reportsCallNoHook
  have pushing := r.pushCases
  generalize r.push = out at pushing
  cases pushing with
  | @shown spec pushed =>
    have calls : engineCalls (r.compileReports ++ r.pushEvents spec) = [.options spec, .render] := by
      simp [pushEvents]
    rw [calls, List.filter_append, silent, pushEvents, List.filter_append, List.filter_append,
      hookEventOutward, hookEventOutward]
    simp only [attended, List.flatMap_cons, List.flatMap_nil, List.append_nil, List.nil_append,
      List.append_assoc]
    rfl
  | skipped phase nothing =>
    rw [List.filter_append, silent, engineCallsAppend, reportsCallNoEngine]
    rfl
  | idle phase => rfl

end Root
end ChartTree.Chart
