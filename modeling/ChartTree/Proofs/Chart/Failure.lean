import ChartTree.Proofs.Chart.Effect

/-! Operations that fail. A refusal changes no field of the root and reaches neither engine nor hook, so a
run without its failed operations does the same. -/
namespace ChartTree.Chart

def Event.lasting : Event → Bool
  | engine (.create _ (some _)) => false
  | log _ => false
  | _ => true

theorem lastingNone (events : List Event) (engine : engineCalls events = []) (hooks : hookCalls events = []) :
    events.filter Event.lasting = [] := by
  refine List.filter_eq_nil_iff.mpr fun event inside => ?_
  obtain ⟨report, rfl⟩ := logsOnly engine hooks inside
  exact Bool.false_ne_true

namespace Root

def succeeded (step : Operation × Outcome Reply) : Bool := step.2.result.isOk

def succeeding (r : Root) (ops : List Operation) : List Operation :=
  ((r.history ops).filter succeeded).map Prod.fst

/- What a failed operation is from outside: a surface was asked if and only if it is at fault. -/
structure Failed (r : Root) (e : Error) (out : Outcome Reply) : Prop where
  root : out.root = r
  hooks : hookCalls out.events = []
  engine : (∀ cause, e ≠ .surface cause) ∧ engineCalls out.events = [] ∨
    ∃ container cause, e = .surface cause ∧ engineCalls out.events = [.create container (some cause)]

theorem stepFailed (r : Root) (op : Operation) (e : Error) (failed : (r.step op).result = .error e) :
    r.Failed e (r.step op) := by
  have effect := r.stepEffect op
  generalize r.step op = out at effect failed
  cases effect with
  | refused engine hooks own =>
    cases failed
    exact ⟨rfl, hooks, .inl ⟨own, engine⟩⟩
  | @declined container cause phase valid =>
    cases failed
    exact ⟨rfl, rfl, .inr ⟨container, cause, rfl, rfl⟩⟩
  | _ => cases failed

theorem failedLasting (r : Root) (op : Operation) (e : Error) (failed : (r.step op).result = .error e) :
    (r.step op).events.filter Event.lasting = [] := by
  have effect := r.stepEffect op
  generalize r.step op = out at effect failed
  cases effect with
  | refused engine hooks own => exact lastingNone _ engine hooks
  | declined phase valid => rfl
  | _ => cases failed

theorem succeedingOk (r : Root) (op : Operation) (ops : List Operation) (reply : Reply)
    (ok : (r.step op).result = .ok reply) :
    r.succeeding (op :: ops) = op :: (r.step op).root.succeeding ops := by
  have kept : succeeded (op, r.step op) = true := by rw [succeeded, ok]; rfl
  exact congrArg (List.map Prod.fst) (List.filter_cons_of_pos kept)

theorem succeedingError (r : Root) (op : Operation) (ops : List Operation) (e : Error)
    (failed : (r.step op).result = .error e) : r.succeeding (op :: ops) = r.succeeding ops := by
  have left : ¬ succeeded (op, r.step op) = true := by rw [succeeded, failed]; exact Bool.false_ne_true
  have rest := congrArg (List.map Prod.fst)
    (List.filter_cons_of_neg (l := (r.step op).root.history ops) left)
  exact rest.trans (by rw [(r.stepFailed op e failed).root]; rfl)

structure Undisturbed (r : Root) (ops : List Operation) : Prop where
  history : r.history (r.succeeding ops) = (r.history ops).filter succeeded
  final : r.final (r.succeeding ops) = r.final ops
  events : (r.allEvents (r.succeeding ops)).filter Event.lasting = (r.allEvents ops).filter Event.lasting

theorem undisturbedOk (r : Root) (op : Operation) (ops : List Operation) (reply : Reply)
    (ok : (r.step op).result = .ok reply) (rest : (r.step op).root.Undisturbed ops) :
    r.Undisturbed (op :: ops) := by
  have kept : succeeded (op, r.step op) = true := by rw [succeeded, ok]; rfl
  have same := r.succeedingOk op ops reply ok
  refine ⟨?_, ?_, ?_⟩
  · have history := congrArg ((op, r.step op) :: ·) rest.history
    rw [same]
    exact history.trans (List.filter_cons_of_pos kept).symm
  · rw [same]
    exact rest.final
  · rw [same, allEventsCons, allEventsCons, List.filter_append, List.filter_append, rest.events]

theorem undisturbedError (r : Root) (op : Operation) (ops : List Operation) (e : Error)
    (failed : (r.step op).result = .error e) (rest : r.Undisturbed ops) : r.Undisturbed (op :: ops) := by
  have left : ¬ succeeded (op, r.step op) = true := by rw [succeeded, failed]; exact Bool.false_ne_true
  have same := r.succeedingError op ops e failed
  have root := (r.stepFailed op e failed).root
  refine ⟨?_, ?_, ?_⟩
  · have history := List.filter_cons_of_neg (l := (r.step op).root.history ops) left
    rw [same, rest.history]
    exact (history.trans (by rw [root])).symm
  · rw [same, rest.final]
    exact congrArg (final · ops) root.symm
  · rw [same, rest.events, allEventsCons, List.filter_append, r.failedLasting op e failed, root, List.nil_append]

theorem runUndisturbed (r : Root) (ops : List Operation) : r.Undisturbed ops := by
  induction ops generalizing r with
  | nil => exact ⟨rfl, rfl, rfl⟩
  | cons op ops ih =>
    cases result : (r.step op).result with
    | ok reply => exact r.undisturbedOk op ops reply result (ih _)
    | error e => exact r.undisturbedError op ops e result (ih r)

theorem failuresLeaveNoTrace (r : Root) (ops : List Operation) :
    (∀ op e, (r.step op).result = .error e → r.Failed e (r.step op)) ∧
    r.history (r.succeeding ops) = (r.history ops).filter succeeded ∧
    r.final (r.succeeding ops) = r.final ops ∧
    (r.allEvents (r.succeeding ops)).filter Event.lasting = (r.allEvents ops).filter Event.lasting := by
  obtain ⟨history, final, events⟩ := r.runUndisturbed ops
  exact ⟨r.stepFailed, history, final, events⟩

theorem failedMountsNoTrace :
    let root := Root.ofOptions .default
    let ops := [.mount (some .unavailable), .unmount, .mount none, .mount none]
    (root.step (.mount (some .unavailable))).result = .error (.surface .unavailable) ∧
    root.Failed (.surface .unavailable) (root.step (.mount (some .unavailable))) ∧
    root.succeeding ops = [.mount none] ∧ root.final [.mount none] = root.final ops ∧
    (root.allEvents [.mount none]).filter Event.lasting = (root.allEvents ops).filter Event.lasting := by
  intro root ops
  have refused : (root.step (.mount (some .unavailable))).result = .error (.surface .unavailable) := rfl
  have left : root.succeeding ops = [.mount none] := rfl
  obtain ⟨failed, -, final, events⟩ := failuresLeaveNoTrace root ops
  rw [left] at final events
  exact ⟨refused, failed _ _ refused, left, final, events⟩

end Root
end ChartTree.Chart
