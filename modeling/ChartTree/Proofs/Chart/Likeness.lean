import ChartTree.Proofs.Chart.Effect
import Mathlib.Data.List.Forall2

/-! Two roots that are operated side by side. They are alike if they are in one phase, hold the same options,
would push the same specification, and leave the same events behind, as far as events are looked at. A
relation between alike roots that every operation keeps is kept by whole runs, with the same results. -/
namespace ChartTree.Chart

structure Alike (seen : Event → Bool) (r s : Root) : Prop where
  phase : s.phase = r.phase
  options : s.options = r.options
  merged : s.mergedSpec? = r.mergedSpec?
  reports : s.compileReports.filter seen = r.compileReports.filter seen
  push : ∀ spec, (s.pushEvents spec).filter seen = (r.pushEvents spec).filter seen
  interaction : ∀ what, (Root.hookEvent s.hooks.interaction (.interaction · what)).filter seen =
    (Root.hookEvent r.hooks.interaction (.interaction · what)).filter seen

/- The relation holds between alike roots only, and the phase does not matter to it. -/
structure Likeness (seen : Event → Bool) (R : Root → Root → Prop) : Prop where
  alike : ∀ {r s}, R r s → Alike seen r s
  phase : ∀ {r s} phase, R r s → R { r with phase } { s with phase }

structure Agree (seen : Event → Bool) (R : Root → Root → Prop) (a b : Outcome Reply) : Prop where
  root : R a.root b.root
  result : b.result = a.result
  events : b.events.filter seen = a.events.filter seen

def Operation.store : Operation → Root → Root
  | .setChildren topLevel, r => { r with topLevel }
  | .setOptions options, r => { r with options }
  | .setHooks hooks, r => r.withHooks hooks
  | .setRegistry registry, r => r.withRegistry registry
  | _, r => r

inductive Operation.Parallel : Operation → Operation → Prop where
  | same (op : Operation) : Parallel op op
  | children (xs ys : List Node) : Parallel (.setChildren xs) (.setChildren ys)
  | hooks (a b : Hooks) : Parallel (.setHooks a) (.setHooks b)

structure Edit (R : Root → Root → Prop) (op other : Operation) : Prop where
  parallel : op.Parallel other
  store : ∀ {r s}, R r s → R (op.store r) (other.store s)

namespace Root
variable {seen : Event → Bool} {R : Root → Root → Prop} {r s : Root}

theorem pushAlike (alike : Alike seen r s) :
    s.push.1 = r.push.1 ∧ s.push.2.filter seen = r.push.2.filter seen := by
  unfold push
  rw [alike.phase, alike.merged]
  cases r.phase with
  | mounted =>
    cases r.mergedSpec? with
    | some spec => simp only [List.filter_append, alike.reports, alike.push, and_self]
    | none => simp only [List.filter_append, alike.reports, and_self]
  | _ => exact ⟨rfl, rfl⟩

theorem refusedAgree {α : Type} (now : R r s) (e : Error) (events : List Event) (f : α → Reply) :
    Agree seen R ((r.refuse e events).map f) ((s.refuse e events).map f) := ⟨now, rfl, rfl⟩

theorem changedAgree (like : Likeness seen R) (now : R r s) (front : List Event) :
    Agree seen R ⟨r, .ok .done, front ++ r.push.2⟩ ⟨s, .ok .done, front ++ s.push.2⟩ :=
  ⟨now, rfl, by rw [List.filter_append, List.filter_append, (pushAlike (like.alike now)).2]⟩

theorem mountAgree (like : Likeness seen R) (now : R r s) (refusal : Option SurfaceError) :
    Agree seen R (r.step (.mount refusal)) (s.step (.mount refusal)) := by
  have alike := like.alike now
  have container : s.options.container = r.options.container := by rw [alike.options]
  simp only [step, mount, alike.phase, container]
  cases r.phase with
  | mounted => exact refusedAgree now ..
  | destroyed => exact refusedAgree now ..
  | unmounted =>
    cases r.options.container with
    | error e => exact refusedAgree now ..
    | ok container =>
      cases refusal with
      | some cause => exact refusedAgree now ..
      | none =>
        exact changedAgree like (like.phase .mounted now)
          [.engine (.create container none), .log (.mounted container.width container.height)]

theorem setChildrenAgree (like : Likeness seen R) (now : R r s) {xs ys : List Node}
    (stored : R { r with topLevel := xs } { s with topLevel := ys }) :
    Agree seen R (r.step (.setChildren xs)) (s.step (.setChildren ys)) := by
  simp only [step, setChildren, (like.alike now).phase]
  cases r.phase with
  | destroyed => exact refusedAgree now ..
  | _ => exact changedAgree like (like.phase _ stored) []

theorem setOptionsAgree (like : Likeness seen R) (now : R r s) {options : Options}
    (stored : R { r with options } { s with options }) :
    Agree seen R (r.step (.setOptions options)) (s.step (.setOptions options)) := by
  simp only [step, setOptions, (like.alike now).phase]
  cases options.size with
  | error e => cases r.phase <;> exact refusedAgree now ..
  | ok size =>
    cases r.phase with
    | destroyed => exact refusedAgree now ..
    | _ => exact changedAgree like (like.phase _ stored) []

theorem sameAgree (like : Likeness seen R) (now : R r s) (op : Operation) (stored : R (op.store r) (op.store s)) :
    Agree seen R (r.step op) (s.step op) := by
  have alike := like.alike now
  cases op with
  | mount refusal => exact mountAgree like now refusal
  | setChildren topLevel => exact setChildrenAgree like now stored
  | setOptions options => exact setOptionsAgree like now stored
  | setHooks hooks => exact ⟨stored, rfl, rfl⟩
  | setRegistry registry => exact ⟨stored, rfl, rfl⟩
  | refresh =>
    obtain ⟨answer, events⟩ := pushAlike alike
    simp only [step, refresh, alike.phase]
    cases r.phase with
    | destroyed => exact refusedAgree now ..
    | _ => exact ⟨now, congrArg (Except.ok ∘ Reply.pushed) answer, events⟩
  | compile =>
    simp only [step, compile, alike.phase]
    cases r.phase with
    | destroyed => exact refusedAgree now ..
    | _ => exact ⟨now, congrArg (Except.ok ∘ Reply.spec) alike.merged, alike.reports⟩
  | dispatch what =>
    simp only [step, dispatch, alike.phase]
    cases r.phase with
    | mounted => exact ⟨now, rfl, by simp only [Outcome.map, List.filter_cons, alike.interaction what]⟩
    | _ => exact refusedAgree now ..
  | unmount =>
    simp only [step, unmount, alike.phase]
    cases r.phase with
    | mounted => exact ⟨like.phase .destroyed now, rfl, rfl⟩
    | _ => exact refusedAgree now ..

theorem stepAgree (like : Likeness seen R) (now : R r s) {op other : Operation} (edit : Edit R op other) :
    Agree seen R (r.step op) (s.step other) := by
  obtain ⟨parallel, store⟩ := edit
  cases parallel with
  | same => exact sameAgree like now op (store now)
  | children xs ys => exact setChildrenAgree like now (store now)
  | hooks a b => exact ⟨store now, rfl, rfl⟩

theorem dropAlike (alike : Alike seen r s) : s.drop = r.drop := by
  rw [drop, drop, alike.phase]

theorem runAgree (like : Likeness seen R) (now : R r s) {ops others : List Operation}
    (edits : List.Forall₂ (Edit R) ops others) :
    List.Forall₂ (Agree seen R) (r.run ops) (s.run others) ∧
      (s.allEvents others).filter seen = (r.allEvents ops).filter seen := by
  induction edits generalizing r s with
  | nil => exact ⟨.nil, congrArg (List.filter seen) (dropAlike (like.alike now))⟩
  | cons edit edits ih =>
    have first := stepAgree like now edit
    obtain ⟨rest, events⟩ := ih first.root
    refine ⟨.cons first rest, ?_⟩
    rw [allEventsCons, allEventsCons, List.filter_append, List.filter_append, first.events, events]

end Root
end ChartTree.Chart
