import ChartTree.Proofs.Chart.HookCalls
import ChartTree.Proofs.Chart.Layering

/-! Declarations that are made again. A mounted root that is given a copy of what it stores does what it
does on a refresh: it takes the copy, stays as it is, and shows what it would compile. A root that is not
mounted yet may refuse its own options. -/
namespace ChartTree.Chart

namespace Root

inductive Redeclares (r : Root) : Operation → Prop where
  | refresh : Redeclares r .refresh
  | children : Redeclares r (.setChildren r.topLevel)
  | options : Redeclares r (.setOptions r.options)

structure Refreshed (r : Root) (shown : Option Value) (out : Outcome Reply) : Prop where
  root : out.root = r
  accepted : ∃ reply, out.result = .ok reply
  events : out.events = (r.step .refresh).events
  calls : out.events.filter Event.outward = (pushCalls shown.toList).flatMap (attended r.hooks)

variable {r : Root} {op : Operation}

theorem redeclaredOutcome (mounted : r.phase = .mounted) (sized : r.Sized) (again : r.Redeclares op) :
    ∃ reply, r.step op = ⟨r, .ok reply, r.push.2⟩ := by
  obtain ⟨width, height⟩ := sized mounted
  have size := r.options.sizeDecided
  rw [if_pos ⟨width, height⟩] at size
  obtain ⟨options, hooks, registry, topLevel, phase⟩ := r
  cases mounted
  cases again with
  | refresh => exact ⟨.pushed _, rfl⟩
  | children => exact ⟨.done, rfl⟩
  | options =>
    simp only [step, setOptions, size]
    exact ⟨.done, rfl⟩

theorem redeclaredRefresh (mounted : r.phase = .mounted) (sized : r.Sized) (again : r.Redeclares op) :
    r.Refreshed r.mergedSpec? (r.step op) := by
  obtain ⟨reply, outcome⟩ := redeclaredOutcome mounted sized again
  obtain ⟨answer, refreshed⟩ := redeclaredOutcome mounted sized Redeclares.refresh
  have shown : r.pushed? = r.mergedSpec? := if_pos mounted
  rw [outcome]
  exact ⟨rfl, ⟨reply, rfl⟩, by rw [refreshed], by rw [pushHeard, pushEngineCalls, shown]⟩

theorem redeclaredRun (mounted : r.phase = .mounted) (sized : r.Sized) {again : List Operation}
    (all : ∀ op ∈ again, r.Redeclares op) :
    r.final again = r ∧ ∀ out ∈ r.run again, r.Refreshed r.mergedSpec? out := by
  induction again with
  | nil => exact ⟨rfl, List.forall_mem_nil _⟩
  | cons op rest ih =>
    have first := redeclaredRefresh mounted sized (all op List.mem_cons_self)
    obtain ⟨final, others⟩ := ih fun op later => all op (List.mem_cons_of_mem _ later)
    rw [Root.final, run, first.root]
    exact ⟨final, List.forall_mem_cons.mpr ⟨first, others⟩⟩

theorem compileAnswer (alive : r.phase ≠ .destroyed) :
    r.step .compile = ⟨r, .ok (.spec r.mergedSpec?), r.compileReports⟩ := by
  rw [step, compile]
  split
  · contradiction
  · rfl

theorem redeclaringRefreshes (options : Options) (ops : List Operation)
    (mounted : ((Root.ofOptions options).final ops).phase = .mounted) :
    let now := (Root.ofOptions options).final ops
    ∃ shown, (now.step .compile).result = .ok (.spec shown) ∧ (now.step .compile).root = now ∧
      (shown = none ↔ now.topLevel = []) ∧
      (∀ op, now.Redeclares op → now.Refreshed shown (now.step op)) ∧
      ∀ again, (∀ op ∈ again, now.Redeclares op) →
        now.final again = now ∧ ∀ out ∈ now.run again, now.Refreshed shown out := by
  intro now
  have sized : now.Sized := runSized options ops
  have compiled := compileAnswer (r := now) (by rw [mounted]; decide)
  refine ⟨now.mergedSpec?, by rw [compiled], by rw [compiled], now.mergedSpecNone, ?_, ?_⟩
  · exact fun op => redeclaredRefresh mounted sized
  · exact fun again => redeclaredRun mounted sized

/- The root refuses the size it was made with when it is asked to take it again, and is mounted later, with
another one. -/
theorem repeatedAfterRefusal :
    let start := Root.ofOptions (Options.default.withSize .nan (.infinite false))
    let ops := [.setOptions .default, .setChildren [.ofTag (.mark .interval)], .mount none]
    let now := start.final ops
    let again := [.setOptions now.options, .refresh, .setChildren now.topLevel, .setOptions now.options]
    (start.step (.setOptions start.options)).result = .error (.invalidSize .nan (.infinite false)) ∧
    now.phase = .mounted ∧ (∀ op ∈ again, now.Redeclares op) ∧ now.final again = now ∧
    ∃ spec, (now.step .compile).result = .ok (.spec (some spec)) ∧
      ∀ out ∈ now.run again, now.Refreshed (some spec) out := by
  intro start ops now again
  have mounted : now.phase = .mounted := rfl
  have all : ∀ op ∈ again, now.Redeclares op := by
    simp only [again, List.forall_mem_cons]
    exact ⟨.options, .refresh, .children, .options, List.forall_mem_nil _⟩
  obtain ⟨shown, compiled, _, empty, _, repeated⟩ := redeclaringRefreshes start.options ops mounted
  obtain ⟨final, refreshed⟩ := repeated again all
  have declared : now.topLevel ≠ [] := List.cons_ne_nil _ _
  obtain ⟨spec, rfl⟩ := Option.ne_none_iff_exists'.mp (mt empty.mp declared)
  exact ⟨rfl, mounted, all, final, spec, compiled, refreshed⟩

end Root
end ChartTree.Chart
