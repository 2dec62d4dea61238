import ChartTree.Proofs.Chart.Failure
import ChartTree.Proofs.Chart.Layering

/-! A root seen from far away: its phase, whether its size can be drawn, and whether anything is declared.
These three decide how each operation ends, what is left of the root in the same view, and whether there
is a push; sizes, trees, hooks and registries decide nothing beyond them. -/
namespace ChartTree.Chart

structure Outline where
  phase : Phase
  sized : Bool
  declared : Bool
  deriving DecidableEq, Repr

inductive Move where
  | mount (refusal : Option SurfaceError)
  | setChildren (declared : Bool)
  | setOptions (sized : Bool)
  | refresh
  | compile
  | dispatch
  | setHooks
  | setRegistry
  | unmount
  deriving DecidableEq, Repr

inductive Fault where
  | alreadyMounted
  | notMounted
  | destroyed
  | invalidSize
  | surface (cause : SurfaceError)
  deriving DecidableEq, Repr

inductive Answer where
  | done
  | pushed (something : Bool)
  | spec (something : Bool)
  deriving DecidableEq, Repr

structure Reaction where
  outline : Outline
  answer : Except Fault Answer
  pushes : Nat
  asked : Bool
  deriving DecidableEq, Repr

def Error.fault : Error → Fault
  | .alreadyMounted => .alreadyMounted
  | .notMounted => .notMounted
  | .destroyed => .destroyed
  | .invalidSize _ _ => .invalidSize
  | .surface cause => .surface cause

def Reply.answer : Reply → Answer
  | .done => .done
  | .pushed something => .pushed something
  | .spec value => .spec value.isSome

def Operation.move : Operation → Move
  | .mount refusal => .mount refusal
  | .setChildren topLevel => .setChildren (topLevel ≠ [])
  | .setOptions options => .setOptions options.Valid
  | .refresh => .refresh
  | .compile => .compile
  | .dispatch _ => .dispatch
  | .setHooks _ => .setHooks
  | .setRegistry _ => .setRegistry
  | .unmount => .unmount

def Root.outline (r : Root) : Outline := ⟨r.phase, r.options.Valid, r.topLevel ≠ []⟩

def EngineCall.asks : EngineCall → Bool
  | .create _ _ => true
  | _ => false

def Outcome.reaction (out : Outcome Reply) : Reaction where
  outline := out.root.outline
  answer := (out.result.mapError Error.fault).map Reply.answer
  pushes := (specsIn out.events).length
  asked := (engineCalls out.events).any EngineCall.asks

namespace Outline

def shows (o : Outline) : Bool := o.phase = .mounted && o.declared

def refuse (o : Outline) (fault : Fault) : Reaction := ⟨o, .error fault, 0, false⟩

def accept (o : Outline) : Reaction := ⟨o, .ok .done, 0, false⟩

def change (o : Outline) : Reaction := ⟨o, .ok .done, o.shows.toNat, false⟩

/- The phase is looked at before the size, and the size before the surface. -/
def react (o : Outline) : Move → Reaction
  | .mount refusal =>
    match o.phase with
    | .destroyed => o.refuse .destroyed
    | .mounted => o.refuse .alreadyMounted
    | .unmounted =>
      if !o.sized then o.refuse .invalidSize
      else
        match refusal with
        | some cause => { o.refuse (.surface cause) with asked := true }
        | none => { change { o with phase := .mounted } with asked := true }
  | .setChildren declared => if o.phase = .destroyed then o.refuse .destroyed else change { o with declared }
  | .setOptions sized =>
    if o.phase = .destroyed then o.refuse .destroyed
    else if !sized then o.refuse .invalidSize
    else change { o with sized }
  | .refresh =>
    if o.phase = .destroyed then o.refuse .destroyed else { o.change with answer := .ok (.pushed o.shows) }
  | .compile =>
    if o.phase = .destroyed then o.refuse .destroyed else { o.accept with answer := .ok (.spec o.declared) }
  | .dispatch =>
    match o.phase with
    | .destroyed => o.refuse .destroyed
    | .unmounted => o.refuse .notMounted
    | .mounted => o.accept
  | .unmount =>
    match o.phase with
    | .destroyed => o.refuse .destroyed
    | .unmounted => o.refuse .notMounted
    | .mounted => accept { o with phase := .destroyed }
  | .setHooks => o.accept
  | .setRegistry => o.accept

def run (o : Outline) : List Move → List Reaction
  | [] => []
  | move :: moves => o.react move :: (o.react move).outline.run moves

end Outline

namespace Root

theorem mergedDeclared (r : Root) : r.mergedSpec?.isSome = r.outline.declared := by
  rw [Bool.eq_iff_iff, Option.isSome_iff_ne_none, ne_eq, mergedSpecNone]
  exact (decide_eq_true_iff (p := r.topLevel ≠ [])).symm

theorem pushedShows (r : Root) : r.pushed?.isSome = r.outline.shows := by
  have phase : r.outline.phase = r.phase := rfl
  rw [pushed?, Outline.shows, phase, ← mergedDeclared]
  split
  · rename_i mounted
    rw [decide_eq_true mounted, Bool.true_and]
  · rename_i other
    rw [decide_eq_false other, Bool.false_and, Option.isSome_none]

theorem pushAnswer (r : Root) : r.push.1 = r.outline.shows := by
  rw [← pushedShows]
  have pushing := r.pushCases
  generalize r.push = out at pushing
  cases pushing with
  | shown pushed => rw [pushed, Option.isSome_some]
  | skipped phase nothing => rw [pushed?, if_pos phase, nothing, Option.isSome_none]
  | idle phase => rw [pushed?, if_neg phase, Option.isSome_none]

theorem pushCount (r : Root) : (specsIn r.push.2).length = r.outline.shows.toNat := by
  rw [pushSpecs, ← pushedShows]
  cases r.pushed? <;> rfl

theorem pushAsksNone (r : Root) : (engineCalls r.push.2).any EngineCall.asks = false := by
  rw [pushEngineCalls]
  cases r.pushed? <;> rfl

theorem changeReaction (now : Root) (front : List Event) (silent : specsIn front = []) :
    Outcome.reaction ⟨now, .ok .done, front ++ now.push.2⟩ =
      { now.outline.change with asked := (engineCalls front).any EngineCall.asks } := by
  rw [Outcome.reaction, specsInAppend, silent, List.nil_append, pushCount, engineCallsAppend,
    List.any_append, pushAsksNone, Bool.or_false]
  rfl

theorem refusedReaction {α : Type} (r : Root) (e : Error) (events : List Event) (f : α → Reply) :
    ((r.refuse e events).map f).reaction =
      ⟨r.outline, .error e.fault, (specsIn events).length, (engineCalls events).any EngineCall.asks⟩ := rfl

theorem mountReaction {r : Root} (refusal : Option SurfaceError) (phase : r.phase = .unmounted) :
    (r.step (.mount refusal)).reaction = r.outline.react (.mount refusal) := by
  have unmounted : r.outline.phase = .unmounted := phase
  rcases r.options.containerDecided with ⟨valid, container, described⟩ | ⟨invalid, described⟩
  · have sized : r.outline.sized = true := decide_eq_true valid
    cases refusal with
    | some cause =>
      simp only [step, mount, phase, described, refusedReaction, Outline.react, unmounted, sized]
      rfl
    | none =>
      have same : ({ r with phase := .mounted } : Root).outline = ⟨.mounted, true, r.outline.declared⟩ := by
        simp only [outline, decide_eq_true valid]
      simp only [step, mount, phase, described, Outline.react, unmounted, sized]
      refine (changeReaction { r with phase := .mounted }
        [.engine (.create container none), .log (.mounted container.width container.height)] rfl).trans ?_
      rw [same]
      rfl
  · have sized : r.outline.sized = false := decide_eq_false invalid
    simp only [step, mount, phase, described, refusedReaction, Outline.react, unmounted, sized]
    rfl

theorem setOptionsReaction {r : Root} (options : Options) (alive : r.phase ≠ .destroyed) :
    (r.step (.setOptions options)).reaction = r.outline.react (.setOptions options.Valid) := by
  have kept : r.outline.phase ≠ .destroyed := alive
  rw [step, setOptions, Outline.react, if_neg kept, options.sizeDecided]
  split
  · contradiction
  · by_cases valid : options.Valid
    · rw [if_pos valid, decide_eq_true valid]
      have same : ({ r with options } : Root).outline = { r.outline with sized := true } := by
        simp only [outline, decide_eq_true valid]
      exact (changeReaction { r with options } [] rfl).trans (congrArg Outline.change same)
    · rw [if_neg valid, decide_eq_false valid]
      rfl

theorem refreshReaction {r : Root} (alive : r.phase ≠ .destroyed) :
    (r.step .refresh).reaction = r.outline.react .refresh := by
  have kept : r.outline.phase ≠ .destroyed := alive
  rw [step, refresh, Outline.react, if_neg kept]
  split
  · contradiction
  · rw [Outcome.reaction, Outcome.map, pushCount, pushAsksNone, pushAnswer]
    rfl

theorem compileReaction {r : Root} (alive : r.phase ≠ .destroyed) :
    (r.step .compile).reaction = r.outline.react .compile := by
  have kept : r.outline.phase ≠ .destroyed := alive
  rw [step, compile, Outline.react, if_neg kept]
  split
  · contradiction
  · rw [Outcome.reaction, Outcome.map, specsIn, reportsCallNoEngine, ← mergedDeclared]
    rfl

theorem dispatchReaction {r : Root} (what : Interaction) (mounted : r.phase = .mounted) :
    (r.step (.dispatch what)).reaction = r.outline.accept := by
  have silent : engineCalls (.log (.interaction what.event) ::
      hookEvent r.hooks.interaction (.interaction · what)) = [] := by simp
  simp only [step, dispatch, mounted, Outcome.map, Outcome.reaction, specsIn, silent]
  rfl

theorem stepReaction (r : Root) (op : Operation) : (r.step op).reaction = r.outline.react op.move := by
  obtain ⟨stored, hooks, registry, topLevel, phase⟩ := r
  cases op with
  | mount refusal =>
    cases phase with
    | unmounted => exact mountReaction refusal rfl
    | mounted => rfl
    | destroyed => rfl
  | setChildren topLevel =>
    cases phase with
    | unmounted => exact changeReaction ⟨stored, hooks, registry, topLevel, .unmounted⟩ [] rfl
    | mounted => exact changeReaction ⟨stored, hooks, registry, topLevel, .mounted⟩ [] rfl
    | destroyed => rfl
  | setOptions options =>
    cases phase with
    | unmounted => exact setOptionsReaction options nofun
    | mounted => exact setOptionsReaction options nofun
    | destroyed => rfl
  | refresh =>
    cases phase with
    | unmounted => exact refreshReaction nofun
    | mounted => exact refreshReaction nofun
    | destroyed => rfl
  | compile =>
    cases phase with
    | unmounted => exact compileReaction nofun
    | mounted => exact compileReaction nofun
    | destroyed => rfl
  | dispatch what =>
    cases phase with
    | unmounted => rfl
    | mounted => exact dispatchReaction what rfl
    | destroyed => rfl
  | setHooks hooks => rfl
  | setRegistry registry => rfl
  | unmount => cases phase <;> rfl

theorem runReactions (r : Root) (ops : List Operation) :
    (r.run ops).map Outcome.reaction = r.outline.run (ops.map Operation.move) := by
  induction ops generalizing r with
  | nil => rfl
  | cons op ops ih =>
    have first := r.stepReaction op
    have outline : (r.step op).root.outline = (r.outline.react op.move).outline :=
      congrArg Reaction.outline first
    rw [run, List.map_cons, List.map_cons, Outline.run, first, ih, outline]

def offered (r : Root) : Operation → Options
  | .setOptions options => options
  | _ => r.options

theorem invalidOffered {r : Root} {op : Operation} {width height : Number}
    (failed : (r.step op).result = .error (.invalidSize width height)) :
    width = (r.offered op).width ∧ height = (r.offered op).height := by
  cases op with
  | mount refusal =>
    rw [step, mount] at failed
    split at failed
    · cases failed
    · cases failed
    · rcases r.options.containerDecided with ⟨_, container, described⟩ | ⟨_, described⟩
      · rw [described] at failed
        cases refusal <;> cases failed
      · rw [described] at failed
        cases failed
        exact ⟨rfl, rfl⟩
  | setOptions options =>
    rw [step, setOptions, options.sizeDecided] at failed
    split at failed
    · cases failed
    · split at failed
      · rename_i e invalid
        split at invalid
        · cases invalid
        · cases invalid
          cases failed
          exact ⟨rfl, rfl⟩
      · cases failed
  | setChildren topLevel => rw [step, setChildren] at failed; split at failed <;> cases failed
  | refresh => rw [step, refresh] at failed; split at failed <;> cases failed
  | compile => rw [step, compile] at failed; split at failed <;> cases failed
  | dispatch what => rw [step, dispatch] at failed; split at failed <;> cases failed
  | unmount => rw [step, unmount] at failed; split at failed <;> cases failed
  | setHooks hooks => cases failed
  | setRegistry registry => cases failed

theorem invalidUnasked {r : Root} {op : Operation} {width height : Number}
    (failed : (r.step op).result = .error (.invalidSize width height)) :
    engineCalls (r.step op).events = [] := by
  rcases (r.stepFailed op _ failed).engine with ⟨_, silent⟩ | ⟨container, cause, same, _⟩
  · exact silent
  · cases same

theorem outlinePredicts (options : Options) (ops : List Operation) :
    let root := Root.ofOptions options
    let now := root.final ops
    (root.run ops).map Outcome.reaction =
      Outline.run ⟨.unmounted, options.Valid, false⟩ (ops.map Operation.move) ∧
    (now.phase = .mounted → now.options.Valid) ∧
    ∀ op width height, (now.step op).result = .error (.invalidSize width height) →
      width = (now.offered op).width ∧ height = (now.offered op).height ∧
        engineCalls (now.step op).events = [] := by
  intro root now
  refine ⟨root.runReactions ops, runSized options ops, fun op width height failed => ?_⟩
  obtain ⟨wide, high⟩ := invalidOffered failed
  exact ⟨wide, high, invalidUnasked failed⟩

theorem mountedAfterRefusedSize :
    let options := Options.default.withSize .nan (.infinite false)
    let wrong := Options.default.withSize (.infinite true) .nan
    let root := Root.ofOptions options
    let ops := [.mount none, .setOptions .default, .setChildren [.ofTag (.mark .interval)], .mount none]
    let now := root.final ops
    (root.run ops).map (fun out => (out.reaction.pushes, out.reaction.asked)) =
      [(0, false), (0, false), (0, false), (1, true)] ∧
    (now.phase = .mounted ∧ now.options.Valid) ∧
    (now.step (.setOptions wrong)).result = .error (.invalidSize wrong.width wrong.height) ∧
    engineCalls (now.step (.setOptions wrong)).events = [] := by
  intro options wrong root ops now
  obtain ⟨predicted, sized, carried⟩ := outlinePredicts options ops
  have reactions := congrArg (List.map fun reaction => (reaction.pushes, reaction.asked)) predicted
  rw [List.map_map] at reactions
  have refused : (now.step (.setOptions wrong)).result = .error (.invalidSize wrong.width wrong.height) := rfl
  exact ⟨reactions.trans (by decide), ⟨rfl, sized rfl⟩, refused, (carried _ _ _ refused).2.2⟩

end Root
end ChartTree.Chart
