import ChartTree.Chart.Event

/-! The root of a chart: it stores what is declared and owns at most one engine, once. Every change of a
mounted root compiles the whole tree anew and hands it to the engine; a destroyed root refuses all use.
An operation gives the root afterwards, its result, and the events in their order. -/
namespace ChartTree.Chart

inductive Phase where
  | unmounted
  | mounted
  | destroyed
  deriving DecidableEq, Repr

structure Hooks where
  before : Option String
  after : Option String
  interaction : Option String
  deriving DecidableEq, Repr

def Hooks.none : Hooks := ⟨.none, .none, .none⟩

structure Root where
  options : Options
  hooks : Hooks
  registry : Registry
  topLevel : List Node
  phase : Phase

structure Outcome (α : Type) where
  root : Root
  result : Except Error α
  events : List Event

namespace Root

def ofOptions (options : Options) : Root := ⟨options, .none, .standard, [], .unmounted⟩

def withHooks (r : Root) (hooks : Hooks) : Root := { r with hooks }

def withRegistry (r : Root) (registry : Registry) : Root := { r with registry }

def mergedSpec? (r : Root) : Option Value :=
  (r.registry.compileRoot r.topLevel).map fun spec => .object (spec.layeredOver r.options.rootAttributes)

def compileReports (r : Root) : List Event :=
  (r.registry.rootNotices r.topLevel).map fun notice => .log (.compile notice)

def hookEvent (hook : Option String) (call : String → HookCall) : List Event :=
  (hook.map fun name => Event.hook (call name)).toList

def pushEvents (r : Root) (spec : Value) : List Event :=
  hookEvent r.hooks.before (.before · spec) ++
    [.log (.pushing r.topLevel.length), .engine (.options spec), .engine .render] ++
    hookEvent r.hooks.after .after

def push (r : Root) : Bool × List Event :=
  match r.phase with
  | .mounted =>
    match r.mergedSpec? with
    | some spec => (true, r.compileReports ++ r.pushEvents spec)
    | none => (false, r.compileReports ++ [.log .nothingDeclared])
  | _ => (false, [])

def refuse {α : Type} (r : Root) (e : Error) (events : List Event) : Outcome α := ⟨r, .error e, events⟩

def refuseDestroyed {α : Type} (r : Root) (operation : String) : Outcome α :=
  r.refuse .destroyed [.log (.usedAfterDestroy operation)]

/-- Asks the surface for an engine. The size is checked before the surface is asked; a refusal leaves
the root unmounted. -/
def mount (r : Root) (refusal : Option SurfaceError) : Outcome Unit :=
  match r.phase with
  | .mounted => r.refuse .alreadyMounted [.log .alreadyMounted]
  | .destroyed => r.refuseDestroyed "mount"
  | .unmounted =>
    match r.options.container with
    | .error e => r.refuse e []
    | .ok container =>
      match refusal with
      | some cause =>
        r.refuse (.surface cause) [.engine (.create container refusal), .log (.refused cause)]
      | none =>
        let root := { r with phase := .mounted }
        ⟨root, .ok (), [.engine (.create container none), .log (.mounted container.width container.height)] ++
          root.push.2⟩

def setChildren (r : Root) (topLevel : List Node) : Outcome Unit :=
  match r.phase with
  | .destroyed => r.refuseDestroyed "set_children"
  | _ =>
    let root := { r with topLevel }
    ⟨root, .ok (), root.push.2⟩

def setOptions (r : Root) (options : Options) : Outcome Unit :=
  match r.phase with
  | .destroyed => r.refuseDestroyed "set_options"
  | _ =>
    match options.size with
    | .error e => r.refuse e []
    | .ok _ =>
      let root := { r with options }
      ⟨root, .ok (), root.push.2⟩

def refresh (r : Root) : Outcome Bool :=
  match r.phase with
  | .destroyed => r.refuseDestroyed "refresh"
  | _ => ⟨r, .ok r.push.1, r.push.2⟩

def compile (r : Root) : Outcome (Option Value) :=
  match r.phase with
  | .destroyed => r.refuseDestroyed "compile"
  | _ => ⟨r, .ok r.mergedSpec?, r.compileReports⟩

def dispatch (r : Root) (what : Interaction) : Outcome Unit :=
  match r.phase with
  | .unmounted => r.refuse .notMounted []
  | .destroyed => r.refuseDestroyed "dispatch_interaction"
  | .mounted =>
    ⟨r, .ok (), .log (.interaction what.event) :: hookEvent r.hooks.interaction (.interaction · what)⟩

def unmount (r : Root) : Outcome Unit :=
  match r.phase with
  | .unmounted => r.refuse .notMounted []
  | .destroyed => r.refuseDestroyed "unmount"
  | .mounted => ⟨{ r with phase := .destroyed }, .ok (), [.engine .destroy, .log .destroyed]⟩

def drop (r : Root) : List Event :=
  match r.phase with
  | .mounted => [.engine .destroy, .log .dropped]
  | _ => []

def embed (r : Root) (calls : List EngineCall) : Bool × List Event :=
  match r.phase with
  | .mounted => (true, calls.map .engine)
  | _ => (false, [])

end Root
end ChartTree.Chart
