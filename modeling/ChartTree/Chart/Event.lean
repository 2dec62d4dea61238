import ChartTree.Chart.Options
import ChartTree.Compile.Notice

/-! What a chart does that can be seen from outside: calls to its surface and engine, calls to hooks, and
log lines. -/
namespace ChartTree.Chart

inductive EngineCall where
  | create (container : Container) (refusal : Option SurfaceError)
  | options (spec : Value)
  | render
  | destroy

inductive HookCall where
  | before (hook : String) (spec : Value)
  | after (hook : String)
  | interaction (hook : String) (what : Interaction)

inductive Report where
  | compile (notice : Notice)
  | alreadyMounted
  | refused (cause : SurfaceError)
  | mounted (width height : Number)
  | nothingDeclared
  | pushing (nodes : Nat)
  | interaction (event : String)
  | destroyed
  | dropped
  | usedAfterDestroy (operation : String)
  deriving DecidableEq, Repr

def Report.line : Report → Log.Line
  | compile notice => notice.line
  | alreadyMounted => ⟨.warn, "mount called on a mounted chart root", []⟩
  | refused cause =>
    ⟨.debug, "engine creation failed; chart root stays unmounted", [("err", .text cause.message)]⟩
  | mounted width height =>
    ⟨.debug, "chart root mounted", [("width", .number width), ("height", .number height)]⟩
  | nothingDeclared => ⟨.trace, "nothing declared; push skipped", []⟩
  | pushing nodes => ⟨.debug, "pushing chart spec", [("nodes", .count nodes)]⟩
  | interaction event => ⟨.trace, "element interaction", [("event", .text event)]⟩
  | destroyed => ⟨.debug, "chart root destroyed", []⟩
  | dropped => ⟨.debug, "chart root destroyed on drop", []⟩
  | usedAfterDestroy operation => ⟨.warn, "chart root used after destroy", [("op", .text operation)]⟩

inductive Event where
  | engine (call : EngineCall)
  | hook (call : HookCall)
  | log (report : Report)

namespace Event

def engine? : Event → Option EngineCall
  | engine call => some call
  | _ => none

def hook? : Event → Option HookCall
  | hook call => some call
  | _ => none

end Event

def engineCalls (events : List Event) : List EngineCall := events.filterMap Event.engine?

def hookCalls (events : List Event) : List HookCall := events.filterMap Event.hook?

structure Drawing where
  spec : Option Value
  renders : Nat

def Drawing.after : Option Drawing → EngineCall → Option Drawing
  | _, .create _ none => some ⟨none, 0⟩
  | d, .create _ (some _) => d
  | d, .options spec => d.map fun d => ⟨some spec, d.renders⟩
  | d, .render => d.map fun d => ⟨d.spec, d.renders + 1⟩
  | _, .destroy => none

def Drawing.through (d : Option Drawing) (events : List Event) : Option Drawing :=
  (engineCalls events).foldl Drawing.after d

end ChartTree.Chart
