import ChartTree.Chart.Root

/-! Whole runs of a chart root: any operations in any order, and what they answer and cause. -/
namespace ChartTree.Chart

inductive Operation where
  | mount (refusal : Option SurfaceError)
  | setChildren (topLevel : List Node)
  | setOptions (options : Options)
  | refresh
  | compile
  | dispatch (what : Interaction)
  | setHooks (hooks : Hooks)
  | setRegistry (registry : Registry)
  | unmount

inductive Reply where
  | done
  | pushed (something : Bool)
  | spec (value : Option Value)

namespace Outcome
variable {α β : Type}

def map (f : α → β) (o : Outcome α) : Outcome β := ⟨o.root, o.result.map f, o.events⟩

end Outcome

namespace Root

def step (r : Root) : Operation → Outcome Reply
  | .mount refusal => (r.mount refusal).map fun _ => .done
  | .setChildren topLevel => (r.setChildren topLevel).map fun _ => .done
  | .setOptions options => (r.setOptions options).map fun _ => .done
  | .refresh => r.refresh.map .pushed
  | .compile => r.compile.map .spec
  | .dispatch what => (r.dispatch what).map fun _ => .done
  | .setHooks hooks => ⟨r.withHooks hooks, .ok .done, []⟩
  | .setRegistry registry => ⟨r.withRegistry registry, .ok .done, []⟩
  | .unmount => r.unmount.map fun _ => .done

def run (r : Root) : List Operation → List (Outcome Reply)
  | [] => []
  | op :: ops => r.step op :: (r.step op).root.run ops

def final (r : Root) : List Operation → Root
  | [] => r
  | op :: ops => (r.step op).root.final ops

def allEvents (r : Root) (ops : List Operation) : List Event :=
  (r.run ops).flatMap Outcome.events ++ (r.final ops).drop

end Root
end ChartTree.Chart
