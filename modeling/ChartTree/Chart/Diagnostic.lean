import ChartTree.Chart.Root
import ChartTree.Text.Diagnostic

/-! Diagnostic text of a chart root. Hooks appear by whether they are there, the tree by its size. -/
namespace ChartTree.Chart

def Phase.label : Phase → String
  | unmounted => "Unmounted"
  | mounted => "Mounted"
  | destroyed => "Destroyed"

def labelled (name : String) (parts : List (String × String)) (unfinished : Bool) : String :=
  let texts := parts.map fun part => part.1 ++ ": " ++ part.2
  name ++ " \x7b " ++ ", ".intercalate (if unfinished then texts ++ [".."] else texts) ++ " \x7d"

def Hooks.diagnostic (h : Hooks) : String :=
  labelled "Hooks" [("before_render", Text.diagnosticBool h.before.isSome),
    ("after_render", Text.diagnosticBool h.after.isSome),
    ("element_interaction", Text.diagnosticBool h.interaction.isSome)] false

def Options.diagnostic (o : Options) : String :=
  labelled "ChartOptions" [("width", Layout.diagnostic.named o.width), ("height", Layout.diagnostic.named o.height),
    ("class_name", Text.diagnosticString o.className), ("style", Text.diagnosticMap o.style),
    ("engine_options", Text.diagnosticMap o.engineOptions)] false

def Root.diagnostic (r : Root) : String :=
  labelled "ChartRoot" [("state", r.phase.label), ("options", r.options.diagnostic),
    ("hooks", r.hooks.diagnostic), ("top_level", r.topLevel.length.repr)] true

end ChartTree.Chart
