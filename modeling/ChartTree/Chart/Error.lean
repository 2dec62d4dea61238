import ChartTree.Number.Layout

/-! What can go wrong with a chart: misuse of its life cycle, a size that cannot be drawn, and a surface
that gives no engine. Trees are never at fault. -/
namespace ChartTree.Chart

inductive SurfaceError where
  | unavailable
  | backend (reason : String)
  deriving DecidableEq, Repr

def SurfaceError.message : SurfaceError → String
  | unavailable => "drawing surface is unavailable"
  | backend reason => "engine creation failed: " ++ reason

inductive Error where
  | alreadyMounted
  | notMounted
  | destroyed
  | invalidSize (width height : Number)
  | surface (cause : SurfaceError)
  deriving DecidableEq, Repr

def Error.message : Error → String
  | alreadyMounted => "chart root is already mounted"
  | notMounted => "chart root is not mounted"
  | destroyed => "chart root was destroyed"
  | invalidSize width height =>
    "invalid chart size " ++ Layout.plain.named width ++ "x" ++ Layout.plain.named height
  | surface cause => cause.message

end ChartTree.Chart
