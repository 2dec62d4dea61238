import ChartTree.Chart.Error
import ChartTree.Text.Blank
import ChartTree.Value

/-! Chart options, the container that a surface is asked for, and the interactions of a drawn chart. -/
namespace ChartTree.Chart

structure Options where
  width : Number
  height : Number
  className : String
  style : Map Value
  engineOptions : Map Value

structure Container where
  width : Number
  height : Number
  className : String
  style : Map Value

structure Interaction where
  event : String
  mark : Option String
  datum : Value

namespace Options

def defaultWidth : Number := .ofInt 600
def defaultHeight : Number := .ofInt 300

def containerClass : String := "vizir-chart"

def default : Options := ⟨defaultWidth, defaultHeight, "", .empty, .empty⟩

instance : Inhabited Options := ⟨default⟩

def withSize (o : Options) (width height : Number) : Options := { o with width, height }

def withClassName (o : Options) (className : String) : Options := { o with className }

def withStyle (o : Options) (key : String) (value : Value) : Options :=
  { o with style := o.style.insert key value }

def withEngineOption (o : Options) (key : String) (value : Value) : Options :=
  { o with engineOptions := o.engineOptions.insert key value }

def size (o : Options) : Except Error (Number × Number) :=
  if o.width.isExtent && o.height.isExtent then .ok (o.width, o.height)
  else .error (.invalidSize o.width o.height)

def fullClass (className : String) : String :=
  let extra := Text.trim className
  if extra = "" then containerClass else containerClass ++ " " ++ extra

def defaultStyle : Map Value :=
  .ofList [("display", .string "block"), ("width", .string "100%"), ("height", .string "100%")]

def container (o : Options) : Except Error Container := do
  let (width, height) ← o.size
  return ⟨width, height, fullClass o.className, defaultStyle.overlay o.style⟩

def rootAttributes (o : Options) : Map Value :=
  (o.engineOptions.insert "width" (.number o.width)).insert "height" (.number o.height)

def same (a b : Options) : Bool :=
  a.width.same b.width && a.height.same b.height && a.className == b.className &&
    Value.sameMap a.style b.style && Value.sameMap a.engineOptions b.engineOptions

theorem containerSize (o : Options) : o.container =
    o.size.map fun size => ⟨size.1, size.2, fullClass o.className, defaultStyle.overlay o.style⟩ := by
  rw [container]
  cases o.size <;> rfl

end Options
end ChartTree.Chart
