import ChartTree.Node

/-! Ready-made nodes: channel encodings, axes, titles and data. -/
namespace ChartTree

inductive Axis where
  | x | y | z
  deriving DecidableEq, Repr

def Axis.kind : Axis → ComponentKind
  | x => .axisX
  | y => .axisY
  | z => .axisZ

inductive Encoder where
  | encode | field | constant | column | transform | custom
  deriving DecidableEq, Repr

def Encoder.kind : Encoder → EncodeKind
  | encode | field => .field
  | constant => .constant
  | column => .column
  | transform => .transform
  | custom => .custom

inductive DataFormat where
  | csv | json
  deriving DecidableEq, Repr

def DataFormat.name : DataFormat → String
  | csv => "csv"
  | json => "json"

def DataFormat.ofName? : String → Option DataFormat
  | "csv" => some csv
  | "json" => some json
  | _ => none

namespace Node

def named (tag : Tag) (name : String) (value : Value) : Node :=
  ((ofTag tag).withProp nameKey (.string name)).withProp valueKey value

def encoding (kind : EncodeKind) (channel : String) (value : Value) : Node := named (.encode kind) channel value

def axis (a : Axis) (channel : String) (options : Value) : Node := named (.component a.kind) channel options

def title (text : String) : Node := (ofTag (.component .title)).withProp "title" (.string text)

def inlineData (values : Value) : Node := (ofTag (.data .inline)).withProp valueKey values

def fetchedData (url : String) (format : Option DataFormat) : Node :=
  let node := (ofTag (.data .fetch)).withProp valueKey (.string url)
  match format with
  | some format => node.withProp "format" (.string format.name)
  | none => node

end Node

end ChartTree
