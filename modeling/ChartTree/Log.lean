import ChartTree.Number

/-! Log lines: a level, a fixed message and fields in which the particulars stand. -/
namespace ChartTree.Log

inductive Level where
  | trace
  | debug
  | warn
  deriving DecidableEq, Repr

def Level.label : Level → String
  | trace => "TRACE"
  | debug => "DEBUG"
  | warn => "WARN"

inductive Field where
  | text (s : String)
  | count (n : Nat)
  | number (n : Number)
  deriving DecidableEq, Repr

structure Line where
  level : Level
  message : String
  fields : List (String × Field)
  deriving DecidableEq, Repr

end ChartTree.Log
