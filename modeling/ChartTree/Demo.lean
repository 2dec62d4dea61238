import ChartTree.Chart.Run
import ChartTree.Json.Writer
import ChartTree.Node.Catalogue
import ChartTree.Text.Diagnostic

/-! A chart of letter frequencies from its first declaration to its end, on an engine that prints what it
is given. -/
namespace ChartTree.Demo
open Chart

inductive Output where
  | line (text : String)
  | spec (value : Value)

def Output.text : Output → String
  | line text => text
  | spec value => Json.pretty value

def lettersAddress : String :=
  "https://gw.alipayobjects.com/os/bmw-prod/fb9db6b7-23a5-4c23-bbef-c54a55fee580.csv"

def interval : Node := .ofTag (.mark .interval)

def int (i : Int) : Value := .number (.ofInt i)

def letters (sorted : Bool) : Node :=
  let bars := interval.withChildren
    [(Node.title "test title").withProp "align" (.string "center"),
      .encoding .field "x" (.string "letter"),
      .encoding .field "y" (.string "frequency"),
      .encoding .field "color" (.string "letter")]
  let order := ((Node.ofTag (.transform .sortX)).withProp "reverse" (.bool true)).withProp "by" (.string "y")
  let pie := ((interval.withProps [("x", int 300), ("y", int 65), ("width", int 300), ("height", int 300)]).withProp
    "legend" (.bool false)).withChildren
    [.encoding .field "y" (.string "frequency"),
      .encoding .field "color" (.string "letter"),
      .ofTag (.transform .stackY),
      .ofTag (.coordinate .theta)]
  (Node.ofTag (.view .spaceLayer)).withChildren
    [.fetchedData lettersAddress (some .csv), if sorted then bars.withChild order else bars, pie]

def sale (genre : String) (sold : Int) : Value :=
  .object (.ofList [("genre", .string genre), ("sold", int sold)])

def sales : Node :=
  (interval.withProp "data" (.array
    [sale "Sports" 275, sale "Strategy" 115, sale "Action" 120, sale "Shooter" 350, sale "Other" 150])).withChildren
    [.encoding .field "x" (.string "genre"), .encoding .field "y" (.string "sold")]

def click : Interaction := ⟨"click", some "interval", .object (.ofList [("letter", .string "E")])⟩

def root : Root :=
  (Root.ofOptions (Options.default.withSize (.ofInt 640) (.ofInt 480))).withHooks
    ⟨some "before", some "after", some "element"⟩

def operations : List Operation :=
  [.mount none, .setChildren [letters true], .dispatch click, .setChildren [letters false],
    .setChildren [sales], .unmount]

def print : Nat → List Event → List Output
  | _, [] => []
  | pushes, .engine (.create container _) :: rest =>
    .line ("create " ++ Layout.plain.named container.width ++ "x" ++ Layout.plain.named container.height ++
      " in <div class=\"" ++ container.className ++ "\">") :: print pushes rest
  | pushes, .engine (.options spec) :: rest =>
    .line ("options #" ++ (pushes + 1).repr ++ ":") :: .spec spec :: print (pushes + 1) rest
  | pushes, .engine .render :: rest => .line ("render #" ++ pushes.repr) :: print pushes rest
  | pushes, .engine .destroy :: rest =>
    .line ("destroy after " ++ pushes.repr ++ " pushes") :: print pushes rest
  | pushes, .hook (.before _ spec) :: rest =>
    .line ("before render: " ++ ((spec.get? typeKey).bind Value.string?).getD "?") :: print pushes rest
  | pushes, .hook (.after _) :: rest => .line "after render" :: print pushes rest
  | pushes, .hook (.interaction _ what) :: rest =>
    .line ("element " ++ what.event ++ ": " ++ Text.diagnosticOption what.mark ++ " " ++
      Text.diagnostic what.datum) :: print pushes rest
  | pushes, .log _ :: rest => print pushes rest

def outputs : List Output := print 0 (root.allEvents operations)

end ChartTree.Demo
