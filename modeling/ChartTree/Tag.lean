/-! Type tags: a category and a variant within it. Views arrange marks and other views, data say what is
drawn, encodings bind channels, components are guides and controls. Tags are written `category/variant`,
since two categories may use one variant name, and they are ordered as declared. -/
namespace ChartTree

inductive Category where
  | view | data | mark | encode | transform | coordinate | component
  deriving DecidableEq, Repr, Ord

inductive ViewKind where
  | view | geoView | geoPath | spaceLayer | spaceFlex | facetRect | repeatMatrix | facetCircle
  | timingKeyframe
  deriving DecidableEq, Repr, Ord

inductive DataKind where
  | inline | fetch
  deriving DecidableEq, Repr, Ord

inductive MarkKind where
  | interval | rect | line | point | text | lineX | lineY | range | rangeX | rangeY | connector
  | cell | area | node | edge | link | image | polygon | box | boxplot | shape | vector
  | sankey | path | treemap | pack | forceGraph | tree | wordCloud | gauge | density | heatmap
  | liquid | custom
  deriving DecidableEq, Repr, Ord

inductive EncodeKind where
  | constant | field | column | transform | custom
  deriving DecidableEq, Repr, Ord

inductive TransformKind where
  | dodgeX | stackY | normalizeY | jitter | jitterX | stackEnter | symmetryY | diffY | select
  | selectX | selectY | sortColor | sortX | sortY | flexX | pack | groupX | groupY | groupColor
  | group | binX | bin | sample | filter
  deriving DecidableEq, Repr, Ord

inductive CoordinateKind where
  | polar | helix | radar | theta | radial | cartesian | cartesian3D | parallel | geo
  deriving DecidableEq, Repr, Ord

inductive ComponentKind where
  | axisX | axisY | axisZ | title | legends | slider | scrollbar | tooltip
  deriving DecidableEq, Repr, Ord

inductive Tag where
  | view (kind : ViewKind)
  | data (kind : DataKind)
  | mark (kind : MarkKind)
  | encode (kind : EncodeKind)
  | transform (kind : TransformKind)
  | coordinate (kind : CoordinateKind)
  | component (kind : ComponentKind)
  deriving DecidableEq, Repr, Ord

namespace Category

def all : List Category := [view, data, mark, encode, transform, coordinate, component]

def name : Category → String
  | view => "view"
  | data => "data"
  | mark => "mark"
  | encode => "encode"
  | transform => "transform"
  | coordinate => "coordinate"
  | component => "component"

def ofName? (text : String) : Option Category := all.find? fun c => c.name == text

end Category

namespace ViewKind

def all : List ViewKind :=
  [view, geoView, geoPath, spaceLayer, spaceFlex, facetRect, repeatMatrix, facetCircle,
  timingKeyframe]

def name : ViewKind → String
  | view => "view"
  | geoView => "geoView"
  | geoPath => "geoPath"
  | spaceLayer => "spaceLayer"
  | spaceFlex => "spaceFlex"
  | facetRect => "facetRect"
  | repeatMatrix => "repeatMatrix"
  | facetCircle => "facetCircle"
  | timingKeyframe => "timingKeyframe"

end ViewKind

namespace DataKind

def all : List DataKind :=
  [inline, fetch]

def name : DataKind → String
  | inline => "inline"
  | fetch => "fetch"

end DataKind

namespace MarkKind

def all : List MarkKind :=
  [interval, rect, line, point, text, lineX, lineY, range, rangeX, rangeY, connector, cell, area,
  node, edge, link, image, polygon, box, boxplot, shape, vector, sankey, path, treemap, pack,
  forceGraph, tree, wordCloud, gauge, density, heatmap, liquid, custom]

def name : MarkKind → String
  | interval => "interval"
  | rect => "rect"
  | line => "line"
  | point => "point"
  | text => "text"
  | lineX => "lineX"
  | lineY => "lineY"
  | range => "range"
  | rangeX => "rangeX"
  | rangeY => "rangeY"
  | connector => "connector"
  | cell => "cell"
  | area => "area"
  | node => "node"
  | edge => "edge"
  | link => "link"
  | image => "image"
  | polygon => "polygon"
  | box => "box"
  | boxplot => "boxplot"
  | shape => "shape"
  | vector => "vector"
  | sankey => "sankey"
  | path => "path"
  | treemap => "treemap"
  | pack => "pack"
  | forceGraph => "forceGraph"
  | tree => "tree"
  | wordCloud => "wordCloud"
  | gauge => "gauge"
  | density => "density"
  | heatmap => "heatmap"
  | liquid => "liquid"
  | custom => "custom"

end MarkKind

namespace EncodeKind

def all : List EncodeKind :=
  [constant, field, column, transform, custom]

def name : EncodeKind → String
  | constant => "constant"
  | field => "field"
  | column => "column"
  | transform => "transform"
  | custom => "custom"

end EncodeKind

namespace TransformKind

def all : List TransformKind :=
  [dodgeX, stackY, normalizeY, jitter, jitterX, stackEnter, symmetryY, diffY, select, selectX,
  selectY, sortColor, sortX, sortY, flexX, pack, groupX, groupY, groupColor, group, binX, bin,
  sample, filter]

def name : TransformKind → String
  | dodgeX => "dodgeX"
  | stackY => "stackY"
  | normalizeY => "normalizeY"
  | jitter => "jitter"
  | jitterX => "jitterX"
  | stackEnter => "stackEnter"
  | symmetryY => "symmetryY"
  | diffY => "diffY"
  | select => "select"
  | selectX => "selectX"
  | selectY => "selectY"
  | sortColor => "sortColor"
  | sortX => "sortX"
  | sortY => "sortY"
  | flexX => "flexX"
  | pack => "pack"
  | groupX => "groupX"
  | groupY => "groupY"
  | groupColor => "groupColor"
  | group => "group"
  | binX => "binX"
  | bin => "bin"
  | sample => "sample"
  | filter => "filter"

end TransformKind

namespace CoordinateKind

def all : List CoordinateKind :=
  [polar, helix, radar, theta, radial, cartesian, cartesian3D, parallel, geo]

def name : CoordinateKind → String
  | polar => "polar"
  | helix => "helix"
  | radar => "radar"
  | theta => "theta"
  | radial => "radial"
  | cartesian => "cartesian"
  | cartesian3D => "cartesian3D"
  | parallel => "parallel"
  | geo => "geo"

end CoordinateKind

namespace ComponentKind

def all : List ComponentKind :=
  [axisX, axisY, axisZ, title, legends, slider, scrollbar, tooltip]

def name : ComponentKind → String
  | axisX => "axisX"
  | axisY => "axisY"
  | axisZ => "axisZ"
  | title => "title"
  | legends => "legends"
  | slider => "slider"
  | scrollbar => "scrollbar"
  | tooltip => "tooltip"

end ComponentKind

namespace Tag

def all : List Tag :=
  ViewKind.all.map view ++
  DataKind.all.map data ++
  MarkKind.all.map mark ++
  EncodeKind.all.map encode ++
  TransformKind.all.map transform ++
  CoordinateKind.all.map coordinate ++
  ComponentKind.all.map component

def category : Tag → Category
  | view _ => .view
  | data _ => .data
  | mark _ => .mark
  | encode _ => .encode
  | transform _ => .transform
  | coordinate _ => .coordinate
  | component _ => .component

def variant : Tag → String
  | view kind => kind.name
  | data kind => kind.name
  | mark kind => kind.name
  | encode kind => kind.name
  | transform kind => kind.name
  | coordinate kind => kind.name
  | component kind => kind.name

def defaultView : Tag := view .view

def isView : Tag → Bool
  | view _ => true
  | _ => false

def label (tag : Tag) : String := tag.category.name ++ "/" ++ tag.variant

def find? (category : Category) (variant : String) : Option Tag :=
  all.find? fun tag => tag.category == category && tag.variant == variant

def ofCategory (category : Category) : List Tag := all.filter fun tag => tag.category == category

inductive Unknown where
  | category (text : String)
  | tag (text : String)
  deriving DecidableEq, Repr

/-- Reads `category/variant`, split at the first slash; the category is looked up first. -/
def ofLabel (text : String) : Except Unknown Tag :=
  let (front, back) := text.toList.span (· != '/')
  let name := String.ofList front
  match Category.ofName? name with
  | none => .error (.category name)
  | some category =>
    match find? category (String.ofList (back.drop 1)) with
    | none => .error (.tag text)
    | some tag => .ok tag

def sort (tags : List Tag) : List Tag := tags.mergeSort fun a b => (compare a b).isLE

theorem memAll (tag : Tag) : tag ∈ all := by
  cases tag with
  | view kind => cases kind <;> decide
  | data kind => cases kind <;> decide
  | mark kind => cases kind <;> decide
  | encode kind => cases kind <;> decide
  | transform kind => cases kind <;> decide
  | coordinate kind => cases kind <;> decide
  | component kind => cases kind <;> decide

theorem allNodup : all.Nodup := by decide +kernel

end Tag
end ChartTree
