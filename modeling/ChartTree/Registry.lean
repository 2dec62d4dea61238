import ChartTree.Tag

/-! The default slots of child tags. A registry is a version and a table; it is made by steps, and the
last step that mentions a tag decides its slot. A tag that is not mentioned uses its own variant name. -/
namespace ChartTree

structure Registry where
  version : UInt32
  get : Tag → Option String

namespace Registry

def empty (version : UInt32) : Registry := ⟨version, fun _ => none⟩

def slot (r : Registry) (tag : Tag) (key : String) : Registry :=
  ⟨r.version, fun t => if t = tag then some key else r.get t⟩

def entries (r : Registry) : List (Tag × String) :=
  Tag.all.filterMap fun tag => (r.get tag).map (tag, ·)

def extendFrom (r base : Registry) : Registry :=
  base.entries.foldl (fun r entry => r.slot entry.1 entry.2) r

def defaultSlot (r : Registry) (tag : Tag) : String := (r.get tag).getD tag.variant

def size (r : Registry) : Nat := r.entries.length

def isEmpty (r : Registry) : Bool := r.entries.isEmpty

def standardVersion : UInt32 := 1

def standardSlot : Tag → String
  | .view _ | .mark _ => "children"
  | .data _ => "data"
  | .encode _ => "encode"
  | .transform _ => "transform"
  | .coordinate _ => "coordinate"
  | .component .axisX | .component .axisY | .component .axisZ => "axis"
  | .component kind => kind.name

def standard : Registry :=
  Tag.all.foldl (fun r tag => r.slot tag (standardSlot tag)) (empty standardVersion)

instance : Inhabited Registry := ⟨standard⟩

def same (a b : Registry) : Bool :=
  a.version == b.version && Tag.all.all fun tag => a.get tag == b.get tag

inductive Step where
  | slot (tag : Tag) (key : String)
  | extend (base : Registry)

def apply (r : Registry) : Step → Registry
  | .slot tag key => r.slot tag key
  | .extend base => r.extendFrom base

def build (version : UInt32) (steps : List Step) : Registry := steps.foldl apply (empty version)

theorem getSlot (r : Registry) (tag : Tag) (key : String) (t : Tag) :
    (r.slot tag key).get t = if t = tag then some key else r.get t := rfl

theorem sameEq (a b : Registry) : a.same b = true ↔ a = b := by
  constructor
  · intro h
    simp only [same, Bool.and_eq_true, beq_iff_eq, List.all_eq_true] at h
    obtain ⟨version, get⟩ := a
    obtain ⟨version', get'⟩ := b
    have slots : get = get' := funext fun tag => h.2 tag (Tag.memAll tag)
    simp_all
  · rintro rfl
    simp [same]

theorem getStandard (tag : Tag) : standard.get tag = some (standardSlot tag) := by
  suffices general : ∀ (tags : List Tag) (r : Registry),
      (tags.foldl (fun r tag => r.slot tag (standardSlot tag)) r).get tag =
        if tag ∈ tags then some (standardSlot tag) else r.get tag by
    rw [standard, general, if_pos (Tag.memAll tag)]
  intro tags
  induction tags with
  | nil => intro r; simp
  | cons first rest ih =>
    intro r
    rw [List.foldl_cons, ih, getSlot]
    by_cases later : tag ∈ rest <;> by_cases here : tag = first <;> simp_all

end Registry
end ChartTree
