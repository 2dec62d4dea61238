import ChartTree.Value

/-! Specifications: the objects that an engine draws. Every specification has a string under `type`, and
the type carries the proof. -/
namespace ChartTree

def typeKey : String := "type"

def Typed (entries : Map Value) : Prop := ∃ kind, entries.get? typeKey = some (.string kind)

structure Spec where
  entries : Map Value
  typed : Typed entries

inductive SpecError where
  | missingType
  deriving DecidableEq, Repr

def SpecError.message : SpecError → String
  | missingType => "specification has no string `type` entry"

namespace Spec

def ofEntries (entries : Map Value) : Except SpecError Spec :=
  match h : entries.get? typeKey with
  | some (.string kind) => .ok ⟨entries, kind, h⟩
  | _ => .error .missingType

def kind (s : Spec) : String := ((s.entries.get? typeKey).bind Value.string?).getD ""

def get? (s : Spec) (key : String) : Option Value := s.entries.get? key

def contains (s : Spec) (key : String) : Bool := s.entries.contains key

def size (s : Spec) : Nat := s.entries.size

def toValue (s : Spec) : Value := .object s.entries

def collection (s : Spec) (key : String) : List Value := ((s.get? key).bind Value.array?).getD []

def layeredOver (s : Spec) (base : Map Value) : Map Value := base.overlay s.entries

def same (a b : Spec) : Bool := Value.sameMap a.entries b.entries

theorem ofEntriesOk (entries : Map Value) (s : Spec) : ofEntries entries = .ok s ↔ s.entries = entries := by
  constructor
  · intro h
    unfold ofEntries at h
    split at h
    · cases h; rfl
    · cases h
  · rintro rfl
    obtain ⟨entries, kind, found⟩ := s
    unfold ofEntries
    split
    · rfl
    · rename_i other
      exact absurd found (other kind)

theorem getKind (s : Spec) : s.entries.get? typeKey = some (.string s.kind) := by
  obtain ⟨entries, kind, found⟩ := s
  simp [Spec.kind, found, Value.string?]

theorem getLayered (s : Spec) (base : Map Value) (key : String) :
    (s.layeredOver base).get? key = (s.get? key).or (base.get? key) := Entries.getOverlay base s.entries key

end Spec
end ChartTree
