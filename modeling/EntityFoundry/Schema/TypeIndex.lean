import EntityFoundry.Component.Tag
/-! The component types of an asset by number. A type's number is its position in the list of
names an application supplies; a name that occurs again is found at its first position. Positions
are 64-bit numbers, so a name that comes after them all has none. -/
namespace EntityFoundry

structure TypeIndex where
  tags : List Tag := []
  addressable : tags.length ≤ UInt64.size := by exact Nat.le_of_ble_eq_true rfl
  deriving DecidableEq, Repr

namespace TypeIndex

def empty : TypeIndex := ⟨[], Nat.zero_le UInt64.size⟩

def ofNames (names : List String) : TypeIndex where
  tags := (names.take UInt64.size).map Tag.ofName
  addressable := by
    rw [List.length_map]
    exact List.length_take_le UInt64.size names

def get? (types : TypeIndex) (i : Nat) : Option Tag := types.tags[i]?

def indexOf? (types : TypeIndex) (tag : Tag) : Option Nat :=
  types.tags.findIdx? fun t => decide (t = tag)

def size (types : TypeIndex) : Nat := types.tags.length

def isEmpty (types : TypeIndex) : Bool := types.tags.isEmpty

theorem getIndexOf {types : TypeIndex} {tag : Tag} {i : Nat}
    (found : types.indexOf? tag = some i) : types.get? i = some tag := by
  obtain ⟨h, p, _⟩ := List.findIdx?_eq_some_iff_getElem.mp found
  simpa [get?, List.getElem?_eq_getElem h] using p

theorem indexOfBound {types : TypeIndex} {tag : Tag} {i : Nat}
    (found : types.indexOf? tag = some i) : i < UInt64.size := by
  obtain ⟨inside, _⟩ := List.findIdx?_eq_some_iff_getElem.mp found
  exact Nat.lt_of_lt_of_le inside types.addressable

theorem indexOfMem {types : TypeIndex} {tag : Tag} :
    (types.indexOf? tag).isSome ↔ tag ∈ types.tags := by
  simp [indexOf?]

end TypeIndex
end EntityFoundry
