/-
Ordinals of bind markers.

Markers are numbered from zero in the order in which they are met.  A batch and the statements in it
share one numbering.
-/
namespace Cql

/-- How many markers were numbered so far. -/
structure BindMarkers where
  count : Nat
  deriving DecidableEq

namespace BindMarkers

def none : BindMarkers := ⟨0⟩

/-- The ordinal of the next marker. -/
def next (markers : BindMarkers) : Nat × BindMarkers := (markers.count, ⟨markers.count + 1⟩)

/-- The ordinal given last. -/
def latest? (markers : BindMarkers) : Option Nat :=
  if markers.count = 0 then .none else some (markers.count - 1)

end BindMarkers

end Cql
