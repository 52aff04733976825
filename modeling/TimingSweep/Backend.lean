/-!
# Backends

A backend is an implementation of the algorithms, known by its label. The primary one is what is
measured; the others are its competitors.
-/

namespace TimingSweep.Backend

def compute : String := "compute"

def stl : String := "stl"

def tbb : String := "tbb"

def thrust : String := "thrust"

/-- The label under which the measurements of the primary implementation are kept. -/
def primary : String := compute

/-- The name of a backend in a legend. -/
def displayLabel (label : String) : String :=
  if label = compute then "Boost.Compute"
  else if label = stl then "C++ STL"
  else if label = tbb then "Intel TBB"
  else if label = thrust then "Thrust"
  else label

end TimingSweep.Backend
