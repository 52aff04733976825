import TimingSweep.Number.Binary64

/-!
# Elementary functions

The natural logarithm and powers of doubles. Both come from the machine's mathematical functions, so
their last place is the machine's choice and not always the nearest one; where they are defined is
decided here.
-/

namespace TimingSweep.Binary64

def toFloat (x : Binary64) : Float := .ofBits x.toBits

def ofFloat (f : Float) : Binary64 := .ofBits f.toBits

/-- The natural logarithm. -/
def ln (x : Binary64) : Binary64 :=
  if x.isNaN then nan
  else if x.isZero then infinity true
  else if x.negative then nan
  else ofFloat x.toFloat.log

def pow (x : Binary64) (exponent : Int) : Binary64 := ofFloat (x.toFloat.pow (.ofInt exponent))

end TimingSweep.Binary64
