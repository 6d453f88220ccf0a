/-!
# Single-precision numbers

A number in the 32-bit binary format, held as its bits. Two numbers are the same when they
compare equal: a NaN is not the same as itself, and the two zeros are the same.
-/
namespace TokenGraph

structure Binary32 where
  bits : UInt32
  deriving DecidableEq

namespace Binary32

def one : Binary32 := ⟨0x3F800000⟩
def infinity : Binary32 := ⟨0x7F800000⟩
def nan : Binary32 := ⟨0x7FC00000⟩

def magnitude (x : Binary32) : UInt32 := x.bits &&& 0x7FFFFFFF

def isNaN (x : Binary32) : Bool := 0x7F800000 < x.magnitude

def negated (x : Binary32) : Binary32 := ⟨x.bits ^^^ 0x80000000⟩

def same (x y : Binary32) : Bool :=
  !x.isNaN && !y.isNaN && (x.bits = y.bits || (x.magnitude = 0 && y.magnitude = 0))

end Binary32

end TokenGraph
