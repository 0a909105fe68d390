/-
# Integers in so many bytes

The bytes of a number, the highest first, and of a signed number, as two's complement.  What is
written is read back, within the range of the width.
-/
import Mathlib.Algebra.Order.Ring.Int

namespace BigEndian

/-- The number of some bytes. -/
def readNat (bytes : List UInt8) : Nat := bytes.foldl (fun n byte => n * 256 + byte.toNat) 0

/-- The numbers of a width, signed. -/
def Fits (w : Nat) (i : Int) : Prop := -(256 ^ w : Int) ≤ 2 * i ∧ 2 * i < 256 ^ w

instance (w : Nat) (i : Int) : Decidable (Fits w i) := inferInstanceAs (Decidable (_ ∧ _))

def readInt (bytes : List UInt8) : Int :=
  let n : Int := readNat bytes
  if 2 * n < 256 ^ bytes.length then n else n - 256 ^ bytes.length

end BigEndian
