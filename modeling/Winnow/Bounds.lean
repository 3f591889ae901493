/-!
# Bounds of numbers

The greatest and least numbers of 32 and of 64 bits, and powers of ten.
-/

namespace Winnow.Bounds

/-- Least integer of 64 bits with a sign. -/
def int64Min : Int := -0x8000000000000000

/-- Greatest integer of 64 bits with a sign. -/
def int64Max : Int := 0x7FFFFFFFFFFFFFFF

/-- Greatest integer of 32 bits with a sign. -/
def int32Max : Nat := 0x7FFFFFFF

/-- Greatest integer of 64 bits without a sign. -/
def uint64Max : Nat := 0xFFFFFFFFFFFFFFFF

/-- Greatest integer of 32 bits without a sign. -/
def uint32Max : Nat := 0xFFFFFFFF

/-- Number of integers of 64 bits. -/
def uint64Count : Nat := uint64Max + 1

/-- A power of ten. -/
def tenTo (n : Nat) : Nat := Nat.pow 10 n

end Winnow.Bounds
