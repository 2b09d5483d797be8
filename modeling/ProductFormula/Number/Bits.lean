/-
  The 64-bit pattern of a number.

  Below `2^52` steps a magnitude is its own pattern; above, the pattern counts
  the binary places dropped in its upper part and adds what is left of the
  magnitude, whose leading bit counts one more place.

  * `Number.toBits` and `Number.ofBits` write and read the pattern; every NaN
    has one pattern.
-/
import ProductFormula.Number.Basic

namespace ProductFormula.Number

/-- The lower 63 bits of a magnitude. -/
def magnitudeBits (units : Nat) : Nat :=
  let places := units.log2 - 52
  places * Nat.pow 2 52 + units / Nat.pow 2 places

/-- The lower 63 bits of an infinity. -/
def infinityBits : Nat := 0x7ff * Nat.pow 2 52

/-- The bit of the sign. -/
def signBit (negative : Bool) : Nat := if negative then Nat.pow 2 63 else 0

def toBits : Number → UInt64
  | nan => 0x7ff8000000000000
  | infinite negative => .ofNat (signBit negative + infinityBits)
  | finite negative units _ => .ofNat (signBit negative + magnitudeBits units)

/-- The magnitude with the given lower 63 bits, of those of finite numbers. -/
def unitsOfBits (bits : Nat) : Nat :=
  let places := bits / Nat.pow 2 52
  if places = 0 then bits else (Nat.pow 2 52 + bits % Nat.pow 2 52) * Nat.pow 2 (places - 1)

def ofBits (bits : UInt64) : Number :=
  let negative := decide (Nat.pow 2 63 ≤ bits.toNat)
  let lower := bits.toNat % Nat.pow 2 63
  if infinityBits < lower then nan
  else if lower = infinityBits then infinite negative
  else nearest negative (unitsOfBits lower) 1

end ProductFormula.Number
