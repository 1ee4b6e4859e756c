import BeatShield.Number.Scalar

/-! # Binary — what a double stands for, and the arithmetic played in

    A double is a sign, a whole mantissa and a power of two, or one of
    the three values beyond the finite ones.  `Binary` is that reading;
    texts and integer parts are taken from it in exact integer
    arithmetic, and no rounding comes in between.

      * `Binary.ofBits` splits the 64 bits.
      * `Binary.truncate` is the integer part.
      * `FitsDouble` is the range of integers that round to a double, and
        `nearestDouble` is that double. -/

namespace BeatShield

/-! ## Powers

    A double is scaled by powers of two and its texts by powers of ten, all
    of them whole numbers. -/

/-- Two to the power of `n`. -/
def twoTo (n : Nat) : Nat := Nat.pow 2 n

/-- Ten to the power of `n`. -/
def tenTo (n : Nat) : Nat := Nat.pow 10 n

/-! ## Values -/

/-- The value of a double: `finite s m e` is `m * 2 ^ e`, negated if `s`. -/
inductive Binary where
  | nan
  | infinite (negative : Bool)
  | finite (negative : Bool) (mantissa : Nat) (exponent : Int)
  deriving DecidableEq, Repr

namespace Binary

/-- The value that 64 bits encode: one sign bit, eleven bits of exponent
    and 52 of fraction. -/
def ofBits (bits : UInt64) : Binary :=
  let n := bits.toNat
  let negative := decide (twoTo 63 ≤ n)
  let field : Nat := n / twoTo 52 % twoTo 11
  let fraction : Nat := n % twoTo 52
  if field = 2047 then
    if fraction = 0 then .infinite negative else .nan
  else if field = 0 then .finite negative fraction (-1074)
  else .finite negative (twoTo 52 + fraction) ((field : Int) - 1075)

/-- The value of a double. -/
def ofFloat (x : Float) : Binary := ofBits x.toBits

/-- The integer part, rounding towards zero. -/
def truncate : Binary → Except NumberError Int
  | .nan => .error .nanToInt
  | .infinite _ => .error .infinityToInt
  | .finite negative mantissa exponent =>
      let size := mantissa * twoTo exponent.toNat / twoTo (-exponent).toNat
      .ok (if negative then -(size : Int) else size)

end Binary

/-- The integers that round to a double below 2^1024.  The bound is half
    a step above the largest double, where rounding would go up. -/
def FitsDouble (n : Int) : Prop := n.natAbs < twoTo 1024 - twoTo 970

instance (n : Int) : Decidable (FitsDouble n) :=
  inferInstanceAs (Decidable (_ < _))

/-- The double nearest to an integer; of two equally near the one with the
    even mantissa. -/
def nearestDouble (n : Int) : Float := .ofModel (.ofInt n)

/-! ## The arithmetic played in -/

instance : Scalar Float where
  decLt := inferInstance
  decLe := inferInstance
  ofInt n := if FitsDouble n then .ok (nearestDouble n) else .error .intTooLarge
  truncate x := (Binary.ofFloat x).truncate

instance : Trig Float where
  pi := 3.141592653589793
  cos := Float.cos
  sin := Float.sin

end BeatShield
