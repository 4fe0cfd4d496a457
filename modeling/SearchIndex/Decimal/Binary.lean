/-!
# Binary floating-point encodings

A binary interchange format packs a sign, a biased exponent and a fraction into
one word. `Format.decode` reads the word as the datum it stands for: not a
number, an infinity, or a signed whole significand times a power of two, which
is exact for every finite encoding.
-/

namespace SearchIndex.Decimal

/-- A power of two. -/
def twoTo (n : Nat) : Nat :=
  Nat.pow 2 n

/-- A binary interchange format, by the widths of its two lower fields. -/
structure Format where
  exponentBits : Nat
  fractionBits : Nat
  deriving DecidableEq, Repr

/-- The format of 32 bits. -/
def Format.single : Format := ⟨8, 23⟩

/-- The format of 64 bits. -/
def Format.double : Format := ⟨11, 52⟩

/-- What an encoding stands for. A finite datum is `significand * 2 ^ exponent`
with the given sign, so zero has two of them. -/
inductive Datum where
  | nan
  | infinite (negative : Bool)
  | finite (negative : Bool) (significand : Nat) (exponent : Int)
  deriving DecidableEq, Repr

/-- The exponent of the last place of the smallest encodings of a format. -/
def Format.leastExponent (f : Format) : Int :=
  2 - (twoTo (f.exponentBits - 1) : Int) - f.fractionBits

/-- The datum that a word stands for. The all-ones exponent marks infinities and
not-a-number; the zero exponent has no hidden leading bit. -/
def Format.decode (f : Format) (word : Nat) : Datum :=
  let fraction := word % twoTo f.fractionBits
  let exponent := word / twoTo f.fractionBits % twoTo f.exponentBits
  let negative := word / twoTo (f.fractionBits + f.exponentBits) % 2 == 1
  if exponent + 1 = twoTo f.exponentBits then
    if fraction = 0 then .infinite negative else .nan
  else if exponent = 0 then
    .finite negative fraction f.leastExponent
  else
    .finite negative (twoTo f.fractionBits + fraction) (f.leastExponent + (exponent - 1))

/-- Whether a datum is less than zero; a negative zero is not. -/
def Datum.isNegative : Datum → Bool
  | .nan => false
  | .infinite negative => negative
  | .finite negative significand _ => negative && significand != 0

end SearchIndex.Decimal
