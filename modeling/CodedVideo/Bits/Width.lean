/-!
# Widths of fixed-length codes

How many bits tell a number of values apart, and how many values a number of bits
tells apart.
-/

namespace CodedVideo

/-- The number of values of `n` bits, two to the power of `n`. -/
def pow2 (n : Nat) : Nat := Nat.pow 2 n

/-- The least number of bits that tells `n` values apart. -/
def ceilLog2 (n : Nat) : Nat := if n ≤ 1 then 0 else (n - 1).log2 + 1

/-- The least number of parts of size `d` that cover `n`. -/
def ceilDiv (n d : Nat) : Nat := (n + d - 1) / d

end CodedVideo
