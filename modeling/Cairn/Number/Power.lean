import Cairn.Number.Arithmetic

set_option autoImplicit false

/-!
Powers of doubles. The binary logarithm of the base is computed as a sum of two doubles, multiplied
by the exponent and raised again; the last bit of a power is what these steps round it to. Their
coefficients are those of the approximations to `log` and `exp` on short intervals around one and
zero, the longer constants being split into a head and a tail.
-/

namespace Cairn.Number

/-- A number as the sum of a double with a short mantissa and a small one. -/
structure Split where
  head : Float
  tail : Float

/-- A double with the lower half of its bits cleared, so that products of two of them are exact. -/
def upperHalf (x : Float) : Float := Float.ofBits (x.toBits &&& 0xFFFFFFFF00000000)

/-- The logarithm of a number within `2 ^ (-20)` of one, by its series. -/
def log2NearOne (x : Float) : Split :=
  let t := x - 1
  let w := (t * t) * (0.5 - t * (0.3333333333333333333333 - t * 0.25))
  let u := 1.44269502162933349609 * t
  let v := t * 1.92596299112661746887e-08 - w * 1.44269504088896338700
  let head := upperHalf (u + v)
  ⟨head, v - (head - u)⟩

/-- A positive number as `mantissa * 2 ^ exponent`, with the mantissa near the centre `1` or, where
`isUpper`, near `1.5`. -/
structure Reduced where
  mantissa : Float
  exponent : Int
  isUpper : Bool

def reduce (x : Float) : Reduced :=
  let isSmall := magnitude x < leadingBit
  let bits := magnitude (if isSmall then x * 9007199254740992 else x)
  let exponent : Int := (bits / leadingBit : Nat) - 1023 - (if isSmall then 53 else 0)
  let fraction := bits % leadingBit
  let step := fraction / 0x100000000
  if step ≤ 0x3988E then ⟨ofMagnitude false (1023 * leadingBit + fraction), exponent, false⟩
  else if step < 0xBB67A then ⟨ofMagnitude false (1023 * leadingBit + fraction), exponent, true⟩
  else ⟨ofMagnitude false (1022 * leadingBit + fraction), exponent + 1, false⟩

/-- The sum of the mantissa and its centre, rounded to the upper half of the bits. -/
def Reduced.centreSum (r : Reduced) : Float :=
  let upper := magnitude r.mantissa / 0x100000000
  ofMagnitude false
    ((upper / 2 + 0x20080000 + (if r.isUpper then 0x40000 else 0)) * 0x100000000)

/-- The polynomial part of the logarithm in `s = (x - c) / (x + c)`, given the square of `s`. -/
def logSeries (s2 : Float) : Float :=
  5.99999999999994648725e-01 + s2 * (4.28571428578550184252e-01
    + s2 * (3.33333329818377432918e-01 + s2 * (2.72728123808534006489e-01
    + s2 * (2.30660745775561754067e-01 + s2 * 2.06975017800338417784e-01))))

/-- The binary logarithm of a positive number. -/
def log2 (x : Float) : Split :=
  let r := reduce x
  let centre : Float := if r.isUpper then 1.5 else 1
  let centreHead : Float := if r.isUpper then 5.84962487220764160156e-01 else 0
  let centreTail : Float := if r.isUpper then 1.35003920212974897128e-08 else 0
  -- the quotient `s`, split
  let u := r.mantissa - centre
  let v := 1 / (r.mantissa + centre)
  let s := u * v
  let sHead := upperHalf s
  let sumHead := r.centreSum
  let sumTail := r.mantissa - (sumHead - centre)
  let sTail := v * ((u - sHead * sumHead) - sHead * sumTail)
  -- the factor `3 + s ^ 2 + …` of the series, split
  let s2 := s * s
  let rest := s2 * s2 * logSeries s2 + sTail * (sHead + s)
  let sHead2 := sHead * sHead
  let factorHead := upperHalf (3 + sHead2 + rest)
  let factorTail := rest - ((factorHead - 3) - sHead2)
  -- their product, split, and scaled by `2 / (3 log 2)`
  let u := sHead * factorHead
  let v := sTail * factorHead + factorTail * s
  let pHead := upperHalf (u + v)
  let pTail := v - (pHead - u)
  let zHead := 9.61796700954437255859e-01 * pHead
  let zTail := (-7.02846165095275826516e-09) * pHead + pTail * 9.61796693925975554329e-01
    + centreTail
  let n := Float.ofInt r.exponent
  let head := upperHalf (((zHead + zTail) + centreHead) + n)
  ⟨head, zTail - (((head - n) - centreHead) - zHead)⟩

/-- A logarithm multiplied by an exponent. -/
def Split.scale (l : Split) (y : Float) : Split :=
  let yHead := upperHalf y
  ⟨yHead * l.head, (y - yHead) * l.head + y * l.tail⟩

/-- The whole number nearest to the upper half of a number, halves going away from zero; numbers
up to a half have none but zero. -/
def nearestWhole (x : Float) : Int :=
  let size := upperHalf x.abs
  if size ≤ 0.5 then 0
  else
    let n : Int := wholePart (size + 0.5)
    if isNegative x then -n else n

/-- The polynomial part of the exponential of `z`, given the square of `z`. -/
def expSeries (z2 : Float) : Float :=
  z2 * (1.66666666666666019037e-01 + z2 * (-2.77777777770155933842e-03
    + z2 * (6.61375632143793436117e-05 + z2 * (-1.65339022054652515390e-06
    + z2 * 4.13813679705723846039e-08))))

/-- The exponential of `head + tail` with base two, with a sign. Past `1024` it is infinite and
below `-1075` zero; at these ends the tail decides. -/
def exp2 (negative : Bool) (p : Split) : Float :=
  let sum := p.tail + p.head
  if 1024 ≤ sum ∧ (1024 < sum ∨ sum - p.head < p.tail + 8.0085662595372944372e-17) then
    infinity negative
  else if sum ≤ -1075 ∧ (sum < -1075 ∨ p.tail ≤ sum - p.head) then ofMagnitude negative 0
  else
    let n := nearestWhole sum
    let head := p.head - Float.ofInt n
    let t := upperHalf (p.tail + head)
    let u := t * 6.93147182464599609375e-01
    let v := (p.tail - (t - head)) * 6.93147180559945286227e-01
      + t * (-1.90465429995776804525e-09)
    let z := u + v
    let w := v - (z - u)
    let t := z - expSeries (z * z)
    let r := (z * t) / ((t - 2) - (w + z * w))
    match parts (1 - (r - z)) with
    | .finite _ m e => ofScaled negative m (e + n)
    | _ => nan

def isWhole (y : Float) : Bool :=
  match parts y with
  | .finite _ m e => m * raise 2 e % lower 2 e = 0
  | _ => false

def isOdd (y : Float) : Bool := isWhole y && wholePart y % 2 = 1

/-- The power of a base other than zero, one and infinity in magnitude to a finite exponent. Past
`2 ^ 31`, or `2 ^ 64` for a base close to one, it overflows or vanishes. -/
def finitePower (negative : Bool) (x y : Float) : Float :=
  let size := upperHalf y.abs
  let near := upperHalf x
  if size ≤ 2147483648 then exp2 negative ((log2 x).scale y)
  else if size ≤ 18446744073709551616 ∧ 0.999999523162841796875 ≤ near ∧ near ≤ 1 then
    exp2 negative ((log2NearOne x).scale y)
  else if decide (x < 1) == decide (y < 0) then infinity negative
  else ofMagnitude negative 0

/-- A base to an exponent. Infinite exponents over a base of magnitude one give NaN, and a negative
base has powers to whole exponents only. -/
def power (x y : Float) : Float :=
  let base := x.abs
  let negative := isNegative x && isOdd y
  if y == 0 then 1
  else if x.isNaN || y.isNaN then nan
  else if y.isInf then
    if base == 1 then nan
    else if decide (base < 1) == decide (y < 0) then infinity false
    else 0
  else if y == 1 then x
  else if y == -1 then 1 / x
  else if y == 2 then x * x
  else if y == 0.5 && !isNegative x then x.sqrt
  else if base == 0 || base.isInf then
    if (base == 0) == decide (y < 0) then infinity negative else ofMagnitude negative 0
  else if isNegative x && !isWhole y then nan
  else if base == 1 then (if negative then -1 else 1)
  else finitePower negative base y

end Cairn.Number
