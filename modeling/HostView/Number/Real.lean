import HostView.Number.Binary64

/-!
# Real functions of doubles

The functions of calculus, as the machine computes them, and those that only round: to a whole
number, or to a narrower format.
-/

namespace HostView

/-- A real function of one number. -/
inductive RealFunction where
  | magnitude
  | floor
  | ceiling
  /-- The nearest whole number, a half going up. -/
  | round
  /-- Without the fraction. -/
  | whole
  | sign
  | squareRoot
  | cubeRoot
  | arcCosine
  | arcSine
  | arcTangent
  | cosine
  | sine
  | tangent
  | hyperbolicCosine
  | hyperbolicSine
  | hyperbolicTangent
  | areaCosine
  | areaSine
  | areaTangent
  | exponential
  /-- The exponential less one. -/
  | exponentialLess
  | logarithm
  /-- The logarithm of one more. -/
  | logarithmMore
  | binaryLogarithm
  | decimalLogarithm
  /-- The nearest number of 24 binary digits. -/
  | single
  /-- The nearest number of 11 binary digits. -/
  | half
  deriving DecidableEq

namespace Real

/-! ### Machine arithmetic -/

/-- The double of a machine number. -/
def ofFloat (f : Float) : Binary64 := if f.isNaN then .nan else ⟨f.toBits⟩

/-- The machine number of a double. -/
def toFloat (x : Binary64) : Float := Float.ofBits x.bits

/-- A function of machine numbers as one of doubles. -/
def lift (f : Float → Float) (x : Binary64) : Binary64 := ofFloat (f (toFloat x))

/-- A function of two machine numbers as one of doubles. -/
def lift₂ (f : Float → Float → Float) (x y : Binary64) : Binary64 :=
  ofFloat (f (toFloat x) (toFloat y))

/-- The machine number of a word. -/
def word (bits : UInt64) : Float := Float.ofBits bits

/-- The logarithm of two, in two parts of which the first has few digits. -/
def logTwo : Float × Float := (word 0x3FE62E42FEE00000, word 0x3DEA39EF35793C76)

/-- The exponential less one, near zero, where `c` corrects the argument. -/
def exponentialNear (x c : Float) (k : Int) : Float :=
  let hfx := 0.5 * x
  let hxs := x * hfx
  let r1 := 1.0 + hxs * word 0xBFA11111111110F4
  let h2 := hxs * hxs
  let r2 := word 0x3F5A01A019FE5585 + hxs * word 0xBF14CE199EAADBB7
  let h4 := h2 * h2
  let r3 := word 0x3ED0CFCA86E65239 + hxs * word 0xBE8AFDB76E09C32D
  let r := r1 + h2 * r2 + h4 * r3
  let t := 3.0 - r * hfx
  let e := hxs * ((r - t) / (6.0 - x * t))
  if k = 0 then x - (x * e - hxs)
  else
    let e := x * (e - c) - c - hxs
    if k = -1 then 0.5 * (x - e) - 0.5
    else if k = 1 then
      if x < -0.25 then -2.0 * (e - (x + 0.5)) else 1.0 + 2.0 * (x - e)
    else if k ≤ -2 ∨ 56 < k then (1.0 - (e - x)).scaleB k - 1.0
    else if k < 20 then ((1.0 - Float.scaleB 1.0 (-k)) - (e - x)).scaleB k
    else ((x - (e + Float.scaleB 1.0 (-k))) + 1.0).scaleB k

/-- The exponential less one. -/
def exponentialLess (x : Float) : Float :=
  let size := x.abs
  if x.isNaN || size < Float.scaleB 1.0 (-54) then x
  else if 709.782712893384 < x then 1.0 / 0.0
  else if x < -38.816242 then -1.0
  else if size ≤ word 0x3FD62E42FFFFFFFF then exponentialNear x 0.0 0
  else
    let k : Int :=
      if size < word 0x3FF0A2B200000000 then (if x < 0.0 then -1 else 1)
      else
        let n := word 0x3FF71547652B82FE * x + (if x < 0.0 then -0.5 else 0.5)
        n.toInt64.toInt
    let t := Float.ofInt k
    let high := x - t * logTwo.1
    let low := t * logTwo.2
    let reduced := high - low
    exponentialNear reduced ((high - reduced) - low) k

/-- The logarithm of one more than a number whose mantissa and exponent are given: `f` is the
mantissa less one, and `c` corrects it. -/
def logarithmNear (f c k : Float) : Float :=
  let hfsq := 0.5 * f * f
  let s := f / (2.0 + f)
  let z := s * s
  let r1 := z * word 0x3FE5555555555593
  let z2 := z * z
  let r2 := word 0x3FD999999997FA04 + z * word 0x3FD2492494229359
  let z4 := z2 * z2
  let r3 := word 0x3FCC71C51D8E78AF + z * word 0x3FC7466496CB03DE
  let z6 := z4 * z2
  let r4 := word 0x3FC39A09D078C69F + z * word 0x3FC2F112DF3E5244
  let r := r1 + z2 * r2 + z4 * r3 + z6 * r4
  if k == 0.0 then f - (hfsq - s * (hfsq + r))
  else k * logTwo.1 - ((hfsq - (s * (hfsq + r) + (k * logTwo.2 + c))) - f)

/-- The logarithm of one more. -/
def logarithmMore (x : Float) : Float :=
  if x.isNaN || x < -1.0 then 0.0 / 0.0
  else if x == -1.0 then -1.0 / 0.0
  else if x.abs < Float.scaleB 1.0 (-54) || x == 1.0 / 0.0 then x
  else if x.abs < Float.scaleB 1.0 (-29) then x - x * x * 0.5
  else if word 0xBFD2BEC400000000 < x && x < word 0x3FDA827A00000000 then logarithmNear x 0.0 0.0
  else
    let u := if x < Float.scaleB 1.0 53 then 1.0 + x else x
    let bits := u.toBits.toNat
    let e : Int := (bits / 2 ^ 52 % 2048 : Nat) - 1023
    let c :=
      if x < Float.scaleB 1.0 53 then
        (if 0 < e then 1.0 - (u - x) else x - (u - 1.0)) / u
      else 0.0
    let mantissa := bits % 2 ^ 52
    let isSmall := mantissa / 2 ^ 32 < 0x6A09E
    let e := if isSmall then e else e + 1
    let m := word (.ofNat (mantissa + (if isSmall then 1023 else 1022) * 2 ^ 52))
    logarithmNear (m - 1.0) c (Float.ofInt e)

/-! ### Rounding -/

/-- A magnitude with the sign of another number. -/
def withSign (x magnitude : Binary64) : Binary64 := if x.negative then magnitude.neg else magnitude

/-- A double rounded to a whole number: toward zero, or away from it. -/
def rounded (away : Bool) (x : Binary64) : Binary64 :=
  if !x.isFinite || x.magnitude?.isSome then x
  else withSign x (.ofNat (if away then x.wholePart + 1 else x.wholePart))

/-- The nearest whole number, a half going up. -/
def roundUp (x : Binary64) : Binary64 :=
  if !x.isFinite || x.magnitude?.isSome then x
  else
    let doubled := (x.mulMagnitude (.ofNat 2)).wholePart
    let isHalf := (x.mulMagnitude (.ofNat 2)).magnitude?.isSome
    withSign x (.ofNat (if x.negative && isHalf then doubled / 2 else (doubled + 1) / 2))

/-- The whole number nearest to `n / 2 ^ k`, a half going to the even one. -/
def shiftEven (n k : Nat) : Nat :=
  let (q, r) := (n / 2 ^ k, n % 2 ^ k)
  if 2 ^ k < 2 * r ∨ (2 * r = 2 ^ k ∧ q % 2 = 1) then q + 1 else q

/-- The nearest number of a narrower format, of so many binary digits and with a least scale, below
`2 ^ limit`. -/
def narrow (digits : Nat) (least : Int) (limit : Nat) (x : Binary64) : Binary64 :=
  if !x.isFinite || x.isZero then x
  else
    let q := max least (x.significand.log2 + x.scale - (digits - 1))
    let m := shiftEven (x.significand * 2 ^ (x.scale - q).toNat) (q - x.scale).toNat
    let y := Binary64.nearest (m * 2 ^ q.toNat) (2 ^ (-q).toNat)
    withSign x (if 2 ^ limit ≤ y.wholePart then ⟨0x7FF0000000000000⟩ else y)

/-- The sign of a number, as a number. -/
def signOf (x : Binary64) : Binary64 :=
  if x.isNaN || x.isZero then x else withSign x (.ofNat 1)

/-- A power; where the base is one and the exponent without bound there is none. -/
def power (x y : Binary64) : Binary64 :=
  let isUnit := x.magnitude? = some 1
  if isUnit && !y.isFinite then .nan else lift₂ Float.pow x y

/-- The length of the diagonal over two sides. -/
def hypotenuse (x y : Binary64) : Binary64 :=
  let isInfinite (x : Binary64) : Bool := !x.isFinite && !x.isNaN
  if isInfinite x || isInfinite y then ⟨0x7FF0000000000000⟩
  else if x.isNaN || y.isNaN then .nan
  else
    let q := min x.scale y.scale
    let side (x : Binary64) : Nat := x.significand * 2 ^ (x.scale - q).toNat
    let square := side x ^ 2 + side y ^ 2
    let root := Nat.sqrt (square * 2 ^ 128)
    let sticky := if root * root = square * 2 ^ 128 then 0 else 1
    .nearest ((2 * root + sticky) * 2 ^ q.toNat) (2 ^ (65 + (-q).toNat))

/-- The whole part of the cube root of a number that has so many binary digits in its root. -/
def wholeCubeRoot (digits n : Nat) : Nat :=
  (List.range digits).reverse.foldl (fun root i =>
    if (root + 2 ^ i) ^ 3 ≤ n then root + 2 ^ i else root) 0

/-- The double nearest to the cube root. -/
def cubeRoot (x : Binary64) : Binary64 :=
  if !x.isFinite || x.isZero then x
  else
    let shift := (x.scale % 3).toNat + 192
    let n := x.significand * 2 ^ shift
    let root := wholeCubeRoot 84 n
    let sticky := if root ^ 3 = n then 0 else 1
    let q := (x.scale - shift) / 3 - 1
    withSign x (.nearest ((2 * root + sticky) * 2 ^ q.toNat) (2 ^ (-q).toNat))

end Real

/-- The value of a real function. -/
def RealFunction.apply : RealFunction → Binary64 → Binary64
  | .magnitude, x => if x.negative then x.neg else x
  | .floor, x => Real.rounded x.negative x
  | .ceiling, x => Real.rounded (!x.negative) x
  | .round, x => Real.roundUp x
  | .whole, x => Real.rounded false x
  | .sign, x => Real.signOf x
  | .squareRoot, x => Real.lift Float.sqrt x
  | .cubeRoot, x => Real.cubeRoot x
  | .arcCosine, x => Real.lift Float.acos x
  | .arcSine, x => Real.lift Float.asin x
  | .arcTangent, x => Real.lift Float.atan x
  | .cosine, x => Real.lift Float.cos x
  | .sine, x => Real.lift Float.sin x
  | .tangent, x => Real.lift Float.tan x
  | .hyperbolicCosine, x => Real.lift Float.cosh x
  | .hyperbolicSine, x => Real.lift Float.sinh x
  | .hyperbolicTangent, x => Real.lift Float.tanh x
  | .areaCosine, x => Real.lift Float.acosh x
  | .areaSine, x => Real.lift Float.asinh x
  | .areaTangent, x => Real.lift Float.atanh x
  | .exponential, x => Real.lift Float.exp x
  | .exponentialLess, x => Real.lift Real.exponentialLess x
  | .logarithm, x => Real.lift Float.log x
  | .logarithmMore, x => Real.lift Real.logarithmMore x
  | .binaryLogarithm, x => Real.lift Float.log2 x
  | .decimalLogarithm, x => Real.lift Float.log10 x
  | .single, x => Real.narrow 24 (-149) 128 x
  | .half, x => Real.narrow 11 (-24) 16 x

end HostView
