/-!
Decimal numbers, and how their nearest double-precision value is shown: by the fewest digits that
read back as that value, positionally from 0.0001 up to 10^16 and in exponent form beyond.
-/

namespace DocDrift.Number

/-- A decimal number `digits * 10 ^ exponent` with a sign, or a special value. -/
inductive Decimal where
  | finite (negative : Bool) (digits : Nat) (exponent : Int)
  | infinite (negative : Bool)
  | undefined
  deriving DecidableEq, Repr

/-- A quotient of natural numbers, rounded to the nearest one, a half to the even neighbour. -/
def roundDiv (numerator denominator : Nat) : Nat :=
  let floor := numerator / denominator
  let rest := 2 * (numerator % denominator)
  if rest < denominator then floor
  else if rest > denominator then floor + 1
  else floor + floor % 2

/-- The quotient `numerator * 2 ^ (-power) / denominator` as a fraction. -/
def scaleDown (numerator denominator : Nat) (power : Int) : Nat × Nat :=
  if 0 ≤ power then (numerator, denominator * Nat.pow 2 power.toNat)
  else (numerator * Nat.pow 2 (-power).toNat, denominator)

/-- The significand and the power of two of the double nearest to a fraction; the significand is
below `2 ^ 53`, and the power is at least -1074. -/
def nearest (numerator denominator : Nat) : Nat × Int :=
  if numerator = 0 then (0, -1074)
  else
    let guess : Int := (Nat.log2 numerator : Int) - Nat.log2 denominator - 52
    let fits := fun (power : Int) =>
      let (n, d) := scaleDown numerator denominator power
      n < d * Nat.pow 2 53
    let power := max (-1074) (if fits (guess - 1) then guess - 1 else if fits guess then guess
      else guess + 1)
    let (n, d) := scaleDown numerator denominator power
    let significand := roundDiv n d
    if significand = Nat.pow 2 53 then (Nat.pow 2 52, power + 1) else (significand, power)

/-- A fraction on a grid of powers of ten: `numerator / denominator / 10 ^ unit`. -/
def scaleTen (numerator denominator : Nat) (unit : Int) : Nat × Nat :=
  if 0 ≤ unit then (numerator, denominator * Nat.pow 10 unit.toNat)
  else (numerator * Nat.pow 10 (-unit).toNat, denominator)

/-- The multiple of `10 ^ unit` nearest to `significand * 2 ^ power` among those that read back as
that value. -/
def onGrid (significand : Nat) (power unit : Int) : Option Nat :=
  -- All bounds are multiples of a quarter of the last place.
  let quarter := fun (n : Nat) =>
    if 0 ≤ power then scaleTen (n * Nat.pow 2 power.toNat) 4 unit
    else scaleTen n (4 * Nat.pow 2 (-power).toNat) unit
  let (value, denominator) := quarter (4 * significand)
  let (low, _) := quarter
    (4 * significand - (if significand = Nat.pow 2 52 && power > -1074 then 1 else 2))
  let (high, _) := quarter (4 * significand + 2)
  let closed := significand % 2 == 0
  let readsBack := fun (n : Nat) =>
    let n := n * denominator
    (low < n || (closed && low == n)) && (n < high || (closed && n == high))
  let floor := value / denominator
  let candidates := [floor, floor + 1].filter readsBack
  match candidates with
  | [] => none
  | [n] => some n
  | n :: _ => some (if roundDiv value denominator = n then n else n + 1)

/-- The decimal exponent of the leading digit of `significand * 2 ^ power`. -/
def leadingExponent (significand : Nat) (power : Int) : Int :=
  let (n, d) := if 0 ≤ power then (significand * Nat.pow 2 power.toNat, 1)
    else (significand, Nat.pow 2 (-power).toNat)
  if n ≥ d then ((Nat.toDigits 10 (n / d)).length : Int) - 1
  else
    let places := (Nat.toDigits 10 (d / n)).length
    if n * Nat.pow 10 (places - 1) ≥ d then -((places : Int) - 1) else -(places : Int)

/-- The fewest digits that read back, tried from `count` digits on, as an integer and its power of
ten. -/
def shortest (significand : Nat) (power : Int) : Nat → Nat → Nat × Int
  | 0, _ => (significand, 0)
  | fuel + 1, count =>
    let unit := leadingExponent significand power - (count : Int) + 1
    match onGrid significand power unit with
    | some n => (n, unit)
    | none => shortest significand power fuel (count + 1)

/-- Digits with a power of ten in the chosen notation. -/
def layout (digits : List Char) (unit : Int) : String :=
  let point : Int := digits.length + unit
  let zeros := fun (n : Int) => List.replicate n.toNat '0'
  if -4 < point && point ≤ 16 then
    String.ofList <|
      if point ≤ 0 then ['0', '.'] ++ zeros (-point) ++ digits
      else if 0 ≤ unit then digits ++ zeros unit ++ ['.', '0']
      else digits.take point.toNat ++ ['.'] ++ digits.drop point.toNat
  else
    let exponent := point - 1
    let size := Nat.toDigits 10 exponent.natAbs
    String.ofList <|
      digits.take 1 ++ (if digits.length > 1 then '.' :: digits.drop 1 else []) ++
        ['e', if exponent < 0 then '-' else '+'] ++ (if size.length < 2 then ['0'] else []) ++ size

/-- The digits of a number without the zeros at its end, which move into the power of ten. -/
def withoutTrailingZeros (digits : List Char) (unit : Int) : List Char × Int :=
  let kept := (digits.reverse.dropWhile (· == '0')).reverse
  (kept, unit + (digits.length - kept.length : Nat))

/-- The double nearest to a decimal number, as shown. -/
def Decimal.render : Decimal → String
  | undefined => "nan"
  | infinite negative => if negative then "-inf" else "inf"
  | finite negative digits exponent =>
    let sign := if negative then "-" else ""
    let (n, d) := if 0 ≤ exponent then (digits * Nat.pow 10 exponent.toNat, 1)
      else (digits, Nat.pow 10 (-exponent).toNat)
    let (significand, power) := nearest n d
    if significand = 0 then sign ++ "0.0"
    else if power > 971 then sign ++ "inf"
    else
      let (shown, unit) := shortest significand power 17 1
      let (kept, unit) := withoutTrailingZeros (Nat.toDigits 10 shown) unit
      sign ++ layout kept unit

end DocDrift.Number
