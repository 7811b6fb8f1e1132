/-!
# Binary floating-point numbers of 64 bits

Numbers with a fraction or an exponent are kept as the nearest binary floating-point number: a
significand below `2 ^ 53` times a power of two. All rounding is done on natural numbers, so no
floating-point operation is involved.

- `Binary64.ofDecimal`: the number nearest to `digits * 10 ^ exponent`, a tie going to the even
  significand; too large a number becomes infinite.
- `Binary64.shortest`: the fewest decimal digits that read back as the number, and of those the
  nearest to it.
- `Binary64.text`: the usual spelling, `0.1`, `1e+16`, `5e-324`.
-/

namespace NodeLedger

/-- A binary floating-point number. A finite one is `significand * 2 ^ exponent` with its sign. -/
inductive Binary64 where
  | finite (negative : Bool) (significand : Nat) (exponent : Int)
  | infinite (negative : Bool)
  | nan
  deriving Repr, DecidableEq

namespace Binary64

/-- The exponent of the smallest steps, those between the numbers around zero. -/
def minExponent : Int := -1074

/-- The exponent of the largest steps. -/
def maxExponent : Int := 971

/-- `base ^ e` as a fraction. -/
def power (base : Nat) : Int → Nat × Nat
  | .ofNat n => (Nat.pow base n, 1)
  | .negSucc n => (1, Nat.pow base (n + 1))

/-- The natural number nearest to a fraction, a tie going to the even one. -/
def roundHalfEven (num den : Nat) : Nat :=
  let q := num / den
  let r := num % den
  if 2 * r < den then q else if den < 2 * r then q + 1 else q + q % 2

/-- The fraction `num / den` divided by `2 ^ exponent`. -/
def scaled (num den : Nat) (exponent : Int) : Nat × Nat :=
  let (up, down) := power 2 exponent
  (num * down, den * up)

/-- The number nearest to a positive fraction. -/
def ofFraction (negative : Bool) (num den : Nat) : Binary64 :=
  let guess : Int := Int.ofNat (Nat.log2 num) - Int.ofNat (Nat.log2 den) - 53
  let (n, d) := scaled num den guess
  let fitting := if Nat.pow 2 53 ≤ n / d then guess + 1 else guess
  let exponent := if fitting < minExponent then minExponent else fitting
  let (n, d) := scaled num den exponent
  let significand := roundHalfEven n d
  let (significand, exponent) :=
    if significand = Nat.pow 2 53 then (Nat.pow 2 52, exponent + 1) else (significand, exponent)
  if maxExponent < exponent then .infinite negative else .finite negative significand exponent

/-- The number nearest to `digits * 10 ^ exponent`. Numbers far outside the range are settled by
their order of magnitude alone. -/
def ofDecimal (negative : Bool) (digits : Nat) (exponent : Int) : Binary64 :=
  let magnitude : Int := exponent + Int.ofNat (Nat.toDigits 10 digits).length
  if digits = 0 || magnitude < -400 then .finite negative 0 minExponent
  else if 400 < magnitude then .infinite negative
  else
    let (up, down) := power 10 exponent
    ofFraction negative (digits * up) down

/-- Digits of a decimal: `digits * 10 ^ exponent`. -/
structure Decimal where
  digits : Nat
  exponent : Int
  deriving Repr, DecidableEq

/-- A decimal lies among the reals that round to `significand * 2 ^ exponent`. Both are compared
with four times the steps of the number, in which its two limits are whole. -/
def roundsTo (significand : Nat) (exponent : Int) (d : Decimal) : Bool :=
  let (up, down) := power 10 d.exponent
  let (num, den) := scaled (4 * d.digits * up) down exponent
  let below := if significand = Nat.pow 2 52 && minExponent < exponent then 1 else 2
  let low := (4 * significand - below) * den
  let high := (4 * significand + 2) * den
  if significand % 2 = 0 then low ≤ num && num ≤ high else low < num && num < high

/-- The decimal with the given exponent that is nearest to `significand * 2 ^ exponent`, among its
two neighbours that round to it; of two equally near the one with the even last digit. -/
def nearestOn (significand : Nat) (exponent : Int) (place : Int) : Option Decimal :=
  let (up, down) := power 2 exponent
  let (tenUp, tenDown) := power 10 place
  let num := significand * up * tenDown
  let den := down * tenUp
  let floor : Decimal := ⟨num / den, place⟩
  let ceiling : Decimal := ⟨num / den + 1, place⟩
  match roundsTo significand exponent floor, roundsTo significand exponent ceiling with
  | true, true => some ⟨roundHalfEven num den, place⟩
  | true, false => some floor
  | false, true => some ceiling
  | false, false => none

/-- The fewest decimal digits that read back as `significand * 2 ^ exponent`. Places are tried from
the coarse to the fine; 17 digits always suffice. -/
def shortest (significand : Nat) (exponent : Int) : Decimal :=
  let (up, down) := power 2 exponent
  let coarse : Int :=
    if down = 1 then Int.ofNat (Nat.toDigits 10 (significand * up)).length
    else
      Int.ofNat (Nat.toDigits 10 (significand * Nat.pow 10 400 / down)).length - 400
  ((List.range 20).findSome? fun n => nearestOn significand exponent (coarse - Int.ofNat n)).getD
    ⟨significand, exponent⟩

/-- Digits without trailing zeros. -/
def trimZeros : List Char → List Char :=
  fun cs => (cs.reverse.dropWhile (· == '0')).reverse

/-- Digits with the point after the first `point` of them: positional between `0.0001` and
`10 ^ 16`, with an exponent of at least two digits elsewhere. -/
def spell (digits : List Char) (point : Int) : List Char :=
  if -4 < point && point ≤ 16 then
    match point with
    | .ofNat n =>
      if n = 0 then ['0', '.'] ++ digits
      else
        let whole := (digits.take n) ++ List.replicate (n - digits.length) '0'
        let rest := digits.drop n
        whole ++ '.' :: (if rest.isEmpty then ['0'] else rest)
    | .negSucc n => ['0', '.'] ++ List.replicate (n + 1) '0' ++ digits
  else
    let e := point - 1
    let exponent := (Nat.toDigits 10 e.natAbs).leftpad 2 '0'
    let fraction := if digits.length ≤ 1 then [] else '.' :: digits.drop 1
    digits.take 1 ++ fraction ++ 'e' :: (if e < 0 then '-' else '+') :: exponent

/-- The spelling of a number, with the given words for infinity and for no number. -/
def textWith (infinity noNumber : String) : Binary64 → String
  | finite negative significand exponent =>
    let magnitude :=
      if significand = 0 then ['0', '.', '0']
      else
        let d := shortest significand exponent
        let digits := Nat.toDigits 10 d.digits
        spell (trimZeros digits) (d.exponent + Int.ofNat digits.length)
    String.ofList (if negative then '-' :: magnitude else magnitude)
  | infinite negative => if negative then "-" ++ infinity else infinity
  | nan => noNumber

end Binary64

end NodeLedger
