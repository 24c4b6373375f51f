/-!
Points in time, in seconds, as binary fractions. A decimal number is read to the nearest fraction
with a mantissa of 53 bits, and a fraction is shown with three decimals, rounded from its exact
value, or with the fewest digits that are read back as it is. All roundings send a half to the even
neighbour.
-/

namespace ArenaPeak

/-- The whole number nearest to a quotient, a half going to the even one. -/
def roundDiv (num den : Nat) : Nat :=
  let q := num / den
  let r := 2 * (num % den)
  if r < den then q
  else if den < r then q + 1
  else if q % 2 = 0 then q else q + 1

/-- The fraction `mantissa * 2 ^ exponent`, with its sign. -/
structure Seconds where
  negative : Bool
  mantissa : Nat
  exponent : Int
  deriving DecidableEq

namespace Seconds

def zero : Seconds :=
  ⟨false, 0, 0⟩

/-- The quotient `num / den` divided by `2 ^ k`, as a quotient. -/
def scaled (num den : Nat) (k : Int) : Nat × Nat :=
  if 0 ≤ k then (num, den * Nat.pow 2 k.toNat) else (num * Nat.pow 2 (-k).toNat, den)

/-- The fraction nearest to `digits * 10 ^ exponent`; none if that is beyond the range. -/
def ofDecimal (negative : Bool) (digits : Nat) (exponent : Int) : Option Seconds :=
  let num := if 0 ≤ exponent then digits * Nat.pow 10 exponent.toNat else digits
  let den := if 0 ≤ exponent then 1 else Nat.pow 10 (-exponent).toNat
  let low := max (-1074) ((num.log2 : Int) - den.log2 - 53)
  let (n, d) := scaled num den low
  let k := if n / d < Nat.pow 2 53 then low else low + 1
  let (n, d) := scaled num den k
  let m := roundDiv n d
  if 1024 ≤ (m.log2 : Int) + k then none else some ⟨negative, m, k⟩

def withThousandths (n : Nat) : String :=
  let rest := n % 1000
  let zeros := if rest < 10 then "00" else if rest < 100 then "0" else ""
  toString (n / 1000) ++ "." ++ zeros ++ toString rest

def fixed (s : Seconds) : String :=
  let (n, d) := scaled (s.mantissa * 1000) 1 (-s.exponent)
  (if s.negative then "-" else "") ++ withThousandths (roundDiv n d)

/-- The same fraction with a mantissa of 53 bits, or of fewer at the least exponent. -/
def normal (s : Seconds) : Seconds :=
  let exponent := max (-1074) (s.exponent + s.mantissa.log2 - 52)
  { s with
    mantissa := s.mantissa * Nat.pow 2 (s.exponent - exponent).toNat /
      Nat.pow 2 (exponent - s.exponent).toNat
    exponent }

/-- The multiple of `10 ^ q` that is read back as the fraction, if there is one; the nearer one of
two. The fraction is `value / den`, and from `low` to `high` it is the nearest of all. -/
def onGrid (low value high den : Nat) (closed : Bool) (q : Int) : Option Nat :=
  let up := if 0 ≤ q then 1 else Nat.pow 10 (-q).toNat
  let step := if 0 ≤ q then den * Nat.pow 10 q.toNat else den
  let n := value * up / step
  let fits (n : Nat) : Bool :=
    if closed then low * up ≤ n * step && n * step ≤ high * up
    else low * up < n * step && n * step < high * up
  match fits n, fits (n + 1) with
  | true, true => some (roundDiv (value * up) step)
  | true, false => some n
  | false, true => some (n + 1)
  | false, false => none

/-- The coarsest of the grids of powers of ten below `10 ^ (n - 330)` that has such a multiple, and
the multiple. -/
def coarsest (onGrid : Int → Option Nat) : Nat → Nat × Int
  | 0 => (0, 0)
  | n + 1 =>
      let q : Int := n - 330
      match onGrid q with
      | some m => (m, q)
      | none => coarsest onGrid n

/-- The fewest decimal digits that are read back as the fraction, and the exponent that goes with
them. -/
def digits (s : Seconds) : List Char × Int :=
  let s := s.normal
  let scale := Nat.pow 2 (s.exponent - 2).toNat
  let den := Nat.pow 2 (2 - s.exponent).toNat
  -- below a power of two the fractions lie twice as close
  let below := if s.mantissa = Nat.pow 2 52 ∧ -1074 < s.exponent then 1 else 2
  let (n, q) := coarsest
    (onGrid ((4 * s.mantissa - below) * scale) (4 * s.mantissa * scale)
      ((4 * s.mantissa + 2) * scale) den (s.mantissa % 2 == 0)) 640
  (Nat.toDigits 10 n, q)

/-- Decimal digits times a power of ten, with a point where there are few zeros to fill in, and with
an exponent elsewhere. -/
def positional (digits : List Char) (exponent : Int) : List Char :=
  let place := digits.length + exponent
  let power := (toString (place - 1)).toList
  if 0 ≤ exponent ∧ place ≤ 16 then
    digits ++ List.replicate exponent.toNat '0' ++ ['.', '0']
  else if 0 < place ∧ place ≤ 16 then
    digits.take place.toNat ++ '.' :: digits.drop place.toNat
  else if -5 < place ∧ place ≤ 0 then
    '0' :: '.' :: (List.replicate (-place).toNat '0' ++ digits)
  else
    match digits with
    | [d] => d :: 'e' :: power
    | d :: ds => d :: '.' :: (ds ++ 'e' :: power)
    | [] => power

/-- The shortest decimal number that is read back as the fraction. -/
def shortest (s : Seconds) : String :=
  let (digits, exponent) := if s.mantissa = 0 then (['0'], 0) else s.digits
  String.ofList ((if s.negative then ['-'] else []) ++ positional digits exponent)

example : (ofDecimal false 5 (-4)).map fixed = some "0.001" := by decide +kernel
example : (ofDecimal false 10005 (-4)).map fixed = some "1.000" := by decide +kernel
example : (ofDecimal false 5 (-324)).map fixed = some "0.000" := by decide +kernel
example : zero.shortest = "0.0" := by decide +kernel
example : (ofDecimal false 1 (-1)).map shortest = some "0.1" := by decide +kernel
example : (ofDecimal false 5 (-324)).map shortest = some "5e-324" := by decide +kernel

end Seconds

end ArenaPeak
