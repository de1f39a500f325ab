/-!
# Binary floating-point numbers

Binary numbers of 53 significant bits with their rounding, in exact integer arithmetic.  A finite
number is `± mantissa * 2 ^ exponent`; every operation computes the exact result as a quotient of
naturals and rounds it once, ties to even.  `shortestDigits` gives the fewest decimal digits that read
back as the same number.
-/

namespace WebMigration.Number

/-- The quotient rounded to the nearest natural; a tie goes to the even neighbour. -/
def roundEven (num den : Nat) : Nat :=
  let q := num / den
  let twice := 2 * (num % den)
  if twice < den then q
  else if den < twice then q + 1
  else if q % 2 == 0 then q else q + 1

/-- The quotient rounded to the nearest natural; a tie goes up. -/
def roundHalfUp (num den : Nat) : Nat :=
  if den ≤ 2 * (num % den) then num / den + 1 else num / den

/-- A binary floating-point number of double precision. -/
inductive Binary64
  | finite (negative : Bool) (mantissa : Nat) (exponent : Int)
  | infinite (negative : Bool)
  | nan
  deriving DecidableEq, Repr, Inhabited

/-- A quotient of naturals with a sign. -/
structure Quotient where
  negative : Bool
  num : Nat
  den : Nat

namespace Binary64

/-- Two to the power of an integer, as a factor of a numerator and of a denominator. -/
def powers (e : Int) : Nat × Nat :=
  if 0 ≤ e then (Nat.pow 2 e.toNat, 1) else (1, Nat.pow 2 (-e).toNat)

/-- The least integer `e` with `num / den < 2 ^ e`, for positive numbers. -/
def magnitude (num den : Nat) : Int :=
  let guess : Int := (Nat.log2 num : Int) - Nat.log2 den
  let (up, down) := powers guess
  if num * down < den * up then guess else guess + 1

/-- The number nearest to a quotient of naturals. -/
def ofQuotient (negative : Bool) (num den : Nat) : Binary64 :=
  if num == 0 then finite negative 0 (-1074)
  else
    let e := max (magnitude num den - 53) (-1074)
    let (up, down) := powers e
    let m := roundEven (num * down) (den * up)
    let (m, e) := if m == Nat.pow 2 53 then (Nat.pow 2 52, e + 1) else (m, e)
    if 971 < e then infinite negative else finite negative m e

def ofNat (n : Nat) : Binary64 := ofQuotient false n 1

def ofInt (n : Int) : Binary64 := ofQuotient (n < 0) n.natAbs 1

/-- The number nearest to `digits * 10 ^ exponent`. -/
def ofDecimal (negative : Bool) (digits : Nat) (exponent : Int) : Binary64 :=
  if digits == 0 then finite negative 0 (-1074)
  else
    let size : Int := (Nat.toDigits 10 digits).length + exponent
    if 400 < size then infinite negative
    else if size < -400 then finite negative 0 (-1074)
    else if 0 ≤ exponent then ofQuotient negative (digits * Nat.pow 10 exponent.toNat) 1
    else ofQuotient negative digits (Nat.pow 10 (-exponent).toNat)

/-- The exact value of a finite number. -/
def quotient? : Binary64 → Option Quotient
  | finite negative m e =>
      let (up, down) := powers e
      some ⟨negative, m * up, down⟩
  | _ => none

def isNegative : Binary64 → Bool
  | finite negative .. => negative
  | infinite negative => negative
  | nan => false

def isZero : Binary64 → Bool
  | finite _ m _ => m == 0
  | _ => false

def isInfinite : Binary64 → Bool
  | infinite _ => true
  | _ => false

/-- The sum of two quotients, rounded. -/
def addQuotients (x y : Quotient) : Binary64 :=
  let a : Int := if x.negative then -(x.num * y.den : Nat) else (x.num * y.den : Nat)
  let b : Int := if y.negative then -(y.num * x.den : Nat) else (y.num * x.den : Nat)
  let s := a + b
  if s == 0 then finite (x.negative && y.negative) 0 (-1074)
  else ofQuotient (s < 0) s.natAbs (x.den * y.den)

def add (x y : Binary64) : Binary64 :=
  match x, y with
  | nan, _ | _, nan => nan
  | infinite a, infinite b => if a == b then infinite a else nan
  | infinite a, _ => infinite a
  | _, infinite b => infinite b
  | _, _ =>
      match x.quotient?, y.quotient? with
      | some p, some q => addQuotients p q
      | _, _ => nan

def mul (x y : Binary64) : Binary64 :=
  let negative := x.isNegative != y.isNegative
  match x, y with
  | nan, _ | _, nan => nan
  | infinite _, other | other, infinite _ => if other.isZero then nan else infinite negative
  | _, _ =>
      match x.quotient?, y.quotient? with
      | some p, some q => ofQuotient negative (p.num * q.num) (p.den * q.den)
      | _, _ => nan

/-- A natural power, rounded once. -/
def pow (x : Binary64) (n : Nat) : Binary64 :=
  if n == 0 then ofNat 1
  else
    match x with
    | nan => nan
    | infinite negative => infinite (negative && n % 2 == 1)
    | finite negative m e =>
        let sign := negative && n % 2 == 1
        if m == 0 then finite sign 0 (-1074)
        else
          let (up, down) := powers e
          if 4000 < n then
            if m * up < down then finite sign 0 (-1074)
            else if m * up == down then ofQuotient sign 1 1
            else infinite sign
          else ofQuotient sign (Nat.pow (m * up) n) (Nat.pow down n)

/-- Whether one number is less than another; nothing holds of a number that is none. -/
def lt (x y : Binary64) : Bool :=
  match x, y with
  | nan, _ | _, nan => false
  | infinite a, infinite b => a && !b
  | infinite a, _ => a
  | _, infinite b => !b
  | _, _ =>
      match x.quotient?, y.quotient? with
      | some p, some q =>
          let a : Int := if p.negative then -(p.num * q.den : Nat) else (p.num * q.den : Nat)
          let b : Int := if q.negative then -(q.num * p.den : Nat) else (q.num * p.den : Nat)
          a < b
      | _, _ => false

/-- Whether two numbers are equal; the two zeros are. -/
def eq (x y : Binary64) : Bool :=
  match x, y with
  | nan, _ | _, nan => false
  | _, _ => !lt x y && !lt y x

def le (x y : Binary64) : Bool := lt x y || eq x y

/-- The lesser of two numbers, the first when neither is less. -/
def min (x y : Binary64) : Binary64 := if lt y x then y else x

/-- The integer part of a finite number. -/
def truncate? (x : Binary64) : Option Int :=
  x.quotient?.map fun q =>
    let n : Int := (q.num / q.den : Nat)
    if q.negative then -n else n

/-- Whether the number is an integer. -/
def isInteger (x : Binary64) : Bool := (x.quotient?.map fun q => q.num % q.den == 0).getD false

/-- The number nearest to the decimal of some places that is nearest to this number; a tie goes to the
even decimal. -/
def roundPlaces (places : Nat) (x : Binary64) : Binary64 :=
  match x.quotient? with
  | some q => ofDecimal q.negative (roundEven (q.num * Nat.pow 10 places) q.den) (-(places : Int))
  | none => x

/-! ## Decimal digits -/

/-- The decimal number `digits * 10 ^ exponent`. -/
structure Decimal where
  digits : Nat
  exponent : Int
  deriving DecidableEq, Repr

/-- Without zeros at the end of its digits; the count bounds the zeros taken off. -/
def Decimal.normalized : Nat → Decimal → Decimal
  | 0, d => d
  | count + 1, d =>
      if d.digits != 0 && d.digits % 10 == 0 then
        normalized count ⟨d.digits / 10, d.exponent + 1⟩
      else d

/-- The least integer `k` with `num / den < 10 ^ k`, searched upward from `k`. -/
def decimalMagnitude (num den : Nat) : Nat → Int → Int
  | 0, k => k
  | fuel + 1, k =>
      let below :=
        if 0 ≤ k then num < den * Nat.pow 10 k.toNat else num * Nat.pow 10 (-k).toNat < den
      if below then k else decimalMagnitude num den fuel (k + 1)

/-- The grid points next to a positive quotient, where the grid has steps of `10 ^ exponent`, nearest
first. -/
def neighbours (num den : Nat) (exponent : Int) : List Nat :=
  let (num, den) :=
    if 0 ≤ exponent then (num, den * Nat.pow 10 exponent.toNat)
    else (num * Nat.pow 10 (-exponent).toNat, den)
  let below := num / den
  let above := if num % den == 0 then below else below + 1
  let nearest := roundEven num den
  if nearest == below then [below, above] else [above, below]

/-- The first decimal with at most `count` more digits than `used` that reads back as the number. -/
def shortestFrom (x : Binary64) (num den : Nat) (size : Int) : Nat → Nat → Decimal
  | 0, used =>
      let e := size - used
      ⟨(neighbours num den e).head?.getD 0, e⟩
  | count + 1, used =>
      let e := size - used
      match (neighbours num den e).find? fun d => ofDecimal false d e == x with
      | some d => ⟨d, e⟩
      | none => shortestFrom x num den size count (used + 1)

/-- The fewest decimal digits that read back as the absolute value of a finite number. -/
def shortestDigits (x : Binary64) : Decimal :=
  match x with
  | finite _ m e =>
      if m == 0 then ⟨0, 0⟩
      else
        let (up, down) := powers e
        let num := m * up
        let guess : Int := (((Nat.log2 num : Int) - Nat.log2 down) * 30103) / 100000 - 2
        let size := decimalMagnitude num down 8 guess
        (shortestFrom (finite false m e) num down size 16 1).normalized 20
  | _ => ⟨0, 0⟩

/-- How decimal digits are laid out as text. -/
structure Layout where
  /-- Positional notation is used for exponents of the first digit from here … -/
  least : Int
  /-- … to below here. -/
  limit : Int
  notANumber : String
  infinity : String

/-- Floating-point numbers are written positionally from 1e-4 to below 1e16, always with a point,
and else with an exponent of at least two digits and a sign. -/
def standardLayout : Layout := ⟨-4, 16, "nan", "inf"⟩

/-- The text of a number under a layout. -/
def render (layout : Layout) (x : Binary64) : String :=
  match x with
  | nan => layout.notANumber
  | infinite negative => (if negative then "-" else "") ++ layout.infinity
  | finite negative m _ =>
      let sign := if negative then "-" else ""
      if m == 0 then sign ++ "0.0"
      else
        let d := x.shortestDigits
        let digits := Nat.toDigits 10 d.digits
        let point : Int := digits.length + d.exponent
        let body :=
          if layout.least < point && point ≤ layout.limit then
            if point ≤ 0 then
              "0." ++ String.ofList (List.replicate (-point).toNat '0' ++ digits)
            else if (digits.length : Int) ≤ point then
              String.ofList (digits ++ List.replicate (point - digits.length).toNat '0') ++ ".0"
            else
              String.ofList (digits.take point.toNat) ++ "." ++
                String.ofList (digits.drop point.toNat)
          else
            let e := point - 1
            let mantissa := String.ofList (digits.take 1) ++
              (if digits.length ≤ 1 then "" else "." ++ String.ofList (digits.drop 1))
            let width := toString e.natAbs
            mantissa ++ "e" ++ (if e < 0 then "-" else "+") ++
              (if width.length < 2 then "0" ++ width else width)
        sign ++ body

/-- The text of a number. -/
def text (x : Binary64) : String := x.render standardLayout

end Binary64

end WebMigration.Number
