/-! Binary floating-point numbers of 64 bits, read and written in decimal.

A finite number is `m · 2^e` with `m < 2^53`. `ofDecimal` gives the number
nearest to a decimal, a tie going to the even significand; `shortest` gives the
fewest digits that read back as the number, and of those the nearest. `print`
writes a number positionally when its leading digit stands between the sixteenth
place before the point and the fourth after it, and with an exponent otherwise. -/
namespace FirmwareBuild

inductive Binary64
  | nan
  | infinite (negative : Bool)
  | finite (negative : Bool) (m : Nat) (e : Int)
deriving Repr, DecidableEq

namespace Binary64

def twoPow (n : Nat) : Nat := Nat.pow 2 n

def tenPow (n : Nat) : Nat := Nat.pow 10 n

def zero (negative : Bool) : Binary64 := .finite negative 0 (-1074)

/-- The natural number nearest to a quotient; a tie goes to the even one. -/
def roundDiv (num den : Nat) : Nat :=
  let q := num / den
  let r := num % den
  if 2 * r < den then q else if 2 * r > den then q + 1 else if q % 2 = 0 then q else q + 1

/-- The number nearest to a positive quotient. -/
def ofQuotient (negative : Bool) (num den : Nat) : Binary64 :=
  let estimate : Int := (Nat.log2 num : Int) - Nat.log2 den - 52
  -- the estimate of the exponent is right or one too large
  let small : Bool :=
    if estimate ≤ 0 then num * twoPow (-estimate).toNat < twoPow 52 * den
    else num < twoPow 52 * den * twoPow estimate.toNat
  let e := max (if small then estimate - 1 else estimate) (-1074)
  let m :=
    if e ≤ 0 then roundDiv (num * twoPow (-e).toNat) den
    else roundDiv num (den * twoPow e.toNat)
  let (m, e) := if m = twoPow 53 then (twoPow 52, e + 1) else (m, e)
  if e > 971 then .infinite negative else .finite negative m e

/-- The number nearest to `digits · 10^exponent`. -/
def ofDecimal (negative : Bool) (digits : Nat) (exponent : Int) : Binary64 :=
  let magnitude : Int := (Nat.toDigits 10 digits).length + exponent
  if digits = 0 ∨ magnitude < -330 then zero negative
  else if magnitude > 310 then .infinite negative
  else if exponent ≥ 0 then ofQuotient negative (digits * tenPow exponent.toNat) 1
  else ofQuotient negative digits (tenPow (-exponent).toNat)

/-! ### The shortest decimal -/

/-- The value of a significand and an exponent as a quotient. -/
def quotient (m : Nat) (e : Int) : Nat × Nat :=
  if e ≥ 0 then (m * twoPow e.toNat, 1) else (m, twoPow (-e).toNat)

/-- The number of places before the point: `p` with `10^(p-1) ≤ num/den < 10^p`. -/
def places (num den : Nat) : Int :=
  ((Nat.toDigits 10 (num * tenPow 400 / den)).length : Int) - 400

/-- The two neighbours of a quotient among the multiples of `10^k`, the nearer one first. -/
def neighbours (num den : Nat) (k : Int) : List Nat :=
  let (num, den) := if k ≥ 0 then (num, den * tenPow k.toNat) else (num * tenPow (-k).toNat, den)
  let q := num / den
  let r := num % den
  if 2 * r < den ∨ (2 * r = den ∧ q % 2 = 0) then [q, q + 1] else [q + 1, q]

/-- The first of the grids with `n`, `n + 1`, … digits on which a neighbour reads back. -/
def search (m : Nat) (e : Int) (num den : Nat) (p : Int) : (grids n : Nat) → Nat × Int
  | 0, _ => (0, 0)
  | grids + 1, n =>
    let k := p - n
    match (neighbours num den k).find? fun d => ofDecimal false d k == .finite false m e with
    | some d => (d, k)
    | none => search m e num den p grids (n + 1)

/-- Digits and exponent of the shortest decimal that reads back as `m · 2^e`. -/
def shortest (m : Nat) (e : Int) : Nat × Int :=
  let (num, den) := quotient m e
  search m e num den (places num den) 17 1

/-! ### Text -/

/-- Drops the zeros at the end of a decimal's digits. -/
def trimZeros (digits : List Char) : List Char :=
  (digits.reverse.dropWhile (· == '0')).reverse

def exponentText (x : Int) : List Char :=
  let digits := Nat.toDigits 10 x.natAbs
  (if x < 0 then '-' else '+') :: (if digits.length < 2 then '0' :: digits else digits)

/-- A number `0.d₁d₂… · 10^point`. -/
def placed (digits : List Char) (point : Int) : List Char :=
  if -4 < point ∧ point ≤ 16 then
    if point ≤ 0 then '0' :: '.' :: List.replicate (-point).toNat '0' ++ digits
    else
      let n := point.toNat
      if digits.length ≤ n then digits ++ List.replicate (n - digits.length) '0' ++ ['.', '0']
      else digits.take n ++ '.' :: digits.drop n
  else
    let fraction := digits.drop 1
    digits.take 1 ++ (if fraction.isEmpty then [] else '.' :: fraction) ++
      'e' :: exponentText (point - 1)

/-- What is written for the numbers that have no decimal. -/
structure Words where
  nan : String
  infinite : String

def print (words : Words) : Binary64 → String
  | .nan => words.nan
  | .infinite negative => (if negative then "-" else "") ++ words.infinite
  | .finite negative m e =>
    let body :=
      if m = 0 then ['0', '.', '0']
      else
        let (digits, k) := shortest m e
        let digits := Nat.toDigits 10 digits
        placed (trimZeros digits) (digits.length + k)
    (if negative then "-" else "") ++ String.ofList body

/-- Whether a number is the given integer. -/
def isInt (x : Binary64) (n : Int) : Bool :=
  match x with
  | .finite negative m e =>
    let (num, den) := quotient m e
    decide ((if negative then -(num : Int) else num) = n * den)
  | _ => false

/-- Numeric equality: zeros of either sign are equal, and what is no number equals nothing. -/
def same : Binary64 → Binary64 → Bool
  | .nan, _ | _, .nan => false
  | .finite _ 0 _, .finite _ 0 _ => true
  | x, y => x == y

end Binary64
end FirmwareBuild
