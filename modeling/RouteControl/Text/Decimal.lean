/-!
# Decimal numbers

Whole numbers in decimal digits, with and without a sign, inside a range; and numbers with an exact
decimal fraction.

Leading zeros count for nothing, and blanks, separators and other scripts' digits are refused.
-/

namespace RouteControl.Decimal

/-- The value of a run of decimal digits, read behind a number already read. -/
def valueFrom (start : Nat) (digits : List Char) : Nat :=
  digits.foldl (fun value digit => 10 * value + (digit.toNat - 48)) start

def digits? (text : List Char) : Option Nat :=
  if text ≠ [] ∧ text.all Char.isDigit then some (valueFrom 0 text) else none

def within (limit : Nat) (number : Option Nat) : Option Nat := number.filter (· ≤ limit)

/-- A number up to the limit, written by digits with or without a leading plus. -/
def unsigned? (limit : Nat) (text : String) : Option Nat :=
  match text.toList with
  | '+' :: digits => within limit (digits? digits)
  | digits => within limit (digits? digits)

/-- A number up to the limit, written with any sign: a minus is good for zero alone. -/
def signed? (limit : Nat) (text : String) : Option Nat :=
  match text.toList with
  | '-' :: digits => within 0 (digits? digits)
  | _ => unsigned? limit text

/-- The digits of a number, filled up with leading zeros to a width. -/
def filled (width n : Nat) : List Char :=
  let digits := (toString n).toList
  List.replicate (width - digits.length) '0' ++ digits

def dropTrailingZeros (digits : List Char) : List Char :=
  (digits.reverse.dropWhile (· = '0')).reverse

/-- The text of `n / 10 ^ places`: exact, with no zero at the end of the fraction and no point
where the fraction is zero. -/
def fraction (places n : Nat) : String :=
  let whole := toString (n / Nat.pow 10 places)
  match dropTrailingZeros (filled places (n % Nat.pow 10 places)) with
  | [] => whole
  | digits => whole ++ "." ++ String.ofList digits

end RouteControl.Decimal
