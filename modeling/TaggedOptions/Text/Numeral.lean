import TaggedOptions.Text.Hex

/-! # Numerals

What the written forms of numbers have in common: a sign, digits, a point and an exponent.  Which
of these a number may have, and what may stand between its digits, is for each format to say.
-/

namespace TaggedOptions.Numeral

def unsigned : List Char → Bool × List Char
  | '+' :: rest => (false, rest)
  | '-' :: rest => (true, rest)
  | cs => (false, cs)

/-- The number that digits make.  What is no digit is skipped. -/
def value (base : Nat) (cs : List Char) : Nat :=
  cs.foldl (fun n c => match Text.hexValue? c with | some d => n * base + d | none => n) 0

/-- Whether a whole number fits into 128 bits, with a minus or without a sign. -/
def wholeFits (negative : Bool) (n : Nat) : Bool :=
  if negative then n ≤ Nat.pow 2 127 else n < Nat.pow 2 128

def isOctal (c : Char) : Bool := '0' ≤ c && c ≤ '7'

def isBinary (c : Char) : Bool := c = '0' || c = '1'

def isHex (c : Char) : Bool := (Text.hexValue? c).isSome

def splitAtFirst (p : Char → Bool) : List Char → List Char × Option (List Char)
  | [] => ([], none)
  | c :: rest =>
    if p c then ([], some rest)
    else
      let (before, after) := splitAtFirst p rest
      (c :: before, after)

structure Decimal where
  whole : List Char
  fraction : Option (List Char)
  exponent : Option (List Char)
  deriving DecidableEq, Repr

namespace Decimal

def split (cs : List Char) : Decimal :=
  let (mantissa, exponent) := splitAtFirst (fun c => c = 'e' || c = 'E') cs
  let (whole, fraction) := splitAtFirst (· = '.') mantissa
  ⟨whole, fraction, exponent⟩

/-- The exponent of the last digit in front of its mark. -/
def power (d : Decimal) : Int :=
  let (negative, digits) := unsigned (d.exponent.getD [])
  let magnitude : Int := value 10 digits
  (if negative then -magnitude else magnitude) - ((d.fraction.getD []).filter Char.isDigit).length

/-- Whether the number rounds to a finite one of double precision: it is less than the middle
between the largest of those and the next power of two. -/
def isFinite (d : Decimal) : Bool :=
  let bound := (Nat.pow 2 54 - 1) * Nat.pow 2 970
  let digits := value 10 (d.whole ++ d.fraction.getD [])
  -- far from the bound the number of digits decides, so that no huge power is worked out
  if digits = 0 then true
  else if 400 < d.power then false
  else if 0 ≤ d.power then digits * Nat.pow 10 d.power.toNat < bound
  else if (Nat.toDigits 10 digits).length + d.power ≤ 300 then true
  else digits < bound * Nat.pow 10 d.power.natAbs

end Decimal

end TaggedOptions.Numeral
