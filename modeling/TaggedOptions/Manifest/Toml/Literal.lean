import TaggedOptions.Manifest.Document
import TaggedOptions.Text.Numeral

/-! # Unquoted values

A value without quotes is a truth value, a number, or a point in time.  A manifest has no place for
the last two, but they have to be well written and within bounds.
-/

namespace TaggedOptions.Toml

open Numeral

/-! ## Numbers -/

/-- Whether characters are digits with single underscores between them.  With `digit` a digit
stands right before them. -/
def groupedAfter (isDigit : Char → Bool) (digit : Bool) : List Char → Bool
  | [] => digit
  | c :: rest =>
    if isDigit c then groupedAfter isDigit true rest
    else c = '_' && digit && groupedAfter isDigit false rest

def grouped (isDigit : Char → Bool) (cs : List Char) : Bool := groupedAfter isDigit false cs

def isWhole (cs : List Char) : Bool :=
  grouped Char.isDigit cs && (cs.head? != some '0' || cs.length == 1)

def isInteger : List Char → Bool
  | '0' :: 'x' :: rest => grouped isHex rest && wholeFits false (value 16 rest)
  | '0' :: 'o' :: rest => grouped isOctal rest && wholeFits false (value 8 rest)
  | '0' :: 'b' :: rest => grouped isBinary rest && wholeFits false (value 2 rest)
  | cs =>
    let (negative, rest) := unsigned cs
    isWhole rest && wholeFits negative (value 10 rest)

def isFractional (cs : List Char) : Bool :=
  let d := Decimal.split (unsigned cs).2
  isWhole d.whole && (d.fraction.isSome || d.exponent.isSome) &&
    grouped Char.isDigit (d.fraction.getD ['0']) &&
    grouped Char.isDigit (unsigned (d.exponent.getD ['0'])).2 && d.isFinite

def isSpecial (cs : List Char) : Bool :=
  (unsigned cs).2 = ['i', 'n', 'f'] || (unsigned cs).2 = ['n', 'a', 'n']

/-! ## Points in time -/

def fixed? : Nat → List Char → Option (Nat × List Char)
  | 0, cs => some (0, cs)
  | _ + 1, [] => none
  | n + 1, c :: rest =>
    if c.isDigit then
      (fixed? n rest).map fun (value, rest) => ((c.toNat - '0'.toNat) * 10 ^ n + value, rest)
    else none

def mark? (c : Char) : List Char → Option (List Char)
  | d :: rest => if c = d then some rest else none
  | [] => none

def daysIn (year month : Nat) : Nat :=
  if month = 2 then
    if year % 4 = 0 && (year % 100 != 0 || year % 400 == 0) then 29 else 28
  else if month = 4 || month = 6 || month = 9 || month = 11 then 30
  else 31

def date? (cs : List Char) : Option (List Char) := do
  let (year, cs) ← fixed? 4 cs
  let cs ← mark? '-' cs
  let (month, cs) ← fixed? 2 cs
  let cs ← mark? '-' cs
  let (day, cs) ← fixed? 2 cs
  if 1 ≤ month && month ≤ 12 && 1 ≤ day && day ≤ daysIn year month then some cs else none

def fraction? : List Char → Option (List Char)
  | '.' :: c :: rest => if c.isDigit then some (rest.dropWhile Char.isDigit) else none
  | '.' :: [] => none
  | cs => some cs

def seconds? : List Char → Option (List Char)
  | ':' :: rest =>
    match fixed? 2 rest with
    | some (second, rest) => if second ≤ 60 then fraction? rest else none
    | none => none
  | cs => some cs

def time? (cs : List Char) : Option (List Char) := do
  let (hour, cs) ← fixed? 2 cs
  let cs ← mark? ':' cs
  let (minute, cs) ← fixed? 2 cs
  if hour ≤ 23 && minute ≤ 59 then seconds? cs else none

def isOffset (cs : List Char) : Bool :=
  let rest := (unsigned cs).2
  cs = [] || cs = ['Z'] || cs = ['z'] ||
    (rest.length < cs.length &&
      match fixed? 2 rest with
      | none => false
      | some (hour, rest) =>
        match (mark? ':' rest).bind (fixed? 2) with
        | some (minute, []) => minute ≤ 59 && hour * 60 + minute ≤ 24 * 60
        | _ => false)

def isDate (cs : List Char) : Bool := date? cs == some []

def isMoment (cs : List Char) : Bool :=
  time? cs == some [] ||
    match date? cs with
    | none => false
    | some [] => true
    | some (c :: rest) =>
      (c = 'T' || c = 't' || c = ' ') &&
        match time? rest with
        | none => false
        | some rest => isOffset rest

/-! ## Values -/

def literal? (cs : List Char) : Option Scalar :=
  if cs = ['t', 'r', 'u', 'e'] then some (.ofFlag true)
  else if cs = ['f', 'a', 'l', 's', 'e'] then some (.ofFlag false)
  else if isInteger cs || isFractional cs || isSpecial cs || isMoment cs then some .foreign
  else none

end TaggedOptions.Toml
