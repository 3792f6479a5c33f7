import TaggedOptions.Text.ColumnTables
import TaggedOptions.Text.Extenders

/-! # Terminal columns

How many columns a line takes on a terminal.  Most characters take one, wide ones two, and
joining ones none.  A picture that is written with several code points counts once: a base with
the variation selector, a base with a skin tone, or a chain of such pictures held together by
zero-width joiners takes two columns in all.
-/

namespace TaggedOptions.Text

def charColumns (c : Char) : Nat :=
  if c.toNat < 0x300 then (if c.toNat = 0xad then 0 else 1)
  else if invisible.contains c || extenders.contains c then 0
  else if doubleWide.contains c then 2
  else 1

def pictureSelector : Char := '\ufe0f'

def plainSelector : Char := '\ufe0e'

def joiner : Char := '\u200d'

def isSkinTone (c : Char) : Bool := 0x1f3fb ≤ c.toNat && c.toNat ≤ 0x1f3ff

def isPicture (c : Char) : Bool :=
  0x2300 ≤ c.toNat && (emojiByDefault.contains c || takesSkinTone.contains c)

inductive Drawing where
  | fresh
  | based (base : Char)
  /-- A counted picture, which a joiner may continue.  With `retouch` a selector or a skin tone
  still belongs to it. -/
  | drawn (retouch : Bool)
  /-- A counted picture and a joiner: the next picture shares its columns. -/
  | joined
  deriving DecidableEq, Repr

/-- The columns of a line that continues after `d`. -/
def columnsFrom : Drawing → List Char → Nat
  | .based base, [] => charColumns base
  | _, [] => 0
  | .fresh, c :: rest => columnsFrom (.based c) rest
  | .based base, c :: rest =>
    if c = pictureSelector && emojiWhenVaried.contains base then 2 + columnsFrom (.drawn false) rest
    else if c = plainSelector && emojiByDefault.contains base then 1 + columnsFrom .fresh rest
    else if isSkinTone c && takesSkinTone.contains base then 2 + columnsFrom (.drawn false) rest
    else if c = joiner && isPicture base then charColumns base + columnsFrom .joined rest
    else charColumns base + columnsFrom (.based c) rest
  | .drawn retouch, c :: rest =>
    if c = joiner then columnsFrom .joined rest
    else if retouch && (c = pictureSelector || isSkinTone c) then columnsFrom (.drawn false) rest
    else columnsFrom (.based c) rest
  | .joined, c :: rest =>
    if isPicture c || emojiWhenVaried.contains c && rest.head? = some pictureSelector then
      columnsFrom (.drawn true) rest
    else columnsFrom (.based c) rest

def columns (s : String) : Nat := columnsFrom .fresh s.toList

end TaggedOptions.Text
