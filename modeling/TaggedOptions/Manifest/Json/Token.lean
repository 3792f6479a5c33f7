import TaggedOptions.Text.Hex

/-! # The tokens of a JSON text

A JSON text is cut into tokens character by character.  The state of the cutter says what the next
character may continue; a character that ends a number is looked at once more as the start of
something new.
-/

namespace TaggedOptions.Json

inductive Token where
  | openList
  | closeList
  | openTable
  | closeTable
  | comma
  | colon
  /-- A text.  One that escapes half of a surrogate pair is written correctly but means no text,
  and is `none`. -/
  | text (value : Option String)
  | number
  | flag (value : Bool)
  | null
  deriving DecidableEq, Repr

inductive Digits where
  | sign
  | zero
  | whole
  | point
  | fraction
  | mark
  | markSign
  | exponent
  deriving DecidableEq, Repr

namespace Digits

def complete : Digits → Bool
  | .zero | .whole | .fraction | .exponent => true
  | _ => false

def next? (d : Digits) (c : Char) : Option Digits :=
  match d with
  | .sign => if c = '0' then some .zero else if c.isDigit then some .whole else none
  | .zero =>
    if c = '.' then some .point else if c = 'e' || c = 'E' then some .mark
    else none
  | .whole =>
    if c.isDigit then some .whole else if c = '.' then some .point
    else if c = 'e' || c = 'E' then some .mark else none
  | .point => if c.isDigit then some .fraction else none
  | .fraction =>
    if c.isDigit then some .fraction else if c = 'e' || c = 'E' then some .mark else none
  | .mark =>
    if c = '+' || c = '-' then some .markSign else if c.isDigit then some .exponent else none
  | .markSign => if c.isDigit then some .exponent else none
  | .exponent => if c.isDigit then some .exponent else none

end Digits

structure Draft where
  characters : List Char := []
  /-- The first half of a surrogate pair whose second half has to follow. -/
  half : Option Nat := none
  /-- Whether all escapes so far mean characters. -/
  sound : Bool := true
  deriving DecidableEq, Repr

namespace Draft

def unpaired (d : Draft) : Draft :=
  if d.half.isSome then { d with half := none, sound := false } else d

def push (d : Draft) (c : Char) : Draft :=
  let d := d.unpaired
  { d with characters := c :: d.characters }

def pushUnit (d : Draft) (unit : Nat) : Draft :=
  if 0xdc00 ≤ unit && unit < 0xe000 then
    match d.half with
    | some high =>
      let c := Char.ofNat (0x10000 + (high - 0xd800) * 0x400 + (unit - 0xdc00))
      { d with characters := c :: d.characters, half := none }
    | none => { d with sound := false }
  else if 0xd800 ≤ unit && unit < 0xdc00 then { d.unpaired with half := some unit }
  else d.push (Char.ofNat unit)

def finish (d : Draft) : Token :=
  let d := d.unpaired
  .text (if d.sound then some (String.ofList d.characters.reverse) else none)

end Draft

inductive Cutting where
  | idle
  | text (draft : Draft)
  | escape (draft : Draft)
  /-- A text, within the four digits of an escape; `left` are still to come. -/
  | unit (draft : Draft) (value left : Nat)
  | number (digits : Digits)
  | word (rest : List Char) (token : Token)
  deriving DecidableEq, Repr

def escaped? : Char → Option Char
  | '"' => some '"'
  | '\\' => some '\\'
  | '/' => some '/'
  | 'b' => some '\x08'
  | 'f' => some '\x0c'
  | 'n' => some '\n'
  | 'r' => some '\r'
  | 't' => some '\t'
  | _ => none

def start (done : List Token) (c : Char) : Option (List Token × Cutting) :=
  if c = ' ' || c = '\n' || c = '\r' || c = '\t' then some (done, .idle)
  else if c = '[' then some (.openList :: done, .idle)
  else if c = ']' then some (.closeList :: done, .idle)
  else if c = '\x7b' then some (.openTable :: done, .idle)
  else if c = '\x7d' then some (.closeTable :: done, .idle)
  else if c = ',' then some (.comma :: done, .idle)
  else if c = ':' then some (.colon :: done, .idle)
  else if c = '"' then some (done, .text {})
  else if c = '-' then some (done, .number .sign)
  else if c = '0' then some (done, .number .zero)
  else if c.isDigit then some (done, .number .whole)
  else if c = 't' then some (done, .word ['r', 'u', 'e'] (.flag true))
  else if c = 'f' then some (done, .word ['a', 'l', 's', 'e'] (.flag false))
  else if c = 'n' then some (done, .word ['u', 'l', 'l'] .null)
  else none

/-- Looks at one character.  The tokens cut so far come last first. -/
def cut (done : List Token) (state : Cutting) (c : Char) : Option (List Token × Cutting) :=
  match state with
  | .idle => start done c
  | .text draft =>
    if c = '"' then some (draft.finish :: done, .idle)
    else if c = '\\' then some (done, .escape draft)
    else if c.toNat < 0x20 then none
    else some (done, .text (draft.push c))
  | .escape draft =>
    if c = 'u' then some (done, .unit draft 0 4)
    else
      match escaped? c with
      | some e => some (done, .text (draft.push e))
      | none => none
  | .unit draft value left =>
    match Text.hexValue? c with
    | none => none
    | some digit =>
      let value := value * 16 + digit
      if left ≤ 1 then some (done, .text (draft.pushUnit value))
      else some (done, .unit draft value (left - 1))
  | .number digits =>
    match digits.next? c with
    | some digits => some (done, .number digits)
    | none => if digits.complete && !c.isDigit then start (.number :: done) c else none
  | .word [] token => start (token :: done) c
  | .word (expected :: rest) token =>
    if c = expected then
      match rest with
      | [] => some (token :: done, .idle)
      | _ => some (done, .word rest token)
    else none

def cutAll (done : List Token) (state : Cutting) : List Char → Option (List Token × Cutting)
  | [] => some (done, state)
  | c :: rest =>
    match cut done state c with
    | some (done, state) => cutAll done state rest
    | none => none

def tokens? (text : List Char) : Option (List Token) :=
  match cutAll [] .idle text with
  | some (done, .idle) => some done.reverse
  | some (done, .number digits) =>
    if digits.complete then some (Token.number :: done).reverse else none
  | _ => none

end TaggedOptions.Json
