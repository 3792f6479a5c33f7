import TaggedOptions.Text.Blank
import TaggedOptions.Text.Hex

/-! # The tokens of a TOML text

A TOML text is cut into tokens character by character, as its texts and comments are of the same
form wherever they stand.  Numbers and dates are not: what they are made of, letters, digits, points
and blanks, comes as tokens of its own.  A line ends with a line feed that a carriage return may
precede; no other control character than the tabulator is written as itself.
-/

namespace TaggedOptions.Toml

inductive Token where
  | blank
  | newline
  | openList
  | closeList
  | openTable
  | closeTable
  | comma
  | dot
  | equals
  /-- A text.  One in triple quotes may spread over lines, and is no key. -/
  | text (value : String) (spread : Bool)
  | bare (characters : List Char)
  deriving DecidableEq, Repr

structure Draft where
  quote : Char
  spread : Bool
  characters : List Char := []
  deriving DecidableEq, Repr

namespace Draft

def push (d : Draft) (c : Char) : Draft := { d with characters := c :: d.characters }

def pushQuotes (d : Draft) (n : Nat) : Draft :=
  { d with characters := List.replicate n d.quote ++ d.characters }

/-- The token of a draft that ends with `closing` quotes.  Of more than are needed, the first ones
belong to the text. -/
def finish (d : Draft) (closing : Nat) : Token :=
  let d := d.pushQuotes (closing - if d.spread then 3 else 1)
  .text (String.ofList d.characters.reverse) d.spread

end Draft

inductive Cutting where
  | idle
  | bare (characters : List Char)
  | comment
  /-- A text of which one quote, or two, is all that is there. -/
  | opening (quote : Char) (twice : Bool)
  /-- A text in triple quotes that just opened.  A line that ends here is no part of it. -/
  | opened (draft : Draft)
  /-- A text, after `closing` quotes that may end it. -/
  | text (draft : Draft) (closing : Nat)
  | escape (draft : Draft)
  /-- A text, within the digits of an escape; `left` are still to come. -/
  | unit (draft : Draft) (value left : Nat)
  /-- A text, after a backslash and blanks, and with `broken` also an end of line.  What is blank
  is no part of the text. -/
  | fold (draft : Draft) (broken : Bool)
  | returned (cutting : Cutting)
  deriving DecidableEq, Repr

def isControl (c : Char) : Bool := (c.toNat < 0x20 && c != '\t') || c.toNat == 0x7f

def escaped? : Char → Option Char
  | '"' => some '"'
  | '\\' => some '\\'
  | 'b' => some '\x08'
  | 'e' => some '\x1b'
  | 'f' => some '\x0c'
  | 'n' => some '\n'
  | 'r' => some '\r'
  | 't' => some '\t'
  | _ => none

def escapeDigits? : Char → Option Nat
  | 'x' => some 2
  | 'u' => some 4
  | 'U' => some 8
  | _ => none

def single? : Char → Option Token
  | ' ' => some .blank
  | '\t' => some .blank
  | '[' => some .openList
  | ']' => some .closeList
  | '\x7b' => some .openTable
  | '\x7d' => some .closeTable
  | ',' => some .comma
  | '.' => some .dot
  | '=' => some .equals
  | _ => none

def starting (c : Char) : Cutting :=
  if c = '#' then .comment
  else if c = '"' || c = '\x27' then .opening c false
  else .bare [c]

def start (done : List Token) (c : Char) : List Token × Cutting :=
  match single? c with
  | some token => (token :: done, .idle)
  | none => (done, starting c)

def cutText (done : List Token) (d : Draft) (closing : Nat) (c : Char) :
    Option (List Token × Cutting) :=
  if c = d.quote then
    if !d.spread then some (d.finish 1 :: done, .idle)
    -- two quotes may stand in front of the three that end the text, and no more
    else if closing = 4 then some (d.finish 5 :: done, .idle)
    else some (done, .text d (closing + 1))
  else if 3 ≤ closing then some (start (d.finish closing :: done) c)
  else if isControl c then none
  else if c = '\\' && d.quote = '"' then some (done, .escape (d.pushQuotes closing))
  else some (done, .text ((d.pushQuotes closing).push c) 0)

def cutCharacter (done : List Token) (c : Char) : Cutting → Option (List Token × Cutting)
  | .idle => some (start done c)
  | .bare characters =>
    if (single? c).isSome || c = '#' then some (start (.bare characters.reverse :: done) c)
    else some (done, .bare (c :: characters))
  | .comment => if isControl c then none else some (done, .comment)
  | .opening quote false =>
    if c = quote then some (done, .opening quote true) else cutText done ⟨quote, false, []⟩ 0 c
  | .opening quote true =>
    if c = quote then some (done, .opened ⟨quote, true, []⟩)
    else some (start (.text "" false :: done) c)
  | .opened d => cutText done d 0 c
  | .text d closing => cutText done d closing c
  | .escape d =>
    match escaped? c, escapeDigits? c with
    | some e, _ => some (done, .text (d.push e) 0)
    | none, some digits => some (done, .unit d 0 digits)
    | none, none => if Text.isSpaceOrTab c && d.spread then some (done, .fold d false) else none
  | .unit d value left =>
    match Text.hexValue? c with
    | none => none
    | some digit =>
      let value := value * 16 + digit
      if 1 < left then some (done, .unit d value (left - 1))
      else (Text.character? value).map fun e => (done, .text (d.push e) 0)
  | .fold d broken =>
    if Text.isSpaceOrTab c then some (done, .fold d broken)
    else if broken then cutText done d 0 c
    else none
  | .returned _ => none

def cutLine (done : List Token) : Cutting → Option (List Token × Cutting)
  | .idle => some (.newline :: done, .idle)
  | .bare characters => some (.newline :: .bare characters.reverse :: done, .idle)
  | .comment => some (.newline :: done, .idle)
  | .opening _ false => none
  | .opening _ true => some (.newline :: .text "" false :: done, .idle)
  | .opened d => some (done, .text d 0)
  | .text d closing =>
    if !d.spread then none
    else if 3 ≤ closing then some (.newline :: d.finish closing :: done, .idle)
    else some (done, .text ((d.pushQuotes closing).push '\n') 0)
  | .escape d => if d.spread then some (done, .fold d true) else none
  | .unit _ _ _ => none
  | .fold d _ => some (done, .fold d true)
  | .returned _ => none

def cutReturn : Cutting → Option Cutting
  | .returned _ => none
  | .text d closing =>
    if 3 ≤ closing then some (.returned (.text d closing))
    else some (.returned (.text ((d.pushQuotes closing).push '\r') 0))
  | cutting => some (.returned cutting)

/-- Looks at one character.  The tokens cut so far come last first. -/
def cut (done : List Token) (cutting : Cutting) (c : Char) : Option (List Token × Cutting) :=
  if c = '\r' then (cutReturn cutting).map (done, ·)
  else if c = '\n' then
    match cutting with
    | .returned cutting => cutLine done cutting
    | cutting => cutLine done cutting
  else cutCharacter done c cutting

def cutAll (done : List Token) (cutting : Cutting) : List Char → Option (List Token × Cutting)
  | [] => some (done, cutting)
  | c :: rest =>
    match cut done cutting c with
    | some (done, cutting) => cutAll done cutting rest
    | none => none

def finish (done : List Token) : Cutting → Option (List Token)
  | .idle => some done.reverse
  | .comment => some done.reverse
  | .bare characters => some (Token.bare characters.reverse :: done).reverse
  | .opening _ true => some (Token.text "" false :: done).reverse
  | .text d closing =>
    if d.spread && 3 ≤ closing then some (d.finish closing :: done).reverse else none
  | _ => none

def tokens? (text : List Char) : Option (List Token) :=
  match cutAll [] .idle text with
  | some (done, cutting) => finish done cutting
  | none => none

end TaggedOptions.Toml
