import TaggedOptions.Manifest.Document
import TaggedOptions.Manifest.Yaml.Node
import TaggedOptions.Text.Numeral

/-! # What scalars mean

Every scalar is a text where a text is expected.  Where several kinds of value are possible, its
tag decides, and without one the form of a plain scalar: a word for no value, a truth value, a
number, or else a text.
-/

namespace TaggedOptions.Yaml

open Numeral

/-! ## Plain words -/

def isNullWord (s : String) : Bool := ["~", "null", "Null", "NULL"].contains s

def flagWord? (s : String) : Option Bool :=
  if ["true", "True", "TRUE"].contains s then some true
  else if ["false", "False", "FALSE"].contains s then some false
  else none

def areDigits (isDigit : Char → Bool) (cs : List Char) : Bool := !cs.isEmpty && cs.all isDigit

/-- Whether characters are digits behind a needless zero, as numbers do not have. -/
def isPadded (cs : List Char) : Bool :=
  match (unsigned cs).2 with
  | '0' :: rest => areDigits Char.isDigit rest
  | _ => false

def isInteger (cs : List Char) : Bool :=
  let (negative, digits) := unsigned cs
  match digits with
  | '0' :: 'x' :: rest => areDigits isHex rest && wholeFits negative (value 16 rest)
  | '0' :: 'o' :: rest => areDigits isOctal rest && wholeFits negative (value 8 rest)
  | '0' :: 'b' :: rest => areDigits isBinary rest && wholeFits negative (value 2 rest)
  | _ => areDigits Char.isDigit digits && !isPadded cs && wholeFits negative (value 10 digits)

/-- Whether characters are a decimal number that rounds to a finite one.  One side of the point may
be without digits. -/
def isDecimal (cs : List Char) : Bool :=
  let d := Decimal.split (unsigned cs).2
  areDigits Char.isDigit (d.whole ++ d.fraction.getD []) &&
    areDigits Char.isDigit (unsigned (d.exponent.getD ['0'])).2 && !isPadded cs && d.isFinite

def isSpecial (s : String) : Bool :=
  [".inf", ".Inf", ".INF", "+.inf", "+.Inf", "+.INF", "-.inf", "-.Inf", "-.INF",
    ".nan", ".NaN", ".NAN"].contains s

def isNumber (s : String) : Bool := isInteger s.toList || isDecimal s.toList || isSpecial s

/-! ## Tags -/

inductive TagSense where
  | own (name : String)
  | flag
  | null
  | number
  | other
  deriving DecidableEq, Repr

def TagSense.ofTag (tag : String) : TagSense :=
  match tag.toList with
  | '!' :: name => .own (String.ofList name)
  | _ =>
    match tag with
    | "tag:yaml.org,2002:bool" => .flag
    | "tag:yaml.org,2002:null" => .null
    | "tag:yaml.org,2002:int" => .number
    | "tag:yaml.org,2002:float" => .number
    | _ => .other

/-! ## Readings -/

def flag? (tag : Option TagSense) (style : Style) (text : String) : Option Bool :=
  if style = .plain || (style = .literal && tag = some .flag) then flagWord? text else none

/-- What a scalar is where one of a few words is expected.  A tag of the text's own may be the word,
and then the scalar says nothing more. -/
def choice? (tag : Option TagSense) (style : Style) (text : String) : Option String :=
  match tag with
  | some (.own name) =>
    if style = .plain && (text.isEmpty || isNullWord text) then some name else none
  | _ => some text

def loose? (tag : Option TagSense) (style : Style) (text : String) : Option Loose :=
  match tag with
  | some (.own _) => none
  | some .flag => (flagWord? text).map .flag
  | some .null => none
  | some .number => none
  | some .other => some (.text text)
  | none =>
    if style != .plain then some (.text text)
    else if text.isEmpty || isNullWord text then none
    else
      match flagWord? text with
      | some b => some (.flag b)
      | none => if isNumber text then none else some (.text text)

def presence (tag : Option TagSense) (style : Style) (text : String) : Presence :=
  if style != .plain then .present
  else
    match tag with
    | some .null => if isNullWord text then .absent else .illegible
    | some _ => .present
    | none => if text.isEmpty || isNullWord text then .absent else .present

def readings (tag : Option String) (style : Style) (text : String) : Scalar :=
  let tag := tag.map .ofTag
  { text? := some text
    flag? := flag? tag style text
    choice? := choice? tag style text
    loose? := loose? tag style text
    presence := presence tag style text
    hollow := style = .plain && text.isEmpty }

end TaggedOptions.Yaml
