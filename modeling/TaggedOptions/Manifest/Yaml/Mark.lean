import TaggedOptions.Manifest.Yaml.Block
import TaggedOptions.Manifest.Yaml.Token
import TaggedOptions.Text.Hex

/-! # Names, tags and directives

The tokens that say something about the document or a part of it.  None goes over the end of a line.
-/

namespace TaggedOptions.Yaml

/-! ## Names -/

def name? (cs : List Char) : Option (String × Nat) :=
  let name := cs.takeWhile isNameChar
  let rest := cs.drop name.length
  if name ≠ [] && (isSpaceNext rest || isNext ['?', ':', ',', ']', '\x7d', '%', '@', '\x60'] rest)
  then some (String.ofList name, name.length)
  else none

/-! ## Tags -/

/-- Whether a character may stand in a tag as itself.  In a tag that is written out in full it may
also be a comma or a bracket. -/
def isTagChar (full : Bool) (c : Char) : Bool :=
  isNameChar c ||
    [';', '/', '?', ':', '@', '&', '=', '+', '$', '.', '!', '~', '*', '\x27', '(',
      ')'].contains c ||
    (full && [',', '[', ']'].contains c)

/-- Takes an octet of an escaped character, of which `left` octets are still to come and the bits so
far are `code`: what is then left, and the bits. -/
def takeOctet (left code octet : Nat) : Option (Nat × Nat) :=
  if 0 < left then
    if 0x80 ≤ octet && octet < 0xc0 then some (left - 1, code * 64 + (octet - 0x80)) else none
  else if octet < 0x80 then some (0, octet)
  else if octet < 0xc0 then none
  else if octet < 0xe0 then some (1, octet - 0xc0)
  else if octet < 0xf0 then some (2, octet - 0xe0)
  else if octet < 0xf8 then some (3, octet - 0xf0)
  else none

/-- Reads the characters of a tag, some of which may be written as escaped octets, and returns the
rest of the text. -/
def tagChars? (full : Bool) (left code : Nat) : List Char → Option (List Char × List Char)
  | '%' :: a :: b :: rest =>
    match Text.hexValue? a, Text.hexValue? b with
    | some high, some low =>
      match takeOctet left code (high * 16 + low) with
      | some (0, code) =>
        (tagChars? full 0 0 rest).map fun (cs, rest) =>
          ((Text.character? code).getD '\ufffd' :: cs, rest)
      | some (left, code) => tagChars? full left code rest
      | none => none
    | _, _ => none
  | [] => if left = 0 then some ([], []) else none
  | c :: rest =>
    if 0 < left || c = '%' then none
    else if isTagChar full c then
      (tagChars? full 0 0 rest).map fun (cs, rest) => (c :: cs, rest)
    else some ([], c :: rest)

def tagText? (full : Bool) (cs : List Char) : Option (String × List Char) :=
  match tagChars? full 0 0 cs with
  | some (a :: text, rest) => some (String.ofList (a :: text), rest)
  | _ => none

/-- Splits off a handle behind its exclamation mark: the name in it, whether a second exclamation
mark ends it, and the rest. -/
def splitHandle (cs : List Char) : List Char × Bool × List Char :=
  let name := cs.takeWhile isNameChar
  match cs.drop name.length with
  | '!' :: rest => (name, true, rest)
  | rest => (name, false, rest)

def handleOf (name : List Char) : String := String.ofList ('!' :: name ++ ['!'])

/-- Reads a tag behind its exclamation mark, and returns the rest of the text.  A tag is written out
in full, or has a handle with a name, or has the handle that is just an exclamation mark; a lone
exclamation mark is a tag without a handle. -/
def tagParts? (cs : List Char) : Option (String × String × List Char) :=
  match cs with
  | '<' :: cs =>
    match tagText? true cs with
    | some (text, '>' :: rest) => some ("", text, rest)
    | _ => none
  | _ =>
    match splitHandle cs with
    | (name, true, rest) =>
      (tagText? false rest).map fun (text, rest) => (handleOf name, text, rest)
    | (_, false, _) =>
      (tagChars? false 0 0 cs).map fun (text, rest) =>
        if text.isEmpty then ("", "!", rest) else ("!", String.ofList text, rest)

def tag? (flow : Bool) (cs : List Char) : Option (Token × Nat) :=
  match tagParts? cs with
  | none => none
  | some (handle, text, rest) =>
    if isSpaceNext rest || (flow && isNext [','] rest) then
      some (.tag handle text, cs.length - rest.length)
    else none

/-! ## Directives -/

def versionNumber? (cs : List Char) : Option (Nat × List Char) :=
  let digits := cs.takeWhile Char.isDigit
  if digits ≠ [] && digits.length ≤ 9 then
    some (digits.foldl (fun n c => n * 10 + (c.toNat - '0'.toNat)) 0, cs.drop digits.length)
  else none

def version? (cs : List Char) : Option (Token × List Char) :=
  match versionNumber? cs with
  | some (major, '.' :: cs) =>
    (versionNumber? cs).map fun (minor, rest) => (.version major minor, rest)
  | _ => none

def handle? (cs : List Char) : Option (Token × List Char) :=
  match cs with
  | '!' :: cs =>
    let (name, closed, rest) := splitHandle cs
    let handle := if closed then handleOf name else "!"
    if (closed || name.isEmpty) && isNext [' ', '\t'] rest then
      match tagText? true (rest.dropWhile Text.isSpaceOrTab) with
      | some (stem, rest) => if isSpaceNext rest then some (.handle handle stem, rest) else none
      | none => none
    else none
  | _ => none

def directive? (line : List Char) : Option Token :=
  let name := line.takeWhile isNameChar
  let rest := line.drop name.length
  let read :=
    if !isSpaceNext rest then none
    else
      match String.ofList name with
      | "YAML" => version? (rest.dropWhile Text.isSpaceOrTab)
      | "TAG" => handle? (rest.dropWhile Text.isSpaceOrTab)
      | _ => none
  match read with
  | some (token, rest) => if isLineOver rest then some token else none
  | none => none

end TaggedOptions.Yaml
