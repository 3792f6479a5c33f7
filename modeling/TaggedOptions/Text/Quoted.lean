import TaggedOptions.Text.Unprintable
import TaggedOptions.Text.Extenders

/-! # Quoted text

Messages quote the texts they name.  A quoted text stands between double quotes; the quote and the
backslash are escaped, the common control characters have their short escapes, and every other
character that a reader would not see by itself is shown by its number.
-/

namespace TaggedOptions.Text

/-- Whether `c` is shown by its number inside quotes. -/
def isHidden (c : Char) : Bool :=
  if c.toNat < 127 then c.toNat < 32 else unprintable.contains c || extenders.contains c

def escapeChar (c : Char) : List Char :=
  if c = '\x00' then ['\\', '0']
  else if c = '\t' then ['\\', 't']
  else if c = '\r' then ['\\', 'r']
  else if c = '\n' then ['\\', 'n']
  else if c = '"' then ['\\', '"']
  else if c = '\\' then ['\\', '\\']
  else if isHidden c then
    ['\\', 'u', '\x7b'] ++ Nat.toDigits 16 c.toNat ++ ['\x7d']
  else [c]

def quoted (s : String) : String :=
  String.ofList ('"' :: s.toList.flatMap escapeChar ++ ['"'])

def quotedList (ss : List String) : String :=
  "[" ++ ", ".intercalate (ss.map quoted) ++ "]"

end TaggedOptions.Text
