import TaggedOptions.Declaration.Directives
import TaggedOptions.Text.Blank

/-! # Spellings

A spelling is a long flag (`--name`), a short flag (`-c`) or a bare word, which names a positional
argument.  `Spelling.ofString` tells the three apart and refuses what is none of them;
`destination` derives the name under which an option is answered.
-/

namespace TaggedOptions

inductive Spelling where
  | long (name : String)
  | short (letter : Char)
  | word (name : String)
  deriving DecidableEq, Repr

inductive SpellingFault where
  | missing
  /-- Two dashes with no name behind them, or with a third dash. -/
  | unnamedLong
  | brokenLong
  /-- One dash with no character, several characters or a blank behind it. -/
  | malformedShort
  | malformedWord
  | crowdedWord
  | valuelessWord
  deriving DecidableEq, Repr

namespace SpellingFault

def reason : SpellingFault → String
  | .missing => "an option needs at least one spelling"
  | .unnamedLong => "long flags need a name after `--`"
  | .brokenLong => "long flags cannot contain `=` or spaces"
  | .malformedShort => "short flags are a single character after `-`"
  | .malformedWord => "positional names cannot be empty or contain spaces"
  | .crowdedWord => "a positional argument takes a single name"
  | .valuelessWord => "a positional argument must store a value"

end SpellingFault

namespace Spelling

def ofChars : List Char → Except SpellingFault Spelling
  | '-' :: '-' :: name =>
    if name = [] || name.head? = some '-' then .error .unnamedLong
    else if '=' ∈ name || ' ' ∈ name then .error .brokenLong
    else .ok (.long (String.ofList name))
  | ['-', letter] => if Text.isBlank letter then .error .malformedShort else .ok (.short letter)
  | '-' :: _ => .error .malformedShort
  | name => if name = [] || ' ' ∈ name then .error .malformedWord
      else .ok (.word (String.ofList name))

def ofString (s : String) : Except SpellingFault Spelling := ofChars s.toList

def long? : Spelling → Option String
  | .long name => some name
  | _ => none

def short? : Spelling → Option Char
  | .short letter => some letter
  | _ => none

def isWord : Spelling → Bool
  | .word _ => true
  | _ => false

end Spelling

/-! ## Destinations -/

def afterTwoDashes? (s : String) : Option (List Char) :=
  match s.toList with
  | '-' :: '-' :: c :: rest => some (c :: rest)
  | _ => none

def afterDash? (s : String) : Option (List Char) :=
  match s.toList with
  | '-' :: c :: rest => some (c :: rest)
  | _ => none

/-- Dashes inside a flag's name become underscores in its destination. -/
def underscored (cs : List Char) : String :=
  String.ofList (cs.map fun c => if c = '-' then '_' else c)

/-- The name under which an option is answered: the one it asks for, else its first long flag,
else its first short flag, else its first spelling as written. -/
def destination (spellings : List String) (directives : Directives) : String :=
  match directives.dest with
  | some dest => dest
  | none =>
    match (spellings.findSome? afterTwoDashes?).or (spellings.findSome? afterDash?) with
    | some name => underscored name
    | none => spellings.headD ""

end TaggedOptions
