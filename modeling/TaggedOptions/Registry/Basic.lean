import TaggedOptions.Declaration.Basic
import TaggedOptions.Log
import TaggedOptions.Text.Quoted

/-! # The registry

A registry files declarations under their tags.  Every registration makes an entry of its own,
told apart by its serial number, so that two equal declarations stay two entries, while one entry
filed under several tags stays one.
-/

namespace TaggedOptions

/-- The tag under which options without tags are filed.  It belongs to every selection. -/
def wildcard : String := "*"

namespace Declaration

def shelves (d : Declaration) : List String :=
  if d.isWildcard then [wildcard] else d.tags.toList

def tagText (d : Declaration) : String := ", ".intercalate d.shelves

end Declaration

/-- A registered declaration.  The serial number is its identity. -/
structure Entry where
  serial : Nat
  declaration : Declaration
  deriving DecidableEq, Repr, Inhabited

namespace Entry

def same (a b : Entry) : Bool := a.serial == b.serial

def dest (e : Entry) : String := e.declaration.dest

end Entry

structure Shelf where
  tag : String
  entries : List Entry
  deriving DecidableEq, Repr

structure Registry where
  shelves : List Shelf := []
  count : Nat := 0
  deriving DecidableEq, Repr, Inhabited

namespace Registry

def empty : Registry := {}

/-- Adds an entry to the shelf of a tag, at the end; a new tag gets a new last shelf. -/
def file (e : Entry) : List Shelf → String → List Shelf
  | [], tag => [⟨tag, [e]⟩]
  | shelf :: rest, tag =>
    if shelf.tag = tag then { shelf with entries := shelf.entries ++ [e] } :: rest
    else shelf :: file e rest tag

def nextEntry (r : Registry) (d : Declaration) : Entry := ⟨r.count, d⟩

/-- Files a declaration under each of its tags, or under the wildcard when it has none. -/
def register (r : Registry) (d : Declaration) : Registry where
  shelves := d.shelves.foldl (file (r.nextEntry d)) r.shelves
  count := r.count + 1

def registerAll (r : Registry) (ds : List Declaration) : Registry := ds.foldl register r

def tagged (r : Registry) (tag : String) : List Entry :=
  match r.shelves.find? (·.tag = tag) with
  | some shelf => shelf.entries
  | none => []

def tags (r : Registry) : List String := r.shelves.map (·.tag)

def isEmpty (r : Registry) : Bool := r.count == 0

def registered (d : Declaration) : Log.Message :=
  ⟨.debug, "registered " ++ Text.quotedList d.spellings ++ " under [" ++ d.tagText ++ "]"⟩

end Registry

end TaggedOptions
