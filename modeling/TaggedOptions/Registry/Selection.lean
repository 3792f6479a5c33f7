import TaggedOptions.Registry.Basic

/-! # Selections

A selection answers a list of requested tags: the wildcard entries first, then the entries of each
requested tag in turn.  An entry stands in it once for each match; `distinct` keeps the first
occurrence of each.
-/

namespace TaggedOptions

structure Selection where
  registry : Registry
  requested : List String
  deriving Repr

def Registry.get (r : Registry) (tags : List String) : Selection := ⟨r, tags⟩

def distinctEntries (es : List Entry) : List Entry :=
  es.foldl (fun kept e => if kept.any e.same then kept else kept ++ [e]) []

namespace Selection

/-- All entries in selection order, once for each match. -/
def entries (s : Selection) : List Entry :=
  s.registry.tagged wildcard ++ s.requested.flatMap s.registry.tagged

def distinct (s : Selection) : List Entry := distinctEntries s.entries

/-- The declarations in selection order, once for each match: what a parser under construction is
told when a registry is applied to it. -/
def declarations (s : Selection) : List Declaration := s.entries.map (·.declaration)

end Selection

end TaggedOptions
