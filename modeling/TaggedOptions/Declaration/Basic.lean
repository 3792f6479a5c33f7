import TaggedOptions.Declaration.Spelling

/-! # Declarations

A declaration is an option as its author wrote it: spellings, directives, and the tags of the
stages that ask for it.  The tags form a set that remembers the order of first mention.
-/

namespace TaggedOptions

structure TagSet where
  toList : List String
  nodup : toList.Nodup
  deriving DecidableEq, Repr

namespace TagSet

def empty : TagSet := ⟨[], List.nodup_nil⟩

instance : Inhabited TagSet := ⟨empty⟩

/-- Adds a tag at the end, unless it is there already. -/
def insert (tags : TagSet) (tag : String) : TagSet :=
  if h : tag ∈ tags.toList then tags
  else ⟨tags.toList ++ [tag], by
    rw [List.nodup_append]
    refine ⟨tags.nodup, by simp, ?_⟩
    intro a ha b hb
    rw [List.mem_singleton] at hb
    subst hb
    exact fun eq => h (eq ▸ ha)⟩

def insertAll (tags : TagSet) (more : List String) : TagSet := more.foldl insert tags

def ofList (tags : List String) : TagSet := empty.insertAll tags

end TagSet

structure Declaration where
  spellings : List String
  directives : Directives
  tags : TagSet := .empty
  deriving DecidableEq, Repr, Inhabited

namespace Declaration

def withTags (d : Declaration) (tags : List String) : Declaration :=
  { d with tags := d.tags.insertAll tags }

/-- A declaration without tags belongs to every stage. -/
def isWildcard (d : Declaration) : Bool := d.tags.toList.isEmpty

def dest (d : Declaration) : String := destination d.spellings d.directives

end Declaration

end TaggedOptions
