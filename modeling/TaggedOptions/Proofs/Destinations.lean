import Mathlib
import TaggedOptions.Proofs.Rejections

/-! # The spelling that names an option

Two readers look at the spellings of a declaration.  One finds the destination and goes by the
dashes in front alone; the other one tells flags from words and refuses what is neither.  On
declarations that are accepted they agree: both find the same spelling to name the option, and the
argument that is made has the names that the author wrote and an id that follows from them.
-/

namespace TaggedOptions

/-! ## Two ways to find the spelling -/

/-- The spelling that names an option by the dashes in front: the first that has something behind
two of them, else the first that has something behind one, else the first of all. -/
def namedByPrefix? (spellings : List String) : Option String :=
  (spellings.find? fun s => (afterTwoDashes? s).isSome).or
    ((spellings.find? fun s => (afterDash? s).isSome).or spellings.head?)

def readsAs (kind : Spelling → Bool) (s : String) : Bool :=
  match Spelling.ofString s with
  | .ok p => kind p
  | .error _ => false

/-- The spelling that names an option by what the spellings are read as: the first long flag, else
the first short flag, else the first bare word. -/
def namedByReading? (spellings : List String) : Option String :=
  (spellings.find? (readsAs fun p => p.long?.isSome)).or
    ((spellings.find? (readsAs fun p => p.short?.isSome)).or
      (spellings.find? (readsAs Spelling.isWord)))

def undashed (s : String) : String :=
  match (afterTwoDashes? s).or (afterDash? s) with
  | some name => underscored name
  | none => s

section

variable {α β : Type} {f : α → Option β} {xs : List α}

theorem findSome?_eq_bind_find? (f : α → Option β) (xs : List α) :
    xs.findSome? f = (xs.find? fun x => (f x).isSome).bind f := by
  induction xs with
  | nil => rfl
  | cons x xs ih => cases found : f x <;> simp [found, ih]

theorem exists_of_find?_isSome {x : α} (found : (xs.find? fun x => (f x).isSome) = some x) :
    ∃ y, f x = some y :=
  Option.isSome_iff_exists.mp (List.find?_some (p := fun x => (f x).isSome) found)

theorem find?_isSome_eq_none_iff :
    (xs.find? fun x => (f x).isSome) = none ↔ ∀ x ∈ xs, f x = none := by
  simp

end

/-- Where a destination is derived, it comes from the spelling that the dashes tell. -/
theorem destination_eq_undashed {spellings : List String} {directives : Directives}
    (unasked : directives.dest = none) {s : String} (named : namedByPrefix? spellings = some s) :
    destination spellings directives = undashed s := by
  unfold destination
  simp only [unasked]
  rw [findSome?_eq_bind_find?, findSome?_eq_bind_find?]
  unfold namedByPrefix? at named
  unfold undashed
  cases long : spellings.find? fun s => (afterTwoDashes? s).isSome with
  | some t =>
    simp only [long, Option.some_or, Option.some.injEq] at named
    subst named
    obtain ⟨name, behind⟩ := exists_of_find?_isSome long
    simp [behind]
  | none =>
    have noLong := find?_isSome_eq_none_iff.mp long
    simp only [long, Option.none_or] at named
    cases short : spellings.find? fun s => (afterDash? s).isSome with
    | some t =>
      simp only [short, Option.some_or, Option.some.injEq] at named
      subst named
      obtain ⟨name, behind⟩ := exists_of_find?_isSome short
      simp [behind, noLong t (List.mem_of_find?_eq_some short)]
    | none =>
      simp only [short, Option.none_or] at named
      obtain ⟨rest, rfl⟩ := List.head?_eq_some_iff.mp named
      have noShort := find?_isSome_eq_none_iff.mp short
      simp [noShort s List.mem_cons_self, noLong s List.mem_cons_self]

/-! ## Legal spellings -/

section

variable {s : String}

theorem afterTwoDashes?_of_legal (legal : LegalSpelling s) :
    afterTwoDashes? s = (longName? s).map String.toList := by
  rcases legal with ⟨name, written, hne, _⟩ | ⟨letter, written, noDash, _⟩ | ⟨hne, noDash, _⟩
  · obtain ⟨c, cs, rfl⟩ := List.exists_cons_of_ne_nil hne
    simp [afterTwoDashes?, longName?, written]
  · unfold afterTwoDashes? longName?
    rw [written]
    split
    next shape => cases shape
    next =>
      split
      next shape => cases shape; exact absurd rfl noDash
      next => rfl
  · have word : isBareWord s = true := by simpa [isBareWord] using noDash
    rw [(names_of_isBareWord word).1, Option.map_none]
    unfold afterTwoDashes?
    split
    next shape => simp [shape] at noDash
    next => rfl

theorem afterDash?_of_legal (legal : LegalSpelling s) (noLong : longName? s = none) :
    afterDash? s = (shortLetter? s).map ([·]) := by
  rcases legal with ⟨name, written, _⟩ | ⟨letter, written, noDash, _⟩ | ⟨hne, noDash, _⟩
  · simp [longName?, written] at noLong
  · simp [afterDash?, shortLetter?, written, noDash]
  · have word : isBareWord s = true := by simpa [isBareWord] using noDash
    rw [(names_of_isBareWord word).2, Option.map_none]
    unfold afterDash?
    split
    next shape => simp [shape] at noDash
    next => rfl

theorem readsAs_of_legal (legal : LegalSpelling s) :
    readsAs (fun p => p.long?.isSome) s = (longName? s).isSome ∧
      readsAs (fun p => p.short?.isSome) s = (shortLetter? s).isSome ∧
      readsAs Spelling.isWord s = isBareWord s := by
  obtain ⟨p, read⟩ := Spelling.ofString_of_legal legal
  obtain ⟨_, finds⟩ := Spelling.ofString_ok read
  simp [readsAs, read, finds.long, finds.short, finds.word]

theorem dash_not_mem_underscored (name : List Char) : '-' ∉ (underscored name).toList := by
  unfold underscored
  rw [String.toList_ofList]
  intro member
  obtain ⟨c, _, made⟩ := List.mem_map.mp member
  split at made
  · exact absurd made (by decide)
  next other => exact other made

theorem underscored_singleton {letter : Char} (noDash : letter ≠ '-') :
    underscored [letter] = String.ofList [letter] := by
  simp [underscored, noDash]

end

/-! ## What names an option -/

namespace Declaration

inductive NamedBy (d : Declaration) (s : String) : Prop
  | long (name : String) (first : d.spellings.find? (fun t => (longName? t).isSome) = some s)
    (named : longName? s = some name)
  | short (letter : Char) (flagless : ∀ t ∈ d.spellings, longName? t = none)
    (first : d.spellings.find? (fun t => (shortLetter? t).isSome) = some s)
    (named : shortLetter? s = some letter)
  | word (alone : d.spellings = [s]) (bare : isBareWord s = true)

variable {d : Declaration} {s : String}

theorem WellSpelled.exists_namedBy (h : d.WellSpelled) : ∃ s, d.NamedBy s := by
  cases long : d.spellings.find? fun t => (longName? t).isSome with
  | some s =>
    obtain ⟨name, named⟩ := exists_of_find?_isSome long
    exact ⟨s, .long name long named⟩
  | none =>
    have flagless := find?_isSome_eq_none_iff.mp long
    cases short : d.spellings.find? fun t => (shortLetter? t).isSome with
    | some s =>
      obtain ⟨letter, named⟩ := exists_of_find?_isSome short
      exact ⟨s, .short letter flagless short named⟩
    | none =>
      obtain ⟨s, rest, hs⟩ := List.exists_cons_of_ne_nil h.spelled
      have first : s ∈ d.spellings := by simp [hs]
      have bare : isBareWord s = true := by
        by_contra noWord
        rcases names_of_not_isBareWord (h.legal s first) (by simpa using noWord) with named | named
        · exact named (flagless s first)
        · exact named (find?_isSome_eq_none_iff.mp short s first)
      exact ⟨s, .word (h.alone s first bare).1 bare⟩

theorem WellSpelled.namedByPrefix?_eq (h : d.WellSpelled) (named : d.NamedBy s) :
    namedByPrefix? d.spellings = some s := by
  have longs : (d.spellings.find? fun t => (afterTwoDashes? t).isSome) =
      d.spellings.find? fun t => (longName? t).isSome :=
    List.find?_congr fun t member => by simp [afterTwoDashes?_of_legal (h.legal t member)]
  unfold namedByPrefix?
  rw [longs]
  cases named with
  | long name first _ => rw [first, Option.some_or]
  | short letter flagless first _ =>
    have shorts : (d.spellings.find? fun t => (afterDash? t).isSome) =
        d.spellings.find? fun t => (shortLetter? t).isSome :=
      List.find?_congr fun t member => by
        simp [afterDash?_of_legal (h.legal t member) (flagless t member)]
    have noLong := find?_isSome_eq_none_iff.mpr flagless
    rw [noLong, shorts, first, Option.none_or, Option.some_or]
  | word alone bare =>
    obtain ⟨noLong, noShort⟩ := names_of_isBareWord bare
    have legal : LegalSpelling s := h.legal s (by simp [alone])
    simp [alone, noLong, noShort, afterDash?_of_legal legal noLong]

theorem WellSpelled.namedByReading?_eq (h : d.WellSpelled) (named : d.NamedBy s) :
    namedByReading? d.spellings = some s := by
  have longs : d.spellings.find? (readsAs fun p => p.long?.isSome) =
      d.spellings.find? fun t => (longName? t).isSome :=
    List.find?_congr fun t member => (readsAs_of_legal (h.legal t member)).1
  have shorts : d.spellings.find? (readsAs fun p => p.short?.isSome) =
      d.spellings.find? fun t => (shortLetter? t).isSome :=
    List.find?_congr fun t member => (readsAs_of_legal (h.legal t member)).2.1
  have words : d.spellings.find? (readsAs Spelling.isWord) = d.spellings.find? isBareWord :=
    List.find?_congr fun t member => (readsAs_of_legal (h.legal t member)).2.2
  rw [namedByReading?, longs, shorts, words]
  cases named with
  | long name first _ => rw [first, Option.some_or]
  | short letter flagless first _ =>
    have noLong := find?_isSome_eq_none_iff.mpr flagless
    rw [noLong, first, Option.none_or, Option.some_or]
  | word alone bare =>
    obtain ⟨noLong, noShort⟩ := names_of_isBareWord bare
    simp [alone, noLong, noShort, bare]

theorem undashed_of_legal (legal : LegalSpelling s) : undashed s =
    match longName? s, shortLetter? s with
    | some name, _ => underscored name.toList
    | none, some letter => String.ofList [letter]
    | none, none => s := by
  unfold undashed
  rw [afterTwoDashes?_of_legal legal]
  cases long : longName? s with
  | some name => simp
  | none =>
    rw [afterDash?_of_legal legal long]
    cases short : shortLetter? s with
    | some letter => simp [underscored_singleton (toList_of_shortLetter? short).2]
    | none => simp

end Declaration

/-! ## The argument of a declaration -/

/-- The argument has the names that a declaration gives it, each in the order written, it goes by
position exactly if the declaration is a bare word, and its id is the destination that is asked for,
or else the first of its names. -/
structure Argument.Renders (a : Argument) (d : Declaration) : Prop where
  longs : a.long.toList ++ a.aliases = d.longNames
  shorts : a.short.toList ++ a.shortAliases = d.shortLetters
  positional : a.isPositional = true ↔ ∃ word, LegalWord word ∧ d.spellings = [word]
  id : a.id =
    match d.directives.dest, a.long, a.short with
    | some dest, _, _ => dest
    | none, some name, _ => underscored name.toList
    | none, none, some letter => String.ofList [letter]
    | none, none, none => d.spellings.headD ""

namespace Declaration

variable {d : Declaration}

/-- The first name of an argument is the one of the spelling that names the option. -/
theorem NamedBy.first_names {s : String} (named : d.NamedBy s) :
    d.argument.long = longName? s ∧
      (longName? s = none → d.argument.short = shortLetter? s ∧
        (shortLetter? s = none → d.spellings.headD "" = s)) := by
  have long : d.argument.long = d.spellings.findSome? longName? := List.head?_filterMap
  have short : d.argument.short = d.spellings.findSome? shortLetter? := List.head?_filterMap
  rw [long, short]
  cases named with
  | long name first named =>
    rw [findSome?_eq_bind_find?, first, Option.bind_some]
    exact ⟨rfl, fun nameless => by simp [nameless] at named⟩
  | short letter flagless first named =>
    have noLong := flagless s (List.mem_of_find?_eq_some first)
    refine ⟨by rw [noLong, List.findSome?_eq_none_iff.mpr flagless], fun _ => ⟨?_, ?_⟩⟩
    · rw [findSome?_eq_bind_find?, first, Option.bind_some]
    · intro nameless
      simp [nameless] at named
  | word alone bare =>
    obtain ⟨noLong, noShort⟩ := names_of_isBareWord bare
    simp [alone, noLong, noShort]

theorem WellSpelled.isPositional_iff (h : d.WellSpelled) :
    d.isPositional = true ↔ ∃ word, LegalWord word ∧ d.spellings = [word] := by
  rw [isPositional, List.any_eq_true]
  constructor
  · rintro ⟨s, member, bare⟩
    refine ⟨s, ?_, (h.alone s member bare).1⟩
    rcases h.legal s member with ⟨_, written, _⟩ | ⟨_, written, _⟩ | legal
    · simp [isBareWord, written] at bare
    · simp [isBareWord, written] at bare
    · exact legal
  · rintro ⟨word, legal, alone⟩
    exact ⟨word, by simp [alone], by simpa [isBareWord] using legal.2.1⟩

theorem WellSpelled.argument_renders (h : d.WellSpelled) : d.argument.Renders d where
  longs := (List.append_nil _).symm.trans d.argument_longs
  shorts := (List.append_nil _).symm.trans d.argument_shorts
  positional := by rw [h.argument_isPositional, h.isPositional_iff]
  id := by
    rw [argument_id, Declaration.dest]
    cases asked : d.directives.dest with
    | some dest => simp [destination, asked]
    | none =>
      obtain ⟨s, named⟩ := h.exists_namedBy
      have legal : LegalSpelling s := by
        cases named with
        | long _ first _ | short _ _ first _ => exact h.legal s (List.mem_of_find?_eq_some first)
        | word alone _ => exact h.legal s (by simp [alone])
      obtain ⟨long, otherwise⟩ := named.first_names
      rw [destination_eq_undashed asked (h.namedByPrefix?_eq named), undashed_of_legal legal, long]
      cases nameless : longName? s with
      | some name => rfl
      | none =>
        obtain ⟨short, otherwise⟩ := otherwise nameless
        rw [short]
        cases bare : shortLetter? s with
        | some letter => rfl
        | none => exact (otherwise bare).symm

end Declaration

namespace Assembly

/-- A declaration that an assembly accepts, whatever the assembly holds, adds one argument, and the
argument renders the declaration.  The dashes in front and the reading of the spellings tell the
same spelling to name the option; a derived id is what this spelling says, and it has no dash if it
comes from a flag. -/
theorem accepted_renders (a : Assembly) (d : Declaration)
    (accepted : (a.add d.spellings d.directives).errors = a.errors) :
    ∃ argument, (a.add d.spellings d.directives).command.arguments =
        a.command.arguments ++ [argument] ∧ argument.Renders d ∧
      (∃ s, namedByPrefix? d.spellings = some s ∧ namedByReading? d.spellings = some s ∧
        (d.directives.dest = none → argument.id = undashed s)) ∧
      (d.directives.dest = none → argument.isPositional = false → '-' ∉ argument.id.toList) := by
  rcases a.add_cases d with ⟨valid, _, pushed⟩ | ⟨_, e, rejected⟩
  · have renders := valid.toWellSpelled.argument_renders
    refine ⟨d.argument, by rw [pushed]; rfl, renders, ?_, ?_⟩
    · obtain ⟨s, named⟩ := valid.exists_namedBy
      have byPrefix := valid.namedByPrefix?_eq named
      exact ⟨s, byPrefix, valid.namedByReading?_eq named,
        fun unasked => destination_eq_undashed unasked byPrefix⟩
    · intro unasked flagged
      rw [renders.id, unasked]
      cases long : d.argument.long with
      | some name => exact dash_not_mem_underscored name.toList
      | none =>
        cases short : d.argument.short with
        | none => simp [Argument.isPositional, long, short] at flagged
        | some letter =>
          have written : letter ∈ d.shortLetters := by
            rw [← renders.shorts, short]
            exact List.mem_append_left _ (by simp)
          obtain ⟨s, _, named⟩ := List.mem_filterMap.mp written
          simpa using (toList_of_shortLetter? named).2.symm
  · rw [rejected, errors_reject] at accepted
    simp at accepted

/-- A command that has an argument already, a rejected declaration before, and an option whose
second long flag comes first among its flags. -/
theorem accepted_renders_after_rejection :
    let existing : Command := { name := "codegen", arguments := [{ id := "file" }] }
    let broken : Declaration := ⟨["--"], {}, .empty⟩
    let output : Declaration := ⟨["-o", "--out-dir", "-O", "--output"], {}, .empty⟩
    let a := (ofCommand existing).addAll [broken]
    a.errors ≠ [] ∧ (a.add output.spellings output.directives).errors = a.errors ∧
      ∃ argument, (a.add output.spellings output.directives).command.arguments =
          a.command.arguments ++ [argument] ∧ argument.id = "out_dir" ∧
        argument.long.toList ++ argument.aliases = ["out-dir", "output"] := by
  intro existing broken output a
  have accepted : (a.add output.spellings output.directives).errors = a.errors := by
    decide +kernel
  obtain ⟨argument, added, renders, ⟨s, byPrefix, _, id⟩, _⟩ := accepted_renders a output accepted
  have named : some "--out-dir" = some s := (by decide +kernel : _ = _).trans byPrefix
  cases named
  exact ⟨by decide +kernel, accepted, argument, added, (id rfl).trans (by decide +kernel),
    renders.longs.trans (by decide +kernel)⟩

end Assembly

end TaggedOptions
