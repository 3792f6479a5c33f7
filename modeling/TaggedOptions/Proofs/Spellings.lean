import Mathlib
import TaggedOptions.Command.Assembly

/-! # Legal spellings

A spelling is described here by its characters alone: `LegalSpelling` says which spellings are
legal, and `longName?`, `shortLetter?` and `isBareWord` say what a legal spelling names.  The reader of
spellings accepts exactly the legal ones and finds exactly these names in them, so everything that
follows about declarations can speak of the text that their author wrote.
-/

namespace TaggedOptions

/-! ## What a spelling names -/

def LegalLong (s : String) : Prop :=
  ∃ name, s.toList = '-' :: '-' :: name ∧
    name ≠ [] ∧ name.head? ≠ some '-' ∧ '=' ∉ name ∧ ' ' ∉ name

def LegalShort (s : String) : Prop :=
  ∃ letter, s.toList = ['-', letter] ∧ letter ≠ '-' ∧ Text.isBlank letter = false

def LegalWord (s : String) : Prop :=
  s.toList ≠ [] ∧ s.toList.head? ≠ some '-' ∧ ' ' ∉ s.toList

def LegalSpelling (s : String) : Prop := LegalLong s ∨ LegalShort s ∨ LegalWord s

def longName? (s : String) : Option String :=
  match s.toList with
  | '-' :: '-' :: name => some (String.ofList name)
  | _ => none

def shortLetter? (s : String) : Option Char :=
  match s.toList with
  | ['-', letter] => if letter = '-' then none else some letter
  | _ => none

def isBareWord (s : String) : Bool := s.toList.head? != some '-'

/-! ## Reading one spelling -/

namespace Spelling

theorem ofChars_long (name : List Char) :
    ofChars ('-' :: '-' :: name) =
      if name = [] || name.head? = some '-' then .error .unnamedLong
      else if '=' ∈ name || ' ' ∈ name then .error .brokenLong
      else .ok (.long (String.ofList name)) := rfl

theorem ofChars_short {letter : Char} (noDash : letter ≠ '-') :
    ofChars ['-', letter] =
      if Text.isBlank letter then .error .malformedShort else .ok (.short letter) := by
  unfold ofChars
  split
  next shape => cases shape; exact absurd rfl noDash
  next shape => cases shape; rfl
  next noLetter shape => cases shape; exact absurd rfl (noLetter letter)
  next noTail => exact absurd rfl (noTail [letter])

theorem ofChars_word {c : Char} {cs : List Char} (noDash : c ≠ '-') :
    ofChars (c :: cs) =
      if ' ' ∈ c :: cs then .error .malformedWord else .ok (.word (String.ofList (c :: cs))) := by
  unfold ofChars
  split
  next shape => cases shape; exact absurd rfl noDash
  next shape => cases shape; exact absurd rfl noDash
  next shape => cases shape; exact absurd rfl noDash
  next => simp

/-- Everything the reader of spellings can answer. -/
theorem ofChars_ok {cs : List Char} {p : Spelling} (h : ofChars cs = .ok p) :
    (∃ name, cs = '-' :: '-' :: name ∧ name ≠ [] ∧ name.head? ≠ some '-' ∧ '=' ∉ name ∧
        ' ' ∉ name ∧ p = .long (String.ofList name)) ∨
      (∃ letter, cs = ['-', letter] ∧ letter ≠ '-' ∧ Text.isBlank letter = false ∧
        p = .short letter) ∨
      (cs ≠ [] ∧ cs.head? ≠ some '-' ∧ ' ' ∉ cs ∧ p = .word (String.ofList cs)) := by
  revert h
  fun_cases ofChars cs with
  | case1 | case2 | case4 | case6 | case7 => intro h; cases h
  | case3 name named whole =>
    intro h
    cases h
    simp only [Bool.or_eq_true, decide_eq_true_eq, not_or] at named whole
    exact .inl ⟨name, rfl, named.1, named.2, whole.1, whole.2, rfl⟩
  | case5 letter noDash noBlank =>
    intro h
    cases h
    exact .inr (.inl ⟨letter, rfl, noDash, by simpa using noBlank, rfl⟩)
  | case8 _ _ _ noDash whole =>
    intro h
    cases h
    simp only [Bool.or_eq_true, decide_eq_true_eq, not_or] at whole
    refine .inr (.inr ⟨whole.1, ?_, whole.2, rfl⟩)
    intro dash
    obtain ⟨rest, rfl⟩ := List.head?_eq_some_iff.mp dash
    exact noDash rest rfl

structure Finds (p : Spelling) (s : String) : Prop where
  long : p.long? = longName? s
  short : p.short? = shortLetter? s
  word : p.isWord = isBareWord s

/-- A spelling that can be read is legal, and reading it finds what it names. -/
theorem ofString_ok {s : String} {p : Spelling} (h : ofString s = .ok p) :
    LegalSpelling s ∧ p.Finds s := by
  rcases ofChars_ok h with ⟨name, written, hne, hdash, heq, hspace, rfl⟩ |
    ⟨letter, written, hdash, hblank, rfl⟩ | ⟨hne, hdash, hspace, rfl⟩
  · refine ⟨.inl ⟨name, written, hne, hdash, heq, hspace⟩, ?_⟩
    have noShort : shortLetter? s = none := by
      cases name with
      | nil => exact absurd rfl hne
      | cons c cs => cases cs <;> simp [shortLetter?, written]
    constructor
    · simp [long?, longName?, written]
    · rw [noShort]; rfl
    · simp [isWord, isBareWord, written]
  · refine ⟨.inr (.inl ⟨letter, written, hdash, hblank⟩), ?_⟩
    constructor <;> simp [long?, short?, isWord, longName?, shortLetter?, isBareWord, written, hdash]
  · refine ⟨.inr (.inr ⟨hne, hdash, hspace⟩), ?_⟩
    cases hs : s.toList with
    | nil => exact absurd hs hne
    | cons c cs =>
      simp only [hs, List.head?_cons, ne_eq, Option.some.injEq] at hdash
      constructor <;> simp [long?, short?, isWord, longName?, shortLetter?, isBareWord, hs, hdash]

/-- A legal spelling can be read. -/
theorem ofString_of_legal {s : String} (h : LegalSpelling s) : ∃ p, ofString s = .ok p := by
  unfold ofString
  rcases h with ⟨name, written, hne, hdash, heq, hspace⟩ | ⟨letter, written, hdash, hblank⟩ |
    ⟨hne, hdash, hspace⟩
  · refine ⟨.long (String.ofList name), ?_⟩
    rw [written, ofChars_long]
    simp [hne, hdash, heq, hspace]
  · refine ⟨.short letter, ?_⟩
    rw [written, ofChars_short hdash]
    simp [hblank]
  · cases hs : s.toList with
    | nil => exact absurd hs hne
    | cons c cs =>
      simp only [hs, List.head?_cons, ne_eq, Option.some.injEq] at hdash hspace
      refine ⟨.word (String.ofList (c :: cs)), ?_⟩
      rw [ofChars_word hdash, if_neg hspace]

end Spelling

/-- A bare word names neither a long nor a short flag. -/
theorem names_of_isBareWord {s : String} (word : isBareWord s = true) :
    longName? s = none ∧ shortLetter? s = none := by
  unfold isBareWord at word
  cases hs : s.toList with
  | nil => simp [longName?, shortLetter?, hs]
  | cons c cs =>
    simp only [hs, List.head?_cons, bne_iff_ne, ne_eq, Option.some.injEq] at word
    simp [longName?, shortLetter?, hs, word]

/-- A legal spelling that is no bare word names a long or a short flag. -/
theorem names_of_not_isBareWord {s : String} (legal : LegalSpelling s)
    (noWord : isBareWord s = false) : longName? s ≠ none ∨ shortLetter? s ≠ none := by
  rcases legal with ⟨name, written, _⟩ | ⟨letter, written, noDash, _⟩ | ⟨_, noDash, _⟩
  · exact .inl (by simp [longName?, written])
  · exact .inr (by simp [shortLetter?, written, noDash])
  · simp [isBareWord, noDash] at noWord

theorem eq_of_longName? {s name : String} (named : longName? s = some name) :
    s = "--" ++ name := by
  unfold longName? at named
  split at named
  next chars shape =>
    cases named
    apply String.toList_injective
    simp [shape]
  next => cases named

theorem toList_of_shortLetter? {s : String} {letter : Char} (named : shortLetter? s = some letter) :
    s.toList = ['-', letter] ∧ letter ≠ '-' := by
  unfold shortLetter? at named
  split at named
  next found shape =>
    split at named
    · cases named
    next noDash =>
      cases named
      exact ⟨shape, noDash⟩
  next => cases named

theorem eq_of_shortLetter? {s : String} {letter : Char} (named : shortLetter? s = some letter) :
    s = String.ofList ['-', letter] := by
  apply String.toList_injective
  rw [(toList_of_shortLetter? named).1, String.toList_ofList]

/-- The name of a legal long flag is not empty and holds no `=`. -/
theorem longName?_of_legal {s name : String} (legal : LegalSpelling s)
    (named : longName? s = some name) : name.toList ≠ [] ∧ '=' ∉ name.toList := by
  rcases legal with ⟨chars, written, hne, _, heq, _⟩ | ⟨letter, written, noDash, _⟩ |
    ⟨_, noDash, _⟩
  · simp only [longName?, written, Option.some.injEq] at named
    subst named
    simpa using ⟨hne, heq⟩
  · simp [longName?, written, noDash] at named
  · have word : isBareWord s = true := by simpa [isBareWord] using noDash
    simp [(names_of_isBareWord word).1] at named

/-! ## Declarations -/

namespace Declaration

def longNames (d : Declaration) : List String := d.spellings.filterMap longName?

def shortLetters (d : Declaration) : List Char := d.spellings.filterMap shortLetter?

def isPositional (d : Declaration) : Bool := d.spellings.any isBareWord

/-- The spellings of a declaration are legal and go together. -/
structure WellSpelled (d : Declaration) : Prop where
  spelled : d.spellings ≠ []
  legal : ∀ s ∈ d.spellings, LegalSpelling s
  alone : ∀ s ∈ d.spellings, isBareWord s = true →
    d.spellings = [s] ∧ d.directives.action = .store

structure Valid (d : Declaration) : Prop extends WellSpelled d where
  undefaulted : d.directives.required = true → d.directives.default = none

def argument (d : Declaration) : Argument where
  id := d.dest
  long := d.longNames.head?
  aliases := d.longNames.tail
  short := d.shortLetters.head?
  shortAliases := d.shortLetters.tail
  reaction := d.directives.reaction
  required := d.directives.required
  default := d.directives.default.map DefaultValue.toText
  help := d.directives.help

@[simp] theorem argument_id (d : Declaration) : d.argument.id = d.dest := rfl

@[simp] theorem argument_required (d : Declaration) :
    d.argument.required = d.directives.required := rfl

@[simp] theorem argument_longs (d : Declaration) : d.argument.longs = d.longNames := by
  simp only [Argument.longs, argument, List.append_nil]
  cases d.longNames <;> rfl

@[simp] theorem argument_shorts (d : Declaration) : d.argument.shorts = d.shortLetters := by
  simp only [Argument.shorts, argument, List.append_nil]
  cases d.shortLetters <;> rfl

/-- The argument of a declaration takes words by position exactly if the declaration is a bare
word. -/
theorem WellSpelled.argument_isPositional {d : Declaration} (h : d.WellSpelled) :
    d.argument.isPositional = d.isPositional := by
  have flagless : d.argument.isPositional = true ↔ d.longNames = [] ∧ d.shortLetters = [] := by
    simp [Argument.isPositional, argument]
  rw [Bool.eq_iff_iff, flagless]
  constructor
  · rintro ⟨noLong, noShort⟩
    obtain ⟨s, rest, hs⟩ := List.exists_cons_of_ne_nil h.spelled
    have first : s ∈ d.spellings := by simp [hs]
    refine List.any_eq_true.mpr ⟨s, first, ?_⟩
    by_contra noWord
    rcases names_of_not_isBareWord (h.legal s first) (by simpa using noWord) with named | named
    · exact named (List.forall_none_of_filterMap_eq_nil noLong s first)
    · exact named (List.forall_none_of_filterMap_eq_nil noShort s first)
  · intro positional
    obtain ⟨s, member, word⟩ := List.any_eq_true.mp positional
    obtain ⟨noLong, noShort⟩ := names_of_isBareWord word
    simp [longNames, shortLetters, (h.alone s member word).1, noLong, noShort]

theorem WellSpelled.longName_plain {d : Declaration} (h : d.WellSpelled) {name : String}
    (named : name ∈ d.longNames) : name.toList ≠ [] ∧ '=' ∉ name.toList := by
  obtain ⟨s, member, long⟩ := List.mem_filterMap.mp named
  exact longName?_of_legal (h.legal s member) long

/-- A bare word has no long flags. -/
theorem WellSpelled.longNames_of_isPositional {d : Declaration} (h : d.WellSpelled)
    (positional : d.isPositional = true) : d.longNames = [] := by
  obtain ⟨s, member, word⟩ := List.any_eq_true.mp positional
  simp [longNames, (h.alone s member word).1, (names_of_isBareWord word).1]

end Declaration

/-! ## Reading declarations -/

structure FindsAll (read : List Spelling) (spellings : List String) : Prop where
  longs : read.filterMap Spelling.long? = spellings.filterMap longName?
  shorts : read.filterMap Spelling.short? = spellings.filterMap shortLetter?
  word : read.any Spelling.isWord = spellings.any isBareWord

theorem readSpellings_ok {option spellings : List String} {read : List Spelling}
    (h : readSpellings option spellings = .ok read) :
    (∀ s ∈ spellings, LegalSpelling s) ∧ FindsAll read spellings := by
  induction spellings generalizing read with
  | nil =>
    cases h
    exact ⟨by simp, rfl, rfl, rfl⟩
  | cons s rest ih =>
    simp only [readSpellings] at h
    cases hs : Spelling.ofString s with
    | error fault => simp [hs] at h
    | ok p =>
      cases hrest : readSpellings option rest with
      | error e => simp [hs, hrest] at h
      | ok ps =>
        simp only [hs, hrest, Except.ok.injEq] at h
        subst h
        obtain ⟨legal, finds⟩ := Spelling.ofString_ok hs
        obtain ⟨legals, findsAll⟩ := ih hrest
        refine ⟨by simpa using ⟨legal, legals⟩, ?_, ?_, ?_⟩
        · simp [List.filterMap_cons, finds.long, findsAll.longs]
        · simp [List.filterMap_cons, finds.short, findsAll.shorts]
        · simp [finds.word, findsAll.word]

theorem readSpellings_of_legal (option : List String) {spellings : List String}
    (h : ∀ s ∈ spellings, LegalSpelling s) : ∃ read, readSpellings option spellings = .ok read := by
  induction spellings with
  | nil => exact ⟨[], rfl⟩
  | cons s rest ih =>
    obtain ⟨p, hs⟩ := Spelling.ofString_of_legal (h s (by simp))
    obtain ⟨ps, hrest⟩ := ih fun t member => h t (by simp [member])
    exact ⟨p :: ps, by simp [readSpellings, hs, hrest]⟩

/-- A declaration that can be read is well spelled, and the reading finds what it names. -/
theorem readDeclaration_ok {d : Declaration} {read : List Spelling}
    (h : readDeclaration d.spellings d.directives = .ok read) :
    d.WellSpelled ∧ FindsAll read d.spellings := by
  obtain ⟨spellings, directives, tags⟩ := d
  cases spellings with
  | nil => cases h
  | cons first others =>
    simp only [readDeclaration] at h
    cases hread : readSpellings (first :: others) (first :: others) with
    | error e => simp [hread] at h
    | ok ps =>
      obtain ⟨legal, finds⟩ := readSpellings_ok hread
      simp only [hread] at h
      by_cases word : ps.any Spelling.isWord = true
      · cases others with
        | cons second rest => simp [word] at h
        | nil =>
          simp only [word, if_true] at h
          by_cases valueless : directives.action = .storeTrue
          · simp [valueless] at h
          · simp only [valueless, if_false, Except.ok.injEq] at h
            subst h
            refine ⟨⟨by simp, legal, ?_⟩, finds⟩
            intro s member _
            have stores : directives.action = .store := by
              cases action : directives.action with
              | store => rfl
              | storeTrue => exact absurd action valueless
            exact ⟨by simpa using (List.mem_singleton.mp member).symm, stores⟩
      · simp only [word, Bool.false_eq_true, if_false, Except.ok.injEq] at h
        subst h
        refine ⟨⟨by simp, legal, ?_⟩, finds⟩
        intro s member bare
        exact absurd (finds.word ▸ List.any_eq_true.mpr ⟨s, member, bare⟩) word

/-- A well spelled declaration can be read. -/
theorem readDeclaration_of_wellSpelled {d : Declaration} (h : d.WellSpelled) :
    ∃ read, readDeclaration d.spellings d.directives = .ok read := by
  obtain ⟨read, hread⟩ := readSpellings_of_legal d.spellings h.legal
  have finds := (readSpellings_ok hread).2
  refine ⟨read, ?_⟩
  cases hs : d.spellings with
  | nil => exact absurd hs h.spelled
  | cons first others =>
    rw [hs] at hread finds
    simp only [readDeclaration, hread]
    by_cases word : read.any Spelling.isWord = true
    · rw [if_pos word]
      obtain ⟨s, member, bare⟩ := List.any_eq_true.mp (finds.word ▸ word)
      obtain ⟨single, stores⟩ := h.alone s (hs ▸ member) bare
      cases others with
      | nil => simp [stores]
      | cons second rest => simp [hs] at single
    · rw [if_neg word]

end TaggedOptions
