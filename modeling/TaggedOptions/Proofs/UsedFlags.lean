import Mathlib
import TaggedOptions.Proofs.Mentions
import TaggedOptions.Proofs.RoundTrip

/-! # Only selected flags are used

Before the separator every element that looks like a flag is read as one, also where an option waits
for its value or a positional option for its word.  A flag that no selected option declares makes the
reading fail wherever it stands.  So whatever is parsed without a fault uses flags of the selection
and no others.
-/

namespace TaggedOptions

/-! ## Elements that mean flags -/

def LooksLikeFlag (arg : String) : Prop := arg.toList.head? = some '-' ∧ arg ≠ "-"

instance (arg : String) : Decidable (LooksLikeFlag arg) := inferInstanceAs (Decidable (_ ∧ _))

theorem LooksLikeFlag.of_toList {arg : String} {c : Char} {rest : List Char}
    (written : arg.toList = '-' :: c :: rest) : LooksLikeFlag arg := by
  refine ⟨by rw [written]; rfl, ?_⟩
  rintro rfl
  cases written

/-- The element means the flag that is spelled so: a long flag alone or with a value behind an equals
sign, or a short flag with whatever stands behind it. -/
inductive MeansFlag (sp : String) : String → Prop
  | long (legal : LegalLong sp) : MeansFlag sp sp
  | assigned (legal : LegalLong sp) (value : String) : MeansFlag sp (sp ++ "=" ++ value)
  | short (legal : LegalShort sp) (rest : String) : MeansFlag sp (sp ++ rest)

/-- Letters behind a dash that are short flags of the declarations.  The first one that takes a value
takes the rest for it. -/
inductive ShortFlags (ds : List Declaration) : List Char → Prop
  | nil : ShortFlags ds []
  | flag {d : Declaration} {letter : Char} {rest : List Char} (declared : d ∈ ds)
      (spelled : letter ∈ d.shortLetters) (valueless : d.directives.action = .storeTrue)
      (further : ShortFlags ds rest) : ShortFlags ds (letter :: rest)
  | option {d : Declaration} {letter : Char} (declared : d ∈ ds)
      (spelled : letter ∈ d.shortLetters) (takes : d.directives.action = .store)
      (rest : List Char) : ShortFlags ds (letter :: rest)

theorem LegalLong.exists_name {sp : String} (legal : LegalLong sp) :
    ∃ name, longName? sp = some name := by
  obtain ⟨chars, written, _⟩ := legal
  exact ⟨String.ofList chars, by simp only [longName?, written]⟩

theorem LegalShort.exists_letter {sp : String} (legal : LegalShort sp) :
    ∃ letter, shortLetter? sp = some letter := by
  obtain ⟨letter, written, noDash, _⟩ := legal
  exact ⟨letter, by simp [shortLetter?, written, noDash]⟩

theorem LegalSpelling.long {sp name : String} (legal : LegalSpelling sp)
    (named : longName? sp = some name) : LegalLong sp := by
  rcases legal with long | ⟨letter, written, noDash, _⟩ | ⟨_, noDash, _⟩
  · exact long
  · simp [longName?, written, noDash] at named
  · have word : isBareWord sp = true := by simpa [isBareWord] using noDash
    simp [(names_of_isBareWord word).1] at named

theorem LegalSpelling.short {sp : String} {letter : Char} (legal : LegalSpelling sp)
    (named : shortLetter? sp = some letter) : LegalShort sp := by
  rcases legal with ⟨name, written, _, noDash, _⟩ | short | ⟨_, noDash, _⟩
  · obtain ⟨single, differs⟩ := toList_of_shortLetter? named
    rw [written, List.cons.injEq, List.cons.injEq] at single
    exact absurd single.2.1.symm differs
  · exact short
  · have word : isBareWord sp = true := by simpa [isBareWord] using noDash
    simp [(names_of_isBareWord word).2] at named

/-! ## Flags and tokens -/

namespace Token

theorem splitAtEquals_eq {cs before : List Char} {after : Option (List Char)}
    (h : splitAtEquals cs = (before, after)) :
    cs = before ++ (after.map ('=' :: ·)).getD [] := by
  have whole := List.takeWhile_append_dropWhile (p := fun c => decide (c ≠ '=')) (l := cs)
  rw [splitAtEquals, List.span_eq_takeWhile_dropWhile] at h
  split at h
  next first shape =>
    cases h
    rw [← whole, (Prod.mk.inj shape).1, (Prod.mk.inj shape).2]
    rfl
  next first c rest shape =>
    cases h
    obtain ⟨front, back⟩ := Prod.mk.inj shape
    have stop : c = '=' := by
      have head := List.head?_dropWhile_not (fun c => decide (c ≠ '=')) cs
      rw [back] at head
      simpa using head
    rw [← whole, front, back, stop]
    rfl

/-- What is read as a long flag is written as one. -/
theorem eq_of_ofString_long {arg name : String} {value : Option String}
    (h : ofString arg = .long name value) :
    arg = "--" ++ name ++ (value.map ("=" ++ ·)).getD "" := by
  apply String.toList_injective
  unfold ofString at h
  generalize arg.toList = chars at h ⊢
  revert h
  fun_cases ofChars chars with
  | case1 | case3 | case4 => intro h; cases h
  | case2 rest _ before after parts =>
    intro h
    cases h
    rw [splitAtEquals_eq parts]
    cases after <;> simp

theorem toList_of_ofString_cluster {arg : String} {letter : Char} {rest : List Char}
    (h : ofString arg = .cluster letter rest) : arg.toList = '-' :: letter :: rest := by
  unfold ofString at h
  revert h
  fun_cases ofChars arg.toList with
  | case1 | case2 | case4 => intro h; cases h
  | case3 => intro h; cases h; rfl

theorem not_looksLikeFlag_of_ofString_word {arg : String} (h : ofString arg = .word) :
    ¬ LooksLikeFlag arg := by
  rintro ⟨dash, more⟩
  obtain ⟨rest, written⟩ := List.head?_eq_some_iff.mp dash
  cases rest with
  | nil => exact more (String.toList_injective written)
  | cons c rest =>
    rw [ofString, written] at h
    by_cases second : c = '-'
    · subst second
      cases rest with
      | nil => cases h
      | cons _ _ => cases h
    · rw [ofChars_cluster second] at h
      cases h

end Token

namespace MeansFlag

variable {sp arg : String}

/-- The token of an element names the flag that the element means. -/
theorem token (h : MeansFlag sp arg) :
    (∃ name value, longName? sp = some name ∧ Token.ofString arg = .long name value) ∨
      ∃ letter rest, shortLetter? sp = some letter ∧ Token.ofString arg = .cluster letter rest := by
  cases h with
  | long legal =>
    obtain ⟨name, named⟩ := legal.exists_name
    obtain ⟨nonempty, plain⟩ := longName?_of_legal (.inl legal) named
    refine .inl ⟨name, none, named, ?_⟩
    rw [eq_of_longName? named, Token.ofString_flag plain nonempty]
  | assigned legal value =>
    obtain ⟨name, named⟩ := legal.exists_name
    obtain ⟨_, plain⟩ := longName?_of_legal (.inl legal) named
    refine .inl ⟨name, some value, named, ?_⟩
    rw [eq_of_longName? named, Token.ofString_assign plain]
  | short legal rest =>
    obtain ⟨letter, named⟩ := legal.exists_letter
    obtain ⟨written, noDash⟩ := toList_of_shortLetter? named
    refine .inr ⟨letter, rest.toList, named, ?_⟩
    rw [Token.ofString, String.toList_append, written]
    exact Token.ofChars_cluster noDash rest.toList

/-- An element means one flag only. -/
theorem unique {other : String} (h : MeansFlag sp arg) (h' : MeansFlag other arg) : sp = other := by
  rcases h.token with ⟨name, value, named, token⟩ | ⟨letter, rest, named, token⟩
  · rcases h'.token with ⟨name', value', named', token'⟩ | ⟨letter', rest', named', token'⟩
    · rw [token] at token'
      cases token'
      rw [eq_of_longName? named, eq_of_longName? named']
    · rw [token] at token'
      cases token'
  · rcases h'.token with ⟨name', value', named', token'⟩ | ⟨letter', rest', named', token'⟩
    · rw [token] at token'
      cases token'
    · rw [token] at token'
      cases token'
      apply String.toList_injective
      rw [(toList_of_shortLetter? named).1, (toList_of_shortLetter? named').1]

theorem looksLikeFlag (h : MeansFlag sp arg) : LooksLikeFlag arg := by
  cases h with
  | long legal =>
    obtain ⟨name, written, _⟩ := legal
    exact .of_toList written
  | assigned legal value =>
    obtain ⟨name, written, _⟩ := legal
    have whole : (sp ++ "=" ++ value).toList = '-' :: '-' :: (name ++ '=' :: value.toList) := by
      simp [written]
    exact .of_toList whole
  | short legal rest =>
    obtain ⟨letter, written, _⟩ := legal
    have whole : (sp ++ rest).toList = '-' :: letter :: rest.toList := by simp [written]
    exact .of_toList whole

end MeansFlag

/-! ## Flags that are read without a fault -/

section

variable {s : Surroundings} {name : String} {ds : List Declaration} {p q : Progress}

theorem Progress.occur_helpFlag_ne_ok (raws : List String) : p.occur s helpFlag raws ≠ .ok q := by
  intro h
  obtain ⟨r, found, _, stored, _⟩ := occur_ok h
  simp [store, helpFlag] at stored

theorem Declaration.takesValue_argument_iff {d : Declaration} :
    d.argument.reaction.takesValue = true ↔ d.directives.action = .store := by
  change d.directives.reaction.takesValue = true ↔ _
  unfold Directives.reaction
  cases d.directives.action <;> cases d.directives.valueType <;> simp [Reaction.takesValue]

namespace Command

/-- A long flag that is read without a fault is one of the declarations. -/
theorem mem_longNames_of_apply {long : String} {value : Option String}
    (ok : (longEvent { name, arguments := ds.map (·.argument) } long value).apply s p = .ok q) :
    ∃ d ∈ ds, long ∈ d.longNames := by
  unfold longEvent at ok
  split at ok
  next => cases ok
  next a found =>
    have named : long ∈ a.longs := by simpa using List.find?_some found
    rcases mem_allArguments_iff.mp (List.mem_of_find?_eq_some found) with ⟨d, declared, rfl⟩ | rfl
    · exact ⟨d, declared, by simpa using named⟩
    · cases value with
      | none => exact absurd ok (Progress.occur_helpFlag_ne_ok [])
      | some value => cases ok

/-- The letters of a cluster that is read without a fault are short flags of the declarations. -/
theorem shortFlags_of_applyAll {letters : List Char}
    (ok : Event.applyAll s p (clusterEvents { name, arguments := ds.map (·.argument) } letters) =
      .ok q) : ShortFlags ds letters := by
  induction letters generalizing p with
  | nil => exact .nil
  | cons letter rest ih =>
    rw [clusterEvents] at ok
    split at ok
    next => cases ok
    next a found =>
      have named : letter ∈ a.shorts := by simpa using List.find?_some found
      rcases mem_allArguments_iff.mp (List.mem_of_find?_eq_some found) with
        ⟨d, declared, rfl⟩ | rfl
      · rw [Declaration.argument_shorts] at named
        cases action : d.directives.action with
        | store => exact .option declared named action rest
        | storeTrue =>
          have valueless : ¬ d.argument.reaction.takesValue = true := by
            simp [Declaration.takesValue_argument_iff, action]
          rw [if_neg valueless] at ok
          obtain ⟨r, _, further⟩ := Event.applyAll_cons_ok ok
          exact .flag declared named action (ih further)
      · obtain ⟨r, help, _⟩ := Event.applyAll_cons_ok ok
        exact absurd help (Progress.occur_helpFlag_ne_ok [])

/-- Each element before the separator is read without a fault if the whole vector is. -/
theorem exists_applyAll_of_mem {c : Command} {argv : List String}
    (ok : Event.applyAll s p (c.events argv) = .ok q) {arg : String}
    (before : arg ∈ argv.takeWhile (· ≠ "--")) :
    ∃ p q, Event.applyAll s p (c.elementEvents arg) = .ok q := by
  induction argv generalizing p with
  | nil => cases before
  | cons first argv ih =>
    by_cases separator : first = "--"
    · simp [separator] at before
    · rw [events, if_neg separator, Event.applyAll_append] at ok
      rw [List.takeWhile_cons_of_pos (by simpa using separator)] at before
      cases applied : Event.applyAll s p (c.elementEvents first) with
      | error e => simp [applied] at ok
      | ok r =>
        rcases List.mem_cons.mp before with rfl | later
        · exact ⟨p, r, applied⟩
        · simp only [applied] at ok
          exact ih ok later

end Command

/-- An element before the separator that looks like a flag and is read without a fault means a flag
of the declarations; if it is a cluster, all its letters are such flags. -/
theorem Admissible.means_of_applyAll (h : Admissible ds) {arg : String} (flag : LooksLikeFlag arg)
    (other : arg ≠ "--")
    (ok : Event.applyAll s p
      (Command.elementEvents { name, arguments := ds.map (·.argument) } arg) = .ok q) :
    (∃ d ∈ ds, ∃ sp ∈ d.spellings, MeansFlag sp arg) ∧
      ∀ letters, arg.toList = '-' :: letters → letters.head? ≠ some '-' →
        ShortFlags ds letters := by
  unfold Command.elementEvents at ok
  cases token : Token.ofString arg with
  | separator => exact absurd (Token.ofString_eq_separator_iff.mp token) other
  | word => exact absurd flag (Token.not_looksLikeFlag_of_ofString_word token)
  | long long value =>
    simp only [token, Event.applyAll_singleton] at ok
    obtain ⟨d, declared, named⟩ := Command.mem_longNames_of_apply ok
    obtain ⟨sp, spelled, named⟩ := List.mem_filterMap.mp named
    have legal := ((h.valid d declared).legal sp spelled).long named
    have written := Token.eq_of_ofString_long token
    rw [← eq_of_longName? named] at written
    refine ⟨⟨d, declared, sp, spelled, ?_⟩, ?_⟩
    · cases value with
      | none => simpa [written] using MeansFlag.long legal
      | some value => simpa [written, String.append_assoc] using MeansFlag.assigned legal value
    · intro letters shape cluster
      obtain ⟨name, dashes, _⟩ := legal
      simp only [written, String.toList_append, dashes, List.cons_append, List.cons.injEq,
        true_and] at shape
      simp [← shape] at cluster
  | cluster letter rest =>
    simp only [token] at ok
    have flags := Command.shortFlags_of_applyAll ok
    have written := Token.toList_of_ofString_cluster token
    refine ⟨?_, ?_⟩
    · have first : ∃ d ∈ ds, letter ∈ d.shortLetters := by
        cases flags with
        | flag declared spelled => exact ⟨_, declared, spelled⟩
        | option declared spelled => exact ⟨_, declared, spelled⟩
      obtain ⟨d, declared, named⟩ := first
      obtain ⟨sp, spelled, named⟩ := List.mem_filterMap.mp named
      have legal := ((h.valid d declared).legal sp spelled).short named
      have whole : arg = sp ++ String.ofList rest := by
        apply String.toList_injective
        simp [written, (toList_of_shortLetter? named).1]
      exact ⟨d, declared, sp, spelled, whole ▸ MeansFlag.short legal (String.ofList rest)⟩
    · intro letters shape _
      rw [written, List.cons.injEq] at shape
      exact shape.2 ▸ flags

end

namespace Selection

/-- What is parsed without a fault uses, before the separator, only flags that the selection
declares, and its clusters are made of such flags.  An element that means another flag, whether it is
declared for other stages or nowhere, makes the parse fail wherever it stands. -/
theorem parse_uses_selected_flags (r : Registry) (tags : List String) (name : String)
    (s : Surroundings) (argv : List String) :
    let selection := r.get tags
    (∀ answers, selection.parse s name argv = .ok answers →
      ∀ arg ∈ argv.takeWhile (· ≠ "--"), LooksLikeFlag arg →
        (∃ d ∈ selection.options, ∃ sp ∈ d.spellings, MeansFlag sp arg) ∧
        ∀ letters, arg.toList = '-' :: letters → letters.head? ≠ some '-' →
          ShortFlags selection.options letters) ∧
      ∀ arg ∈ argv.takeWhile (· ≠ "--"), ∀ sp, MeansFlag sp arg →
        (∀ d ∈ selection.options, sp ∉ d.spellings) →
        ∃ e, selection.parse s name argv = .error e := by
  intro selection
  have uses : ∀ answers, selection.parse s name argv = .ok answers →
      ∀ arg ∈ argv.takeWhile (· ≠ "--"), LooksLikeFlag arg →
        (∃ d ∈ selection.options, ∃ sp ∈ d.spellings, MeansFlag sp arg) ∧
        ∀ letters, arg.toList = '-' :: letters → letters.head? ≠ some '-' →
          ShortFlags selection.options letters := by
    intro answers parsed arg before flag
    obtain ⟨c, m, assembled, read, _⟩ := parse_eq_ok_iff.mp parsed
    obtain ⟨admissible, rfl⟩ := admissible_of_command assembled
    obtain ⟨p, q, applied, _⟩ := Command.read_ok read
    obtain ⟨p, q, ok⟩ := Command.exists_applyAll_of_mem applied before
    have other : arg ≠ "--" := by simpa using List.mem_takeWhile_imp before
    exact admissible.means_of_applyAll flag other ok
  refine ⟨uses, fun arg before sp means undeclared => ?_⟩
  cases parsed : selection.parse s name argv with
  | error e => exact ⟨e, rfl⟩
  | ok answers =>
    obtain ⟨⟨d, selected, own, spelled, meansOwn⟩, _⟩ :=
      uses answers parsed arg before means.looksLikeFlag
    exact absurd (means.unique meansOwn ▸ spelled) (undeclared d selected)

/-- A cluster of a flag and an option whose value is the next word; the flag of another stage is a
word behind the separator.  Behind an option that waits for its value it makes the parse fail. -/
theorem parse_uses_selected_flags_waiting :
    let verbose : Declaration :=
      { spellings := ["--verbose", "-v"], directives := { action := .storeTrue } }
    let target : Declaration := { spellings := ["target"], directives := {} }
    let output : Declaration :=
      { spellings := ["--out", "-o"], directives := {}, tags := .ofList ["ql"] }
    let trap : Declaration :=
      { spellings := ["--trap", "-t"], directives := {}, tags := .ofList ["trap"] }
    let selection := (Registry.empty.registerAll [verbose, target, output, trap]).get ["ql"]
    let s := FileTree.bare.surroundings ["w"]
    selection.parse s "codegen" ["-vo", "x", "--", "-t"] =
        .ok [⟨"verbose", "true"⟩, ⟨"target", "-t"⟩, ⟨"out", "x"⟩] ∧
      ShortFlags selection.options ['v', 'o'] ∧
      ∃ e, selection.parse s "codegen" ["--out", "-t5"] = .error e := by
  intro verbose target output trap selection s
  have parsed : selection.parse s "codegen" ["-vo", "x", "--", "-t"] =
      .ok [⟨"verbose", "true"⟩, ⟨"target", "-t"⟩, ⟨"out", "x"⟩] := by
    decide +kernel
  have first : "-vo" ∈ ["-vo", "x", "--", "-t"].takeWhile (· ≠ "--") := by decide +kernel
  have behind : "-t5" ∈ ["--out", "-t5"].takeWhile (· ≠ "--") := by decide +kernel
  have means : MeansFlag "-t" "-t5" := .short ⟨'t', by decide +kernel⟩ "5"
  have undeclared : ∀ d ∈ selection.options, "-t" ∉ d.spellings := by decide +kernel
  obtain ⟨uses, _⟩ := parse_uses_selected_flags
    (Registry.empty.registerAll [verbose, target, output, trap]) ["ql"] "codegen" s
    ["-vo", "x", "--", "-t"]
  obtain ⟨_, refuses⟩ := parse_uses_selected_flags
    (Registry.empty.registerAll [verbose, target, output, trap]) ["ql"] "codegen" s
    ["--out", "-t5"]
  exact ⟨parsed, (uses _ parsed "-vo" first (by decide +kernel)).2 ['v', 'o'] (by decide +kernel)
    (by decide), refuses "-t5" behind "-t" means undeclared⟩

end Selection

end TaggedOptions
