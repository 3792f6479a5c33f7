import Mathlib
import TaggedOptions.Proofs.Events
import TaggedOptions.Proofs.RoundTrip

/-! # Spellings of one option are synonyms

A legal spelling that stands alone in an argument vector means that its option is named, whichever
of the spellings it is: the long and short names of an admissible selection lead to one argument
each.  So replacing a spelling by another one of the same option changes no event of the vector, and
nothing that is read from it.
-/

namespace TaggedOptions

namespace Token

theorem ofString_longName {sp name : String} (legal : LegalSpelling sp)
    (named : longName? sp = some name) : ofString sp = .long name none := by
  obtain ⟨nonempty, plain⟩ := longName?_of_legal legal named
  rw [eq_of_longName? named, ofString_flag plain nonempty]

theorem ofString_shortLetter {sp : String} {letter : Char} (named : shortLetter? sp = some letter) :
    ofString sp = .cluster letter [] := by
  obtain ⟨written, noDash⟩ := toList_of_shortLetter? named
  rw [ofString, written, ofChars_cluster noDash]

end Token

namespace Command

variable {c : Command}

/-- A spelling means that its option is named. -/
theorem WellFormed.elementEvents_spelling (h : c.WellFormed) {d : Declaration}
    (wellSpelled : d.WellSpelled) (member : d.argument ∈ c.arguments) {sp : String}
    (spelled : sp ∈ d.spellings) (flag : isBareWord sp = false) :
    c.elementEvents sp = [.name d.argument] := by
  have legal := wellSpelled.legal sp spelled
  unfold elementEvents
  cases long : longName? sp with
  | some name =>
    have named : name ∈ d.argument.longs := by
      rw [Declaration.argument_longs]
      exact List.mem_filterMap.mpr ⟨sp, spelled, long⟩
    rw [Token.ofString_longName legal long]
    simp only [longEvent, h.byLong?_eq member named, Event.name]
    cases d.argument.reaction.takesValue <;> rfl
  | none =>
    cases short : shortLetter? sp with
    | none =>
      rcases names_of_not_isBareWord legal flag with named | named
      · exact absurd long named
      · exact absurd short named
    | some letter =>
      have named : letter ∈ d.argument.shorts := by
        rw [Declaration.argument_shorts]
        exact List.mem_filterMap.mpr ⟨sp, spelled, short⟩
      rw [Token.ofString_shortLetter short]
      simp only [clusterEvents, h.byShort?_eq member named, Progress.attached, Event.name]
      split <;> rfl

/-- After any elements before the separator, a spelling adds the event that its option is named. -/
theorem WellFormed.events_spelling (h : c.WellFormed) {d : Declaration}
    (wellSpelled : d.WellSpelled) (member : d.argument ∈ c.arguments) {sp : String}
    (spelled : sp ∈ d.spellings) (flag : isBareWord sp = false) {before : List String}
    (unseparated : "--" ∉ before) (behind : List String) :
    c.events (before ++ sp :: behind) =
      before.flatMap c.elementEvents ++ .name d.argument :: c.events behind := by
  have meaning := h.elementEvents_spelling wellSpelled member spelled flag
  have noSeparator : sp ≠ "--" := by
    rintro rfl
    have separates : c.elementEvents "--" = [.separator] := rfl
    rw [separates, List.cons.injEq] at meaning
    have named := meaning.1
    unfold Event.name at named
    split at named <;> cases named
  rw [events_append unseparated, events, if_neg noSeparator, meaning, List.singleton_append]

end Command

namespace Selection

/-- Wherever an option is named by one of its spellings before the separator, any other of its
spellings can stand instead: the answers, or the fault, are the same. -/
theorem parse_eq_of_spellings (r : Registry) (tags : List String) (name : String)
    (s : Surroundings) (assembled : ∃ c, (r.get tags).command name = .ok c) {d : Declaration}
    (selected : d ∈ (r.get tags).options) {first second : String} (spelled : first ∈ d.spellings)
    (respelled : second ∈ d.spellings) (before behind : List String)
    (unseparated : "--" ∉ before) :
    (r.get tags).parse s name (before ++ first :: behind) =
      (r.get tags).parse s name (before ++ second :: behind) := by
  obtain ⟨c, assembled⟩ := assembled
  obtain ⟨admissible, built⟩ := admissible_of_command assembled
  have wellSpelled := (admissible.valid d selected).toWellSpelled
  by_cases flags : isBareWord first = false ∧ isBareWord second = false
  · have wellFormed : c.WellFormed := built ▸ admissible.wellFormed name
    have member : d.argument ∈ c.arguments := by
      rw [built]
      exact List.mem_map_of_mem selected
    have start : ({ positionals := c.positionals } : Progress).separated = false := rfl
    simp only [parse, matches?, assembled, Command.read, Progress.run_eq_applyAll start,
      wellFormed.events_spelling wellSpelled member spelled flags.1 unseparated,
      wellFormed.events_spelling wellSpelled member respelled flags.2 unseparated]
  · have same : first = second := by
      rw [not_and_or, Bool.not_eq_false, Bool.not_eq_false] at flags
      rcases flags with word | word
      · have alone := (wellSpelled.alone first spelled word).1
        rw [alone, List.mem_singleton] at respelled
        exact respelled.symm
      · have alone := (wellSpelled.alone second respelled word).1
        rw [alone, List.mem_singleton] at spelled
        exact spelled
    rw [same]

/-- The short letter of an option whose value is the next word, and its third spelling, behind a flag
and an option that is given twice: both are refused for the repetition. -/
theorem parse_eq_of_spellings_repeated :
    let verbose : Declaration :=
      { spellings := ["--verbose", "-v"], directives := { action := .storeTrue } }
    let output : Declaration :=
      { spellings := ["--out", "-o", "--output"], directives := { required := true }
        tags := .ofList ["ql"] }
    let selection := (Registry.empty.registerAll [verbose, output]).get ["ql"]
    let s := FileTree.bare.surroundings ["w"]
    output ∈ selection.options ∧
      selection.parse s "codegen" ["-v", "--out=a", "-o", "b"] =
        selection.parse s "codegen" ["-v", "--out=a", "--output", "b"] ∧
      selection.parse s "codegen" ["-v", "--out=a", "--output", "b"] =
        .error (.read (.repeated "--out <out>")) := by
  intro verbose output selection s
  have assembled : ∃ c, selection.command "codegen" = .ok c :=
    ⟨{ name := "codegen", arguments := selection.options.map (·.argument) }, by decide +kernel⟩
  have selected : output ∈ selection.options := by decide +kernel
  exact ⟨selected,
    parse_eq_of_spellings (Registry.empty.registerAll [verbose, output]) ["ql"] "codegen" s
      assembled selected (by decide) (by decide) ["-v", "--out=a"] ["b"] (by decide),
    by decide +kernel⟩

end Selection

end TaggedOptions
