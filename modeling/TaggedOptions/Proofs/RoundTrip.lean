import Mathlib
import TaggedOptions.Proofs.Answering
import TaggedOptions.Proofs.Assembling
import TaggedOptions.Proofs.Reading
import TaggedOptions.Proofs.Stored

/-! # Writing an argument vector and reading it back

Somebody who writes an argument vector for a selection chooses texts for some of its options, a long
name for each, and an order.  Reading the vector with the command of the selection answers every
option with the text that was chosen for it, or with the text that stands in for it; neither the
names nor the order make a difference.
-/

namespace TaggedOptions

/-- What is written for a selection: flags and options by name, in any order, and words. -/
structure Written where
  given : List Given
  words : List String
  deriving DecidableEq, Repr

namespace Written

def argv (w : Written) : List String := w.given.map (·.token) ++ "--" :: w.words

/-- The texts that are written, each with the option that it is meant for.  The words are meant for
the positional options in order. -/
def texts (w : Written) (ds : List Declaration) : List (Declaration × String) :=
  w.given.map (fun g => (g.option, g.text)) ++ (ds.filter (·.isPositional)).zip w.words

def source? (w : Written) (ds : List Declaration) (d : Declaration) : Option String :=
  ((w.texts ds).lookup d).or d.directives.standIn

def answer? (w : Written) (s : Surroundings) (ds : List Declaration) (d : Declaration) :
    Option Answer :=
  ((w.source? ds d).bind (d.directives.shown? s)).map (⟨d.dest, ·⟩)

/-- What is written is meant for some of the declarations, each flag and option at most once, and
covers those that have to be given. -/
structure Fits (w : Written) (ds : List Declaration) : Prop where
  selected : ∀ g ∈ w.given, g.option ∈ ds
  given : ∀ g ∈ w.given, g.Fits
  once : (w.given.map (·.option)).Nodup
  bounded : w.words.length ≤ (ds.filter (·.isPositional)).length
  accepted : ∀ p ∈ w.texts ds, p.1.directives.Accepts p.2
  covered : ∀ d ∈ ds, d.directives.required = true → d ∈ (w.texts ds).map Prod.fst

instance (w : Written) (ds : List Declaration) : Decidable (w.Fits ds) :=
  decidable_of_iff ((∀ g ∈ w.given, g.option ∈ ds) ∧ (∀ g ∈ w.given, g.Fits) ∧
      (w.given.map (·.option)).Nodup ∧ w.words.length ≤ (ds.filter (·.isPositional)).length ∧
      (∀ p ∈ w.texts ds, p.1.directives.Accepts p.2) ∧
      ∀ d ∈ ds, d.directives.required = true → d ∈ (w.texts ds).map Prod.fst)
    ⟨by
        rintro ⟨selected, given, once, bounded, accepted, covered⟩
        exact ⟨selected, given, once, bounded, accepted, covered⟩,
      fun h => ⟨h.selected, h.given, h.once, h.bounded, h.accepted, h.covered⟩⟩

end Written

/-! ## The command of admissible declarations -/

namespace Admissible

variable {ds : List Declaration}

theorem apart (h : Admissible ds) : (ds.map (·.dest)).Nodup := (List.nodup_cons.mp h.dests).2

theorem eq_of_dest_eq (h : Admissible ds) {d e : Declaration} (hd : d ∈ ds) (he : e ∈ ds)
    (same : d.dest = e.dest) : d = e :=
  List.inj_on_of_nodup_map h.apart hd he same

theorem wellFormed (h : Admissible ds) (name : String) :
    Command.WellFormed { name, arguments := ds.map (·.argument) } :=
  ((admissible_iff { name } rfl).mp h).2

theorem positionals (h : Admissible ds) (name : String) :
    Command.positionals { name, arguments := ds.map (·.argument) } =
      (ds.filter (·.isPositional)).map (·.argument) := by
  rw [Command.positionals, List.filter_map]
  refine congrArg _ (List.filter_congr fun d member => ?_)
  exact (h.valid d member).argument_isPositional

theorem stores (h : Admissible ds) {d : Declaration} (member : d ∈ ds.filter (·.isPositional)) :
    d.directives.action = .store := by
  obtain ⟨member, positional⟩ := List.mem_filter.mp member
  have valid := h.valid d member
  exact valid.stores_of_isPositional (valid.argument_isPositional.trans positional)

end Admissible

/-! ## What is stored for an option -/

theorem lookup_map_kept (s : Surroundings) {l : List (Declaration × String)} {d : Declaration}
    (apart : ∀ p ∈ l, p.1.dest = d.dest → p.1 = d) :
    (l.map (kept s)).lookup d.dest = (l.lookup d).map (d.directives.value s) := by
  induction l with
  | nil => rfl
  | cons p l ih =>
    obtain ⟨e, text⟩ := p
    rw [List.forall_mem_cons] at apart
    rw [List.map_cons, kept, List.lookup_cons, List.lookup_cons]
    by_cases same : d = e
    · subst same
      simp
    · have other : d.dest ≠ e.dest := fun h => same (apart.1 h.symm).symm
      rw [beq_false_of_ne same, beq_false_of_ne other]
      exact ih apart.2

theorem dest_of_fallback {s : Surroundings} {l : List (String × Value)} {d : Declaration}
    {p : String × Value} (h : fallback s l d = some p) : p.1 = d.dest := by
  unfold fallback at h
  split at h
  · cases h
  · obtain ⟨text, _, rfl⟩ := Option.map_eq_some_iff.mp h
    rfl

theorem lookup_filterMap_fallback (s : Surroundings) (l : List (String × Value))
    {ds : List Declaration} (distinct : (ds.map (·.dest)).Nodup) {d : Declaration}
    (member : d ∈ ds) :
    (ds.filterMap (fallback s l)).lookup d.dest = (fallback s l d).map Prod.snd := by
  induction ds with
  | nil => cases member
  | cons e ds ih =>
    obtain ⟨fresh, distinct⟩ := List.nodup_cons.mp distinct
    by_cases same : d = e
    · subst same
      cases here : fallback s l d with
      | none =>
        rw [List.filterMap_cons_none here]
        refine List.lookup_eq_none_iff.mpr fun p found => ?_
        obtain ⟨e, later, standsIn⟩ := List.mem_filterMap.mp found
        have key : p.1 = e.dest := dest_of_fallback standsIn
        have other : d.dest ≠ p.1 := fun taken =>
          fresh (List.mem_map.mpr ⟨e, later, (taken.trans key).symm⟩)
        exact bne_iff_ne.mpr other
      | some p =>
        obtain ⟨id, v⟩ := p
        have id : id = d.dest := dest_of_fallback here
        rw [List.filterMap_cons_some here, List.lookup_cons, id]
        simp
    · have later : d ∈ ds := (List.mem_cons.mp member).resolve_left same
      have other : d.dest ≠ e.dest := fun taken => fresh (List.mem_map.mpr ⟨d, later, taken⟩)
      rw [← ih distinct later]
      cases here : fallback s l e with
      | none => rw [List.filterMap_cons_none here]
      | some p =>
        obtain ⟨id, v⟩ := p
        have id : id = e.dest := dest_of_fallback here
        rw [List.filterMap_cons_some here, List.lookup_cons, id, beq_false_of_ne other]

namespace Written

variable {w : Written} {ds : List Declaration}

theorem mem_of_mem_texts (fits : w.Fits ds) {p : Declaration × String} (h : p ∈ w.texts ds) :
    p.1 ∈ ds := by
  rcases List.mem_append.mp h with named | placed
  · obtain ⟨g, member, rfl⟩ := List.mem_map.mp named
    exact fits.selected g member
  · exact List.mem_of_mem_filter (List.of_mem_zip placed).1

theorem lookup_kept_texts (s : Surroundings) (admissible : Admissible ds) (fits : w.Fits ds)
    {d : Declaration} (member : d ∈ ds) :
    ((w.texts ds).map (kept s)).lookup d.dest =
      ((w.texts ds).lookup d).map (d.directives.value s) :=
  lookup_map_kept s fun _ written same =>
    admissible.eq_of_dest_eq (mem_of_mem_texts fits written) member same

/-- In the end an option holds what it keeps of its text. -/
theorem lookup_stored (s : Surroundings) (admissible : Admissible ds) (fits : w.Fits ds)
    {d : Declaration} (member : d ∈ ds) :
    ((w.texts ds).map (kept s) ++
        ds.filterMap (fallback s ((w.texts ds).map (kept s)))).lookup d.dest =
      (w.source? ds d).map (d.directives.value s) := by
  rw [List.lookup_append, lookup_filterMap_fallback s _ admissible.apart member, fallback,
    lookup_kept_texts s admissible fits member, source?]
  cases (w.texts ds).lookup d with
  | some text => simp
  | none =>
    simp [Function.comp_def, kept]

/-! ## Reading what is written -/

theorem accepts_given (fits : w.Fits ds) {g : Given} (member : g ∈ w.given) :
    g.option.directives.Accepts g.text :=
  fits.accepted (g.option, g.text) (List.mem_append_left _ (List.mem_map.mpr ⟨g, member, rfl⟩))

theorem given_dests_nodup (admissible : Admissible ds) (fits : w.Fits ds) :
    (w.given.map (·.option.dest)).Nodup := by
  have once := fits.once
  rw [List.Nodup, List.pairwise_map] at once ⊢
  refine once.imp_of_mem fun {g h} hg hh different same => different ?_
  exact admissible.eq_of_dest_eq (fits.selected g hg) (fits.selected h hh) same

/-- A positional option has no name by which it could be given. -/
theorem lookup_given_of_isPositional (s : Surroundings) (admissible : Admissible ds)
    (fits : w.Fits ds) {d : Declaration} (member : d ∈ ds) (positional : d.isPositional = true) :
    (w.given.map fun g => kept s (g.option, g.text)).lookup d.dest = none := by
  refine List.lookup_eq_none_iff.mpr fun p found => ?_
  obtain ⟨g, given, rfl⟩ := List.mem_map.mp found
  refine bne_iff_ne.mpr fun taken => ?_
  have same : d = g.option := admissible.eq_of_dest_eq member (fits.selected g given) taken
  have nameless := (admissible.valid d member).longNames_of_isPositional positional
  have named := (fits.given g given).named
  simp [← same, nameless] at named

/-- What is written is stored, in order. -/
theorem run_argv (s : Surroundings) (name : String) (admissible : Admissible ds)
    (fits : w.Fits ds) :
    let c : Command := { name, arguments := ds.map (·.argument) }
    ∃ p, Progress.run s c { positionals := c.positionals } w.argv = .ok p ∧
      ∃ ps, p.settle s = .ok (Progress.settled ((w.texts ds).map (kept s)) ps true) := by
  intro c
  let placed := ds.filter (·.isPositional)
  let stored := w.given.map fun g => kept s (g.option, g.text)
  have positionals : c.positionals = placed.map (·.argument) := admissible.positionals name
  have givenRun := Progress.run_given (s := s) (admissible.wellFormed name) fits.given
    (fun g member => (admissible.valid g.option (fits.selected g member)).toWellSpelled)
    (fun g member => List.mem_map.mpr ⟨g.option, fits.selected g member, rfl⟩)
    (fun g member => accepts_given fits member) (given_dests_nodup admissible fits) (l := [])
    (fun _ _ => rfl) c.positionals ("--" :: w.words)
  have fresh : ∀ d ∈ placed, stored.lookup d.dest = none := by
    intro d member
    obtain ⟨selected, positional⟩ := List.mem_filter.mp member
    exact lookup_given_of_isPositional s admissible fits selected positional
  have distinct : (placed.map (·.dest)).Nodup :=
    admissible.apart.sublist (List.filter_sublist.map _)
  obtain ⟨p, wordsRun, settles⟩ := Progress.run_words (s := s) (c := c) (l := stored)
    (p := Progress.settled stored (placed.map (·.argument)) true) fits.bounded
    (fun d member => admissible.stores member)
    (fun p member => fits.accepted p (List.mem_append_right _ member)) distinct fresh rfl rfl rfl
  refine ⟨p, ?_, (placed.drop w.words.length).map (·.argument), ?_⟩
  · change Progress.run s c (Progress.settled [] c.positionals false) _ = _
    rw [argv, givenRun, List.nil_append, positionals, Progress.run, Progress.step_separator]
    exact wordsRun
  · rw [settles, texts, List.map_append, List.map_map]
    rfl

/-- Nothing that has to be given is missing. -/
theorem missing_eq_nil (s : Surroundings) (name : String) (admissible : Admissible ds)
    (fits : w.Fits ds) :
    Command.missing { name, arguments := ds.map (·.argument) }
      (.single ((w.texts ds).map (kept s))) = [] := by
  refine Command.missing_eq_nil_iff.mpr fun a expected => ?_
  obtain ⟨d, member, rfl⟩ := List.mem_map.mp expected
  rw [Declaration.argument_required, Declaration.argument_id, Matches.has_single,
    lookup_kept_texts s admissible fits member, Option.isSome_map]
  intro required
  have covered := fits.covered d member required
  by_contra unwritten
  have absent := List.lookup_eq_none_iff.mp (Option.not_isSome_iff_eq_none.mp unwritten)
  obtain ⟨p, written, rfl⟩ := List.mem_map.mp covered
  simpa using absent p written

/-- Reading what is written stores a text for each option: the one that was written, or else the one
that stands in. -/
theorem read_argv (s : Surroundings) (name : String) (admissible : Admissible ds)
    (defaults : ∀ d ∈ ds, d.directives.AcceptsDefault)
    (fits : w.Fits ds) :
    Command.read { name, arguments := ds.map (·.argument) } s w.argv =
      .ok (.single ((w.texts ds).map (kept s) ++
        ds.filterMap (fallback s ((w.texts ds).map (kept s))))) := by
  obtain ⟨p, ran, ps, settles⟩ := run_argv s name admissible fits
  have filled := fillDefaults_arguments (s := s) defaults admissible.apart
    ((w.texts ds).map (kept s))
  have missing := missing_eq_nil s name admissible fits
  simp only [Command.read, ran, settles, Progress.settled, filled, missing]

/-- What is read back for an option is what its text shows. -/
theorem answer?_eq (s : Surroundings) (admissible : Admissible ds)
    (defaults : ∀ d ∈ ds, d.directives.AcceptsDefault)
    (fits : w.Fits ds) {d : Declaration} (member : d ∈ ds) :
    d.answer? (.single ((w.texts ds).map (kept s) ++
      ds.filterMap (fallback s ((w.texts ds).map (kept s))))) = w.answer? s ds d := by
  rw [Declaration.answer?, Matches.first?_single, lookup_stored s admissible fits member,
    Written.answer?]
  cases source : w.source? ds d with
  | none => rfl
  | some text =>
    have accepts : d.directives.Accepts text := by
      rw [source?, Option.or_eq_some_iff] at source
      rcases source with written | ⟨_, standsIn⟩
      · obtain ⟨before, behind, split, _⟩ := List.lookup_eq_some_iff.mp written
        exact fits.accepted (d, text) (by simp [split])
      · exact Directives.standIn_accepted (defaults d member) standsIn
    simp only [Option.map_some, Option.bind_some, Directives.readBack?_value accepts]

/-- Whatever is written for a selection that can be assembled, and whose defaults its options
accept, reading it back answers every option in the order of the selection with the text that was
written for it, or else with the text that stands in for it. -/
theorem parse_argv (ds : List Declaration) (tags : List String) (name : String) (s : Surroundings)
    (w : Written) :
    let selection := (Registry.empty.registerAll ds).get tags
    (∃ c, selection.command name = .ok c) →
    (∀ d ∈ selection.options, d.directives.AcceptsDefault) →
    w.Fits selection.options →
    selection.parse s name w.argv =
      .ok (selection.options.filterMap (w.answer? s selection.options)) := by
  rintro selection ⟨c, assembled⟩ defaults fits
  obtain ⟨admissible, command⟩ :=
    (Assembly.finish_addAll_eq_ok_iff name selection.options c).mp
      (selection.assembly_eq name ▸ assembled)
  have read := read_argv s name admissible defaults fits
  rw [← command] at read
  simp only [Selection.parse, Selection.matches?, assembled, read]
  rw [Selection.answers_eq _ (Registry.serialsTell ds tags) admissible.apart]
  exact congrArg Except.ok
    (List.filterMap_congr fun d member => answer?_eq s admissible defaults fits member)

/-- The second long name of an option, a value with an equals sign in it, a word that looks like a
flag, and a default. -/
theorem parse_argv_with_alias :
    let verbose : Declaration :=
      { spellings := ["--verbose", "-v"], directives := { action := .storeTrue } }
    let output : Declaration :=
      { spellings := ["--out", "-o", "--output"]
        directives := { valueType := .abspath, required := true }
        tags := .ofList ["ql", "trap"] }
    let format : Declaration :=
      { spellings := ["--format"], directives := { default := some (.text "json") }
        tags := .ofList ["ql"] }
    let target : Declaration := { spellings := ["target"], directives := {} }
    let selection := (Registry.empty.registerAll [verbose, output, format, target]).get ["trap", "ql"]
    selection.parse (FileTree.bare.surroundings ["w"]) "codegen"
        ["--output=a=b", "--verbose", "--", "--x"] =
      .ok [⟨"verbose", "true"⟩, ⟨"target", "--x"⟩, ⟨"out", "/w/a=b"⟩, ⟨"format", "json"⟩] := by
  intro verbose output format target selection
  let w : Written :=
    { given := [⟨output, "output", some "a=b"⟩, ⟨verbose, "verbose", none⟩], words := ["--x"] }
  have assembled : ∃ c, selection.command "codegen" = .ok c :=
    ⟨{ name := "codegen", arguments := selection.options.map (·.argument) }, by decide +kernel⟩
  have answers := parse_argv [verbose, output, format, target] ["trap", "ql"] "codegen"
    (FileTree.bare.surroundings ["w"]) w assembled (by decide +kernel) (by decide +kernel)
  exact answers.trans (by decide +kernel)

end Written

end TaggedOptions
