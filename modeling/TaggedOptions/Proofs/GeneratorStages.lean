import Mathlib
import TaggedOptions.Proofs.ProjectRoots
import TaggedOptions.Proofs.Repetitions
import TaggedOptions.Proofs.Requests
import TaggedOptions.Proofs.Stages

/-! # The stages of the generator

Each of the generator's own options belongs to one stage or to all of them, and no two of them share
a name.  So every request can be assembled, and an empty argument vector is answered by the defaults
of the requested stages; only the stage that writes the trap code has an option that must be given.
-/

namespace TaggedOptions

/-! ## Options of one stage each -/

namespace Registry

theorem map_declaration_log (ds : List Declaration) : (log ds).map (·.declaration) = ds := by
  rw [log, List.map_map]
  exact List.zipIdx_map_fst 0 ds

theorem nodup_log (ds : List Declaration) : (log ds).Nodup := by
  have serials : (log ds).map (·.serial) = List.range' 0 ds.length := by
    rw [log, List.map_map]
    exact List.zipIdx_map_snd 0 ds
  exact List.Nodup.of_map (·.serial) (serials ▸ List.nodup_range')

/-- The options of a tag are the declarations that are filed under it, in order. -/
theorem map_declaration_tagged (ds : List Declaration) (tag : String) :
    ((empty.registerAll ds).tagged tag).map (·.declaration) =
      ds.filter fun d => tag ∈ d.shelves := by
  conv_rhs => rw [← map_declaration_log ds, List.filter_map]
  rw [tagged_registerAll]
  rfl

end Registry

namespace Selection

theorem options_essentialTags (r : Registry) (tags : List String) :
    (r.get tags).options = (r.get (essentialTags tags)).options := by
  have distinct : (r.get tags).distinct = (r.get (essentialTags tags)).distinct :=
    r.foldl_entries_essentialTags takesOnce_keep [] tags
  rw [← distinct_map_declaration, ← distinct_map_declaration, distinct]

/-- Each option of a selection was registered, and none more often than that. -/
theorem options_subperm_registered (ds : List Declaration) (tags : List String) :
    ((Registry.empty.registerAll ds).get tags).options.Subperm ds := by
  have distinct : ((Registry.empty.registerAll ds).get tags).distinct.Subperm (Registry.log ds) :=
    List.subperm_of_subset (nodup_distinctEntries _) fun e member =>
      Registry.mem_log_of_mem_entries (mem_of_mem_distinctEntries member)
  obtain ⟨arranged, perm, sublist⟩ := distinct
  have declared := sublist.map (·.declaration)
  rw [Registry.map_declaration_log] at declared
  rw [← distinct_map_declaration]
  exact ⟨arranged.map _, perm.map _, declared⟩

theorem flatMap_essentialTags {α : Type} {f : String → List α} (nothing : f wildcard = [])
    (tags : List String) : (essentialTags tags).flatMap f = tags.eraseDups.flatMap f := by
  unfold essentialTags
  induction tags.eraseDups with
  | nil => rfl
  | cons tag rest ih =>
    by_cases wild : tag = wildcard
    · rw [List.filter_cons_of_neg (by simpa using wild), ih, List.flatMap_cons, wild, nothing,
        List.nil_append]
    · rw [List.filter_cons_of_pos (by simpa using wild), List.flatMap_cons, List.flatMap_cons, ih]

theorem nodup_wildcard_essentialTags (tags : List String) :
    (wildcard :: essentialTags tags).Nodup :=
  List.nodup_cons.mpr ⟨by simp [essentialTags], (nodup_eraseDups tags).filter _⟩

/-- Where every option is filed under one tag, a selection has the options of the wildcard and then
those of each tag where it is first requested. -/
theorem options_of_single_shelf {ds : List Declaration}
    (single : ∀ d ∈ ds, ∃ tag, d.shelves = [tag]) (tags : List String) :
    ((Registry.empty.registerAll ds).get tags).options =
      (wildcard :: essentialTags tags).flatMap fun tag => ds.filter fun d => tag ∈ d.shelves := by
  rw [options_essentialTags]
  let r := Registry.empty.registerAll ds
  have entries : (r.get (essentialTags tags)).entries =
      (wildcard :: essentialTags tags).flatMap r.tagged := rfl
  have once : (r.get (essentialTags tags)).entries.Nodup := by
    rw [entries, List.nodup_flatMap]
    refine ⟨fun tag _ => ?_, (nodup_wildcard_essentialTags tags).imp fun {a b} different => ?_⟩
    · rw [Registry.tagged_registerAll]
      exact (Registry.nodup_log ds).filter _
    · intro e first second
      rw [Registry.tagged_registerAll] at first second
      obtain ⟨logged, filed⟩ := List.mem_filter.mp first
      have filed' := (List.mem_filter.mp second).2
      have declared : e.declaration ∈ ds := by
        rw [← Registry.map_declaration_log ds]
        exact List.mem_map_of_mem logged
      obtain ⟨tag, only⟩ := single e.declaration declared
      simp only [only, List.mem_singleton, decide_eq_true_eq] at filed filed'
      exact different (filed.trans filed'.symm)
  have unrepeated : (r.get (essentialTags tags)).Unrepeated :=
    once.map_on (Registry.serialsTell ds (essentialTags tags))
  rw [unrepeated.options_eq, declarations, entries, List.map_flatMap]
  exact List.flatMap_congr fun tag _ => Registry.map_declaration_tagged ds tag

end Selection

/-! ## Nothing given -/

def Declaration.standInAnswer? (s : Surroundings) (d : Declaration) : Option Answer :=
  (d.directives.standIn.bind (d.directives.shown? s)).map (⟨d.dest, ·⟩)

namespace Admissible

variable {ds : List Declaration}

/-- An empty vector stores what stands in for the options, unless one of them must be given. -/
theorem read_nil (h : Admissible ds) (defaults : ∀ d ∈ ds, d.directives.AcceptsDefault)
    (name : String) (s : Surroundings) :
    let c : Command := { name, arguments := ds.map (·.argument) }
    c.read s [] =
      if c.missing [] = [] then .ok (.single (ds.filterMap (fallback s [])))
      else .error (.refused (.missingRequired ((c.missing []).map (·.display)))) := by
  intro c
  have filled : fillDefaults s c.arguments [] = .ok (.single (ds.filterMap (fallback s []))) :=
    fillDefaults_arguments defaults h.apart []
  simp only [Command.read, Progress.run, Progress.settle, filled]
  cases c.missing [] <;> simp

theorem answer?_standIn (h : Admissible ds) (defaults : ∀ d ∈ ds, d.directives.AcceptsDefault)
    (s : Surroundings) {d : Declaration} (member : d ∈ ds) :
    d.answer? (.single (ds.filterMap (fallback s []))) = d.standInAnswer? s := by
  rw [Declaration.answer?, Matches.first?_single, lookup_filterMap_fallback s [] h.apart member,
    Declaration.standInAnswer?]
  cases stands : d.directives.standIn with
  | none => simp [fallback, stands]
  | some text =>
    have accepts := Directives.standIn_accepted (defaults d member) stands
    simp [fallback, stands, kept, Directives.readBack?_value accepts]

/-- Of options that are all flags, an empty vector lacks those that must be given. -/
theorem missing_nil (flags : ∀ d ∈ ds, d.argument.isPositional = false) (name : String) :
    let c : Command := { name, arguments := ds.map (·.argument) }
    c.missing [] = (ds.filter (·.directives.required)).map (·.argument) := by
  intro c
  let required := (ds.filter (·.directives.required)).map (·.argument)
  have absent : c.arguments.filter (fun a => a.required && !Matches.has [] a.id) = required := by
    simp [c, required, List.filter_map, Function.comp_def, Matches.has]
  have flag : ∀ a ∈ required, a.isPositional = false := by
    intro a lacking
    obtain ⟨d, must, rfl⟩ := List.mem_map.mp lacking
    exact flags d (List.mem_of_mem_filter must)
  have words : required.filter (·.isPositional) = [] := by simpa using flag
  have named : required.filter (!·.isPositional) = required := by simpa using flag
  rw [Command.missing, absent, words, named, List.append_nil]

/-- An empty vector is answered with what stands in for the options, unless some must be given. -/
theorem parse_nil {selection : Selection} (h : Admissible selection.options)
    (tells : SerialsTell selection.entries)
    (defaults : ∀ d ∈ selection.options, d.directives.AcceptsDefault) (name : String)
    (s : Surroundings) :
    let c : Command := { name, arguments := selection.options.map (·.argument) }
    selection.parse s name [] =
      if c.missing [] = [] then .ok (selection.options.filterMap (·.standInAnswer? s))
      else .error (.read (.missingRequired ((c.missing []).map (·.display)))) := by
  intro c
  have assembled : selection.command name = .ok c := Selection.command_of_admissible h name
  have answers : selection.answers (.single (selection.options.filterMap (fallback s []))) =
      selection.options.filterMap (·.standInAnswer? s) := by
    rw [Selection.answers_eq _ tells h.apart]
    exact List.filterMap_congr fun d selected => h.answer?_standIn defaults s selected
  have read : c.read s [] =
      if c.missing [] = [] then .ok (.single (selection.options.filterMap (fallback s [])))
      else .error (.refused (.missingRequired ((c.missing []).map (·.display)))) :=
    h.read_nil defaults name s
  by_cases lacks : c.missing [] = []
  · rw [if_pos lacks] at read ⊢
    exact Selection.parse_eq_ok_iff.mpr ⟨c, _, assembled, read, answers⟩
  · rw [if_neg lacks] at read ⊢
    exact Selection.parse_of_interruption assembled read

end Admissible

/-! ## Admissibility under any root -/

namespace ManifestEntry

/-- Whether entries can stand in one command does not depend on the project root. -/
theorem admissible_of_root {es : List ManifestEntry} {root : String}
    (h : Admissible (es.map (·.declaration root))) (other : String) :
    Admissible (es.map (·.declaration other)) := by
  have dests := h.dests
  have longs := h.longs
  have shorts := h.shorts
  have order := h.order
  rw [List.map_map] at dests
  rw [List.flatMap_map] at longs shorts
  rw [List.pairwise_map] at order
  refine ⟨?_, by rw [List.map_map]; exact dests, by rw [List.flatMap_map]; exact longs,
    by rw [List.flatMap_map]; exact shorts, by rw [List.pairwise_map]; exact order⟩
  intro d member
  obtain ⟨e, declared, rfl⟩ := List.mem_map.mp member
  obtain ⟨⟨spelled, legal, alone⟩, undefaulted⟩ := h.valid _ (List.mem_map_of_mem declared)
  refine ⟨⟨spelled, legal, alone⟩, fun required => ?_⟩
  have absent : e.default = none := Option.map_eq_none_iff.mp (undefaulted required)
  simp [declaration, defaultValue, absent]

end ManifestEntry

namespace Builtin

theorem admissible_declarations (root : String) : Admissible (declarations root) := by
  have closed : ((Assembly.new "").addAll (declarations "")).finish =
      .ok { name := "", arguments := (declarations "").map (·.argument) } := by
    decide +kernel
  have fixed := ((Assembly.finish_addAll_eq_ok_iff "" (declarations "") _).mp closed).1
  rw [declarations_eq] at fixed ⊢
  exact ManifestEntry.admissible_of_root fixed root

theorem shelves_declarations (root : String) :
    (declarations root).map (·.shelves) =
      [[wildcard], [schemaTag], [dbschemeTag], [qlTag], [qlTag], [qlTag], [trapTag]] := rfl

theorem single_shelf (root : String) : ∀ d ∈ declarations root, ∃ tag, d.shelves = [tag] := by
  intro d declared
  have filed : d.shelves ∈ (declarations root).map (·.shelves) := List.mem_map_of_mem declared
  rw [shelves_declarations] at filed
  simp only [List.mem_cons, List.not_mem_nil, or_false] at filed
  rcases filed with h | h | h | h | h | h | h <;> exact ⟨_, h⟩

theorem flags_declarations (root : String) : ∀ d ∈ declarations root, d.isPositional = false := by
  have closed : ∀ spellings ∈ (declarations "").map (·.spellings),
      spellings.any isBareWord = false := by
    decide +kernel
  exact fun d declared => closed d.spellings (List.mem_map_of_mem (f := (·.spellings)) declared)

theorem acceptsDefault_declarations (root : String) :
    ∀ d ∈ declarations root, d.directives.AcceptsDefault := by
  simp [declarations, pathOption, Directives.AcceptsDefault, Directives.Accepts,
    DefaultValue.toText, Path.join_eq_empty_iff]

theorem required_iff (root : String) :
    ∀ d ∈ declarations root, d.directives.required = true ↔ trapTag ∈ d.shelves := by
  have closed : ∀ p ∈ (declarations "").map fun d => (d.directives.required, d.shelves),
      p.1 = true ↔ trapTag ∈ p.2 := by
    decide +kernel
  have same : (declarations root).map (fun d => (d.directives.required, d.shelves)) =
      (declarations "").map fun d => (d.directives.required, d.shelves) := rfl
  exact fun d declared => closed (d.directives.required, d.shelves)
    (same ▸ List.mem_map.mpr ⟨d, declared, rfl⟩)

def stageDefaults (s : Surroundings) (root : String) : List (String × String × Option String) :=
  [ (schemaTag, "schema", s.absolute? (Path.join root "codegen/schema.yml")),
    (dbschemeTag, "dbscheme", s.absolute? (Path.join root "ql/lib/swift.dbscheme")),
    (qlTag, "ql_output", s.absolute? (Path.join root "ql/lib/codeql/swift/generated")),
    (qlTag, "ql_stub_output", s.absolute? (Path.join root "ql/lib/codeql/swift/elements")),
    (qlTag, "codeql_binary", some "codeql") ]

def pairOf (a : Answer) : String × Option String := (a.dest, some a.value)

/-- A path stands for the place that it means below the root, which there always is. -/
theorem standInAnswer?_pathOption (s : Surroundings) (spelling root help tag : String)
    {path : String} (named : path ≠ "") :
    ((pathOption spelling root path help tag).standInAnswer? s).map pairOf =
      some (destination [spelling] {}, s.absolute? (Path.join root path)) := by
  have joined : Path.join root path ≠ "" := fun empty => named (Path.join_eq_empty_iff.mp empty).2
  simp [Declaration.standInAnswer?, pathOption, Directives.standIn, Directives.shown?,
    DefaultValue.toText, Surroundings.absolute?, joined, pairOf, Declaration.dest]
  rfl

theorem standInAnswers_declarations (s : Surroundings) (root : String) :
    (declarations root).map (fun d => (d.shelves, (d.standInAnswer? s).map pairOf)) =
      ([wildcard], some ("verbose", some "false")) ::
        (stageDefaults s root).map (fun (tag, stands) => ([tag], some stands)) ++
        [([trapTag], none)] := by
  have dests : destination ["--schema"] {} = "schema" ∧ destination ["--dbscheme"] {} = "dbscheme" ∧
      destination ["--ql-output"] {} = "ql_output" ∧
      destination ["--ql-stub-output"] {} = "ql_stub_output" := by
    decide +kernel
  have shelves := shelves_declarations root
  simp only [declarations, List.map_cons, List.map_nil, List.cons.injEq] at shelves ⊢
  simp only [shelves, ne_eq, String.reduceEq, not_false_eq_true, standInAnswer?_pathOption, dests,
    stageDefaults, List.map_cons, List.map_nil, List.cons_append, List.nil_append, List.cons.injEq,
    Prod.mk.injEq, Option.map_eq_some_iff, true_and, Option.map_eq_none_iff, and_true]
  refine ⟨⟨_, rfl, ?_⟩, ⟨_, rfl, ?_⟩, rfl⟩ <;> decide +kernel

/-! ## Requests for stages -/

theorem options_eq (root : String) (tags : List String) :
    ((declare .empty root).get tags).options =
      (wildcard :: essentialTags tags).flatMap fun tag =>
        (declarations root).filter fun d => tag ∈ d.shelves :=
  Selection.options_of_single_shelf (single_shelf root) tags

theorem options_subperm (root : String) (tags : List String) :
    ((declare .empty root).get tags).options.Subperm (declarations root) :=
  Selection.options_subperm_registered (declarations root) tags

theorem admissible_options (root : String) (tags : List String) :
    Admissible ((declare .empty root).get tags).options :=
  (admissible_declarations root).of_subperm (options_subperm root tags) fun d selected =>
    flags_declarations root d ((options_subperm root tags).subset selected)

/-- An option that must be given is selected exactly if the trap code is requested. -/
theorem exists_required_iff (root : String) (tags : List String) :
    (∃ d ∈ ((declare .empty root).get tags).options, d.directives.required = true) ↔
      trapTag ∈ tags := by
  simp only [options_eq, List.mem_flatMap, List.mem_filter, decide_eq_true_eq]
  constructor
  · rintro ⟨d, ⟨tag, asked, declared, filed⟩, required⟩
    obtain ⟨only, shelves⟩ := single_shelf root d declared
    have trap := (required_iff root d declared).mp required
    rw [shelves, List.mem_singleton] at filed trap
    rw [filed, ← trap] at asked
    rcases List.mem_cons.mp asked with wild | essential
    · exact absurd wild (by decide)
    · exact List.mem_eraseDups.mp (List.mem_of_mem_filter essential)
  · intro requested
    obtain ⟨d, declared, required⟩ : ∃ d ∈ declarations root, d.directives.required = true :=
      ⟨_, List.mem_of_getLast? rfl, rfl⟩
    have essential : trapTag ∈ essentialTags tags :=
      List.mem_filter.mpr ⟨List.mem_eraseDups.mpr requested, by decide⟩
    exact ⟨d, ⟨trapTag, List.mem_cons_of_mem _ essential, declared,
      (required_iff root d declared).mp required⟩, required⟩

theorem missing_options (root : String) (tags : List String) (name : String) :
    let options := ((declare .empty root).get tags).options
    let c : Command := { name, arguments := options.map (·.argument) }
    c.missing [] = (options.filter (·.directives.required)).map (·.argument) := by
  intro options
  refine Admissible.missing_nil (fun d selected => ?_) name
  rw [((admissible_options root tags).valid d selected).argument_isPositional]
  exact flags_declarations root d ((options_subperm root tags).subset selected)

theorem missing_eq_nil_iff (root : String) (tags : List String) (name : String) :
    let options := ((declare .empty root).get tags).options
    let c : Command := { name, arguments := options.map (·.argument) }
    c.missing [] = [] ↔ trapTag ∉ tags := by
  intro options c
  rw [missing_options, ← exists_required_iff root tags]
  simp

/-- What an empty vector lacks where the trap code is requested. -/
theorem missing_of_trap (root : String) {tags : List String} (requested : trapTag ∈ tags)
    (name : String) :
    let options := ((declare .empty root).get tags).options
    let c : Command := { name, arguments := options.map (·.argument) }
    (c.missing []).map (·.display) = ["--trap-output <trap_output>"] := by
  intro options c
  let required := options.filter (·.directives.required)
  have every : ((declarations root).filter (·.directives.required)).map (·.argument.display) =
      ["--trap-output <trap_output>"] := by
    have closed : ((declarations "").filter (·.directives.required)).map (·.argument.display) =
        ["--trap-output <trap_output>"] := by
      decide +kernel
    exact closed
  have displays : (required.map (·.argument.display)).Subperm ["--trap-output <trap_output>"] := by
    obtain ⟨arranged, perm, sublist⟩ :=
      (options_subperm root tags).filter (·.directives.required)
    rw [← every]
    exact ⟨arranged.map _, perm.map _, sublist.map _⟩
  have some : 1 ≤ (required.map (·.argument.display)).length := by
    obtain ⟨d, selected, must⟩ := (exists_required_iff root tags).mpr requested
    rw [List.length_map]
    exact List.length_pos_of_mem (List.mem_filter.mpr ⟨selected, must⟩)
  rw [missing_options, List.map_map]
  exact List.perm_singleton.mp (displays.perm_of_length_le some)

/-- The answers of the options of one tag when nothing is given. -/
theorem standInAnswers_of_tag (s : Surroundings) (root tag : String) :
    ((declarations root).filter fun d => tag ∈ d.shelves).filterMap
        (fun d => (d.standInAnswer? s).map pairOf) =
      (if tag = wildcard then [("verbose", some "false")] else []) ++
        ((stageDefaults s root).filter (·.1 = tag)).map (·.2) := by
  have table : ((declarations root).filter fun d => tag ∈ d.shelves).filterMap
        (fun d => (d.standInAnswer? s).map pairOf) =
      (((declarations root).map fun d => (d.shelves, (d.standInAnswer? s).map pairOf)).filter
        fun p => tag ∈ p.1).filterMap (·.2) := by
    rw [List.filter_map, List.filterMap_map]
    rfl
  have stages : (((stageDefaults s root).map fun (tag, stands) => ([tag], some stands)).filter
        fun p => tag ∈ p.1).filterMap (·.2) =
      ((stageDefaults s root).filter (·.1 = tag)).map (·.2) := by
    rw [List.filter_map, List.filterMap_map]
    simp [Function.comp_def, eq_comm]
  rw [table, standInAnswers_declarations, List.filter_append, List.filter_cons, ← stages]
  by_cases trap : tag = trapTag
  · simp [trap, show trapTag ≠ wildcard by decide]
  · by_cases wild : tag = wildcard
    · simp [wild, show wildcard ≠ trapTag by decide]
    · simp [wild, trap]

theorem map_pairOf_standInAnswers (s : Surroundings) (root : String) (tags : List String) :
    (((declare .empty root).get tags).options.filterMap (·.standInAnswer? s)).map pairOf =
      ("verbose", some "false") :: tags.eraseDups.flatMap fun tag =>
        ((stageDefaults s root).filter (·.1 = tag)).map (·.2) := by
  have unstaged : (stageDefaults s root).filter (·.1 = wildcard) = [] := by
    simp [stageDefaults, schemaTag, dbschemeTag, qlTag, wildcard]
  have staged : ∀ tag ∈ essentialTags tags, tag ≠ wildcard := by simp [essentialTags]
  rw [List.map_filterMap, options_eq, List.filterMap_flatMap, List.flatMap_cons,
    standInAnswers_of_tag, if_pos rfl, unstaged,
    ← Selection.flatMap_essentialTags (by simp [unstaged])]
  refine congrArg _ (List.flatMap_congr fun tag essential => ?_)
  rw [standInAnswers_of_tag, if_neg (staged tag essential), List.nil_append]

/-- Whatever stages are requested, under whatever root and in whatever surroundings, the generator's
options make a command.  An empty vector is refused exactly if the trap code is requested, and then
for the directory that it is written to alone; otherwise the answers are the defaults, first of the
option for all stages and then of those of each stage where it is first requested. -/
theorem parse_nothing (root : String) (tags : List String) (name : String) (s : Surroundings) :
    let selection := (declare .empty root).get tags
    (∃ c, selection.command name = .ok c) ∧
      (trapTag ∈ tags → selection.parse s name [] =
        .error (.read (.missingRequired ["--trap-output <trap_output>"]))) ∧
      (trapTag ∉ tags → ∃ answers, selection.parse s name [] = .ok answers ∧
        answers.map (fun a => (a.dest, some a.value)) =
          ("verbose", some "false") :: tags.eraseDups.flatMap fun tag =>
            ((stageDefaults s root).filter (·.1 = tag)).map (·.2)) := by
  intro selection
  have admissible := admissible_options root tags
  let c : Command := { name, arguments := selection.options.map (·.argument) }
  have assembled : selection.command name = .ok c :=
    Selection.command_of_admissible admissible name
  have parsed : selection.parse s name [] =
      if c.missing [] = [] then .ok (selection.options.filterMap (·.standInAnswer? s))
      else .error (.read (.missingRequired ((c.missing []).map (·.display)))) :=
    admissible.parse_nil (Registry.serialsTell (declarations root) tags)
      (fun d selected =>
        acceptsDefault_declarations root d ((options_subperm root tags).subset selected))
      name s
  have lacks : c.missing [] = [] ↔ trapTag ∉ tags := missing_eq_nil_iff root tags name
  refine ⟨⟨c, assembled⟩, fun requested => ?_, fun unrequested => ?_⟩
  · have displays : (c.missing []).map (·.display) = ["--trap-output <trap_output>"] :=
      missing_of_trap root requested name
    rw [parsed, if_neg fun nothing => lacks.mp nothing requested, displays]
  · rw [parsed, if_pos (lacks.mpr unrequested)]
    exact ⟨_, rfl, map_pairOf_standInAnswers s root tags⟩

example :
    ((declare .empty "../src").get ["ql", "*", "schema", "ql"]).parse
        (FileTree.bare.surroundings ["work"]) "codegen" [] =
      .ok [⟨"verbose", "false"⟩, ⟨"ql_output", "/src/ql/lib/codeql/swift/generated"⟩,
        ⟨"ql_stub_output", "/src/ql/lib/codeql/swift/elements"⟩, ⟨"codeql_binary", "codeql"⟩,
        ⟨"schema", "/src/codegen/schema.yml"⟩] := by
  decide +kernel

end Builtin

end TaggedOptions
