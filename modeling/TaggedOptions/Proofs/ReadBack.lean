import Mathlib
import TaggedOptions.Proofs.Mentions
import TaggedOptions.Proofs.RoundTrip

/-! # Reading back loses nothing

Answers leave out a destination that the matches do not know, or that holds a value of another type.
For the command that a selection is assembled into neither ever happens: every option finds its own
argument, and what is stored for it is one value of the type that it reads.  So an option goes
without an answer only where nothing was there to be answered.
-/

namespace TaggedOptions

def Value.toText : Value → String
  | .flag given => if given then "true" else "false"
  | .text value => value
  | .path value => value

namespace Directives

def Stores (d : Directives) (v : Value) : Prop :=
  match d.action, d.valueType with
  | .storeTrue, _ => ∃ given, v = .flag given
  | .store, .abspath => ∃ path, v = .path path
  | .store, .text => ∃ text, v = .text text

variable {d : Directives} {v : Value}

/-- The type that an argument keeps is the type that its option stores. -/
theorem stores_of_keeps (h : d.reaction.Keeps v) : d.Stores v := by
  unfold reaction at h
  unfold Stores
  cases action : d.action with
  | storeTrue =>
    simp only [action] at h
    cases v with
    | flag given => exact ⟨given, rfl⟩
    | text _ | path _ => cases h
  | store =>
    cases valueType : d.valueType with
    | text =>
      simp only [action, valueType] at h
      cases v with
      | text text => exact ⟨text, rfl⟩
      | flag _ | path _ => cases h
    | abspath =>
      simp only [action, valueType] at h
      cases v with
      | path path => exact ⟨path, rfl⟩
      | flag _ | text _ => cases h

/-- What an option stores is what it reads back. -/
theorem readBack?_of_stores (h : d.Stores v) : d.readBack? v = some v.toText := by
  unfold Stores at h
  unfold readBack?
  cases action : d.action with
  | storeTrue =>
    simp only [action] at h
    obtain ⟨given, rfl⟩ := h
    rfl
  | store =>
    cases valueType : d.valueType with
    | text =>
      simp only [action, valueType] at h
      obtain ⟨text, rfl⟩ := h
      rfl
    | abspath =>
      simp only [action, valueType] at h
      obtain ⟨path, rfl⟩ := h
      rfl

end Directives

namespace Declaration

variable {s : Surroundings} {d : Declaration} {m : Matches}

theorem single_argument (d : Declaration) : d.argument.reaction.isMany = false := by
  change d.directives.reaction.isMany = false
  unfold Directives.reaction
  cases d.directives.action <;> cases d.directives.valueType <;> rfl

/-- Nothing stands in for an option exactly if it takes a value and has no default. -/
theorem defaultValues_eq_nil_iff :
    defaultValues s d.argument = .ok [] ↔
      d.directives.action = .store ∧ d.directives.default = none := by
  have default : d.argument.default = d.directives.default.map DefaultValue.toText := rfl
  cases action : d.directives.action with
  | storeTrue =>
    have reaction : d.argument.reaction = .flag := Directives.reaction_of_storeTrue action
    cases given : d.directives.default with
    | none => simp [defaultValues, reaction, default, given]
    | some v =>
      simp only [defaultValues, reaction, default, given, Option.map_some]
      split
      · simp
      · split <;> simp
  | store =>
    obtain ⟨kind, takes⟩ := Directives.exists_reaction_of_store action
    have reaction : d.argument.reaction = .one kind := takes
    cases given : d.directives.default with
    | none => simp [defaultValues, reaction, default, given]
    | some v =>
      simp only [defaultValues, reaction, default, given, Option.map_some, ValueKind.readAll]
      cases kind.read s d.argument.display v.toText <;> simp

theorem answer?_of_stored {v : Value} (stored : m.get? d.dest = some [v])
    (stores : d.directives.Stores v) : d.answer? m = some ⟨d.dest, v.toText⟩ := by
  have first : m.first? d.dest = some v := by simp [Matches.first?, stored]
  simp [answer?, first, Directives.readBack?_of_stores stores]

theorem answer?_of_missing (missing : m.get? d.dest = none) : d.answer? m = none := by
  have first : m.first? d.dest = none := by simp [Matches.first?, missing]
  simp [answer?, first]

theorem dest_of_answer? {a : Answer} (h : d.answer? m = some a) : a.dest = d.dest := by
  unfold answer? at h
  cases found : m.first? d.dest with
  | none => simp [found] at h
  | some value =>
    simp only [found, Option.map_eq_some_iff] at h
    obtain ⟨_, _, rfl⟩ := h
    rfl

/-- The answered destinations stand in the order of the options. -/
theorem sublist_dests (m : Matches) (ds : List Declaration) :
    ((ds.filterMap (·.answer? m)).map (·.dest)).Sublist (ds.map (·.dest)) := by
  induction ds with
  | nil => exact List.Sublist.refl []
  | cons d ds ih =>
    cases answer : d.answer? m with
    | none =>
      rw [List.filterMap_cons_none answer]
      exact ih.cons d.dest
    | some a =>
      rw [List.filterMap_cons_some answer, List.map_cons, dest_of_answer? answer]
      exact ih.cons_cons d.dest

/-- A destination is answered exactly if there is a value under it, where the option reads back what
is stored. -/
theorem dest_mem_answers_iff {ds : List Declaration} (selected : d ∈ ds)
    (stored : ∀ values, m.get? d.dest = some values →
      ∃ v, values = [v] ∧ d.directives.Stores v) :
    d.dest ∈ (ds.filterMap (·.answer? m)).map (·.dest) ↔ m.get? d.dest ≠ none := by
  constructor
  · intro answered missing
    obtain ⟨a, member, same⟩ := List.mem_map.mp answered
    obtain ⟨e, _, answer⟩ := List.mem_filterMap.mp member
    have own : e.dest = d.dest := (dest_of_answer? answer).symm.trans same
    rw [answer?_of_missing (own ▸ missing)] at answer
    cases answer
  · intro present
    obtain ⟨values, found⟩ := Option.ne_none_iff_exists'.mp present
    obtain ⟨v, rfl, stores⟩ := stored values found
    exact List.mem_map.mpr ⟨⟨d.dest, v.toText⟩,
      List.mem_filterMap.mpr ⟨d, selected, answer?_of_stored found stores⟩, rfl⟩

end Declaration

/-! ## The command of admissible declarations -/

namespace Admissible

variable {ds : List Declaration} {s : Surroundings} {name : String} {argv : List String}
  {m : Matches}

theorem singleValued (_ : Admissible ds) (name : String) :
    Command.SingleValued { name, arguments := ds.map (·.argument) } := by
  intro a member
  rcases Command.mem_allArguments_iff.mp member with ⟨d, _, rfl⟩ | rfl
  · exact d.single_argument
  · rfl

/-- Only its own argument has the destination of an option for its id. -/
theorem eq_argument_of_id (h : Admissible ds) {d : Declaration} (selected : d ∈ ds) {a : Argument}
    (member : a ∈ Command.allArguments { name, arguments := ds.map (·.argument) })
    (same : a.id = d.dest) : a = d.argument := by
  rcases Command.mem_allArguments_iff.mp member with ⟨e, other, rfl⟩ | rfl
  · rw [h.eq_of_dest_eq other selected same]
  · have taken : "help" ∈ ds.map (·.dest) := List.mem_map.mpr ⟨d, selected, same.symm⟩
    exact absurd taken (List.nodup_cons.mp h.dests).1

/-- What is stored under the destination of an option is one value of the type that it stores. -/
theorem stored_of_read (h : Admissible ds)
    (read : Command.read { name, arguments := ds.map (·.argument) } s argv = .ok m)
    {d : Declaration} (selected : d ∈ ds) {values : List Value}
    (found : m.get? d.dest = some values) : ∃ v, values = [v] ∧ d.directives.Stores v := by
  obtain ⟨typed, _⟩ := Command.read_spec (h.singleValued name) read
  obtain ⟨a, member, same, v, only, keeps⟩ := typed _ (Matches.mem_of_get?_eq_some found)
  rw [h.eq_argument_of_id selected member same] at keeps
  exact ⟨v, only, Directives.stores_of_keeps keeps⟩

/-- An option has no value exactly if it is not given and nothing stands in for it. -/
theorem get?_eq_none_iff_of_read (h : Admissible ds)
    (read : Command.read { name, arguments := ds.map (·.argument) } s argv = .ok m)
    {d : Declaration} (selected : d ∈ ds) :
    m.get? d.dest = none ↔ d.directives.action = .store ∧ d.directives.required = false ∧
      d.directives.default = none ∧
      ¬ Command.Gives { name, arguments := ds.map (·.argument) } argv d.argument := by
  obtain ⟨_, has, complete⟩ := Command.read_spec (h.singleValued name) read
  have own : d.argument ∈ ds.map (·.argument) := List.mem_map_of_mem selected
  have given : (∃ a, Command.Gives { name, arguments := ds.map (·.argument) } argv a ∧
      a.id = d.dest) ↔
      Command.Gives { name, arguments := ds.map (·.argument) } argv d.argument := by
    constructor
    · rintro ⟨a, gives, same⟩
      exact h.eq_argument_of_id selected gives.mem_allArguments same ▸ gives
    · exact fun gives => ⟨d.argument, gives, rfl⟩
  have defaulted : (∃ a ∈ ds.map (·.argument), a.id = d.dest ∧ defaultValues s a ≠ .ok []) ↔
      ¬ (d.directives.action = .store ∧ d.directives.default = none) := by
    rw [← Declaration.defaultValues_eq_nil_iff (s := s)]
    constructor
    · rintro ⟨a, member, same, some⟩
      obtain ⟨e, other, rfl⟩ := List.mem_map.mp member
      exact h.eq_of_dest_eq other selected same ▸ some
    · exact fun some => ⟨d.argument, own, rfl, some⟩
  rw [Matches.get?_eq_none_iff, ← Bool.not_eq_true, has, given, defaulted, not_or, not_not]
  constructor
  · rintro ⟨absent, action, default⟩
    refine ⟨action, ?_, default, absent⟩
    by_contra required
    obtain ⟨b, gives, same⟩ := complete d.argument own (by simpa using required)
    exact absent (given.mp ⟨b, gives, same⟩)
  · rintro ⟨action, _, default, absent⟩
    exact ⟨absent, action, default⟩

end Admissible

namespace Selection

/-- Whenever a selection is parsed without a fault, each of its options finds its argument and reads
back the one value that is stored for it, in the type in which it is stored.  The answers have
distinct destinations in the order of the options, and an option goes without an answer exactly if
it takes a value, is not required, has no default and is not given. -/
theorem parse_loses_nothing (ds : List Declaration) (tags : List String) (name : String)
    (s : Surroundings) (argv : List String) (answers : List Answer) :
    let selection := (Registry.empty.registerAll ds).get tags
    selection.parse s name argv = .ok answers →
    ∃ c m, selection.command name = .ok c ∧ c.read s argv = .ok m ∧
      answers = selection.answers m ∧
      (∀ d ∈ selection.options, d.argument ∈ c.arguments ∧ ∀ values,
        m.get? d.dest = some values → ∃ v, values = [v] ∧ d.directives.Stores v ∧
          ⟨d.dest, v.toText⟩ ∈ answers) ∧
      (answers.map (·.dest)).Nodup ∧
      (answers.map (·.dest)).Sublist (selection.options.map (·.dest)) ∧
      ∀ d ∈ selection.options, d.dest ∉ answers.map (·.dest) ↔
        d.directives.action = .store ∧ d.directives.required = false ∧
          d.directives.default = none ∧ ¬ c.Gives argv d.argument := by
  intro selection parsed
  obtain ⟨c, m, assembled, read, answered⟩ := parse_eq_ok_iff.mp parsed
  obtain ⟨admissible, rfl⟩ := admissible_of_command assembled
  have collected : answers = selection.options.filterMap (·.answer? m) :=
    answered.symm.trans (answers_eq m (Registry.serialsTell ds tags) admissible.apart)
  have stored {d : Declaration} (selected : d ∈ selection.options) {values : List Value}
      (found : m.get? d.dest = some values) := admissible.stored_of_read read selected found
  have ordered : (answers.map (·.dest)).Sublist (selection.options.map (·.dest)) :=
    collected ▸ Declaration.sublist_dests m selection.options
  refine ⟨_, m, assembled, read, answered.symm, fun d selected => ⟨?_, fun values found => ?_⟩,
    ordered.nodup admissible.apart, ordered, fun d selected => ?_⟩
  · exact List.mem_map_of_mem selected
  · obtain ⟨v, rfl, stores⟩ := stored selected found
    refine ⟨v, rfl, stores, ?_⟩
    rw [collected]
    exact List.mem_filterMap.mpr ⟨d, selected, Declaration.answer?_of_stored found stores⟩
  · rw [← admissible.get?_eq_none_iff_of_read read selected, collected,
      Declaration.dest_mem_answers_iff selected fun values found => stored selected found, not_not]

/-- A flag that is given, a default, and a positional option whose word looks like the flag of
another option: this other option is not given, and it alone goes without an answer. -/
theorem parse_loses_nothing_past_separator :
    let verbose : Declaration :=
      { spellings := ["--verbose", "-v"]
        directives := { action := .storeTrue, valueType := .abspath } }
    let output : Declaration :=
      { spellings := ["--out", "-o"], directives := { valueType := .abspath } }
    let format : Declaration :=
      { spellings := ["--format"], directives := { default := some (.text "json") } }
    let target : Declaration := { spellings := ["target"], directives := { required := true } }
    let selection := (Registry.empty.registerAll [verbose, output, format, target]).get ["ql"]
    let answers : List Answer := [⟨"verbose", "true"⟩, ⟨"format", "json"⟩, ⟨"target", "-o"⟩]
    selection.parse (FileTree.bare.surroundings ["w"]) "codegen" ["-v", "--", "-o"] = .ok answers ∧
      output ∈ selection.options ∧
      ∃ c, selection.command "codegen" = .ok c ∧ ¬ c.Gives ["-v", "--", "-o"] output.argument ∧
        (answers.map (·.dest)).Sublist (selection.options.map (·.dest)) := by
  intro verbose output format target selection answers
  have parsed : selection.parse (FileTree.bare.surroundings ["w"]) "codegen" ["-v", "--", "-o"] =
      .ok answers := by
    decide +kernel
  have selected : output ∈ selection.options := by decide +kernel
  obtain ⟨c, _, assembled, _, _, _, _, ordered, missing⟩ :=
    parse_loses_nothing [verbose, output, format, target] ["ql"] "codegen"
      (FileTree.bare.surroundings ["w"]) ["-v", "--", "-o"] answers parsed
  have unanswered : output.dest ∉ answers.map (·.dest) := by decide
  exact ⟨parsed, selected, c, assembled, ((missing output selected).mp unanswered).2.2.2, ordered⟩

end Selection

end TaggedOptions
