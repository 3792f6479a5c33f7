import Mathlib
import TaggedOptions.Proofs.ReadBack
import TaggedOptions.Proofs.Resolving

/-! # Path values

However a path is written, what it is resolved to is an absolute path of plain names; only the empty
text is refused.  So is every value that a path option is answered with, wherever its text comes
from: nothing is stored for an option but what it keeps of a text that it accepts.
-/

namespace TaggedOptions

def Path.IsResolved (path : String) : Prop := ∃ p : Place, p.Plain ∧ path = p.toText

namespace Surroundings

variable {s : Surroundings}

theorem absolute?_eq_none_iff {path : String} : s.absolute? path = none ↔ path = "" := by
  simp [absolute?]

theorem Plain.absolute?_isResolved (plain : s.Plain) {path resolved : String}
    (h : s.absolute? path = some resolved) : Path.IsResolved resolved := by
  unfold absolute? at h
  split at h
  · cases h
  · cases h
    exact ⟨s.place path, plain.place path, rfl⟩

end Surroundings

/-! ## What every storing keeps -/

/-- A property of matches that no storing of an argument breaks, and no default either. -/
structure Command.Keeps (c : Command) (s : Surroundings) (P : Matches → Prop) : Prop where
  stored : ∀ a ∈ c.allArguments, ∀ found raws m, store s found a raws = .ok m → P found → P m
  defaulted : ∀ a ∈ c.arguments, ∀ m v more, m.has a.id = false →
    defaultValues s a = .ok (v :: more) → P m → P (m.append a.id (v :: more))

section

variable {s : Surroundings} {c : Command} {P : Matches → Prop} {p q : Progress}

namespace Progress

theorem settle_keeps (keeps : c.Keeps s P) (sound : p.Sound c) (holds : P p.found)
    (h : p.settle s = .ok q) : P q.found := by
  rcases settle_ok h with ⟨_, rfl⟩ | ⟨occurrence, found, pending, stored, rfl⟩
  · exact holds
  · exact keeps.stored _ (sound.pending occurrence pending) _ _ _ stored holds

theorem takeWord_keeps (keeps : c.Keeps s P) (sound : p.Sound c) (holds : P p.found)
    {word : String} (h : p.takeWord s word = .ok q) : P q.found := by
  obtain ⟨a, rest, _, ⟨_, r, settled, rfl⟩ | ⟨_, r, settled, rfl⟩ | ⟨_, _, _, _, rfl⟩⟩ :=
    takeWord_ok h
  · exact (settle_keeps keeps sound holds settled : P r.found)
  · exact (settle_keeps keeps sound holds settled : P r.found)
  · exact holds

end Progress

theorem Event.apply_keeps (keeps : c.Keeps s P) (sound : p.Sound c) (holds : P p.found)
    {event : Event} (known : ∀ a ∈ event.argument?, a ∈ c.allArguments)
    (h : event.apply s p = .ok q) : P q.found := by
  cases event with
  | occur a raws =>
    obtain ⟨r, found, settled, stored, rfl⟩ := Progress.occur_ok h
    have before := Progress.settle_keeps keeps sound holds settled
    exact keeps.stored a (known a rfl) _ _ _ stored before
  | await a =>
    obtain ⟨r, settled, rfl⟩ := Progress.await_ok h
    exact (Progress.settle_keeps keeps sound holds settled : P r.found)
  | word text =>
    rcases Progress.readWord_ok h with ⟨_, _, _, rfl⟩ | ⟨_, taken⟩
    · exact holds
    · exact Progress.takeWord_keeps keeps sound holds taken
  | separator =>
    cases h
    exact holds
  | trailing text => exact Progress.takeWord_keeps keeps sound holds h
  | refusal e => cases h

theorem Event.applyAll_keeps (single : c.SingleValued) (keeps : c.Keeps s P) (sound : p.Sound c)
    (holds : P p.found) {events : List Event}
    (known : ∀ a ∈ events.filterMap Event.argument?, a ∈ c.allArguments)
    (h : Event.applyAll s p events = .ok q) : P q.found := by
  induction events generalizing p with
  | nil =>
    cases h
    exact holds
  | cons event rest ih =>
    obtain ⟨r, applied, behind⟩ := Event.applyAll_cons_ok h
    obtain ⟨first, later⟩ := Event.forall_argument?_cons.mp known
    exact ih (sound.apply single first applied) (apply_keeps keeps sound holds first applied)
      later behind

theorem fillDefaults_keeps {args : List Argument} (keeps : c.Keeps s P)
    (known : ∀ a ∈ args, a ∈ c.arguments) {m filled : Matches} (holds : P m)
    (h : fillDefaults s args m = .ok filled) : P filled := by
  induction args generalizing m with
  | nil =>
    cases h
    exact holds
  | cons a rest ih =>
    rw [List.forall_mem_cons] at known
    obtain ⟨next, later, ⟨_, rfl⟩ | ⟨_, _, rfl⟩ | ⟨fresh, v, more, values, rfl⟩⟩ :=
      fillDefaults_cons_eq_ok_iff.mp h
    · exact ih known.2 holds later
    · exact ih known.2 holds later
    · exact ih known.2 (keeps.defaulted a known.1 m v more fresh values holds) later

/-- What no storing breaks holds of everything that is read. -/
theorem Command.Keeps.read (keeps : c.Keeps s P) (single : c.SingleValued) (start : P [])
    {argv : List String} {m : Matches} (h : c.read s argv = .ok m) : P m := by
  obtain ⟨p, q, applied, settled, filled, _⟩ := Command.read_ok h
  have known : ∀ a ∈ c.named argv, a ∈ c.allArguments :=
    fun a => Command.mem_allArguments_of_mem_named
  have sound := (Progress.start_sound c).applyAll single known applied
  have holds := Event.applyAll_keeps single keeps (Progress.start_sound c) start known applied
  exact fillDefaults_keeps keeps (fun _ member => member)
    (Progress.settle_keeps keeps sound holds settled) filled

end

/-! ## The values of options -/

/-- Under the destination of an option stands what it keeps of a text that it accepts. -/
def Matches.Kept (s : Surroundings) (ds : List Declaration) (m : Matches) : Prop :=
  ∀ x ∈ m, ∀ d ∈ ds, d.dest = x.id →
    ∃ text, d.directives.Accepts text ∧ x.values = [d.directives.value s text]

namespace Admissible

variable {ds : List Declaration} {s : Surroundings} {name : String} {m : Matches}

theorem kept_append (h : Admissible ds) (kept : m.Kept s ds) {d : Declaration} (selected : d ∈ ds)
    (fresh : m.has d.dest = false) {text : String} (accepts : d.directives.Accepts text) :
    (m.append d.dest [d.directives.value s text]).Kept s ds := by
  intro x stored
  rw [Matches.append, if_neg (by simp [fresh])] at stored
  rcases List.mem_append.mp stored with old | new
  · exact kept x old
  · rw [List.mem_singleton.mp new]
    intro e other same
    exact ⟨text, h.eq_of_dest_eq other selected same ▸ accepts,
      h.eq_of_dest_eq other selected same ▸ rfl⟩

theorem keeps_kept (h : Admissible ds) (s : Surroundings) (name : String) :
    Command.Keeps { name, arguments := ds.map (·.argument) } s (·.Kept s ds) where
  stored := by
    intro a member found raws m stored kept
    rcases Command.mem_allArguments_iff.mp member with ⟨d, selected, rfl⟩ | rfl
    · obtain ⟨fresh, text, accepts, rfl⟩ := Declaration.store_argument_ok stored
      exact h.kept_append kept selected fresh accepts
    · cases stored
  defaulted := by
    intro a member m v more fresh values kept
    obtain ⟨d, selected, rfl⟩ := List.mem_map.mp member
    have accepted := Declaration.acceptsDefault_of_defaultValues values
    rw [Declaration.defaultValues_argument accepted, Except.ok.injEq] at values
    cases stands : d.directives.standIn with
    | none => simp [stands] at values
    | some text =>
      rw [stands] at values
      rw [← values]
      exact h.kept_append kept selected fresh (Directives.standIn_accepted accepted stands)

/-- Whatever is read, every option has what it keeps of a text that it accepts. -/
theorem kept_of_read (h : Admissible ds) {argv : List String}
    (read : Command.read { name, arguments := ds.map (·.argument) } s argv = .ok m) :
    m.Kept s ds :=
  (h.keeps_kept s name).read (h.singleValued name) (by simp [Matches.Kept]) read

/-- What is answered for a path option is what some text is resolved to. -/
theorem absolute?_of_answer? (h : Admissible ds) {argv : List String}
    (read : Command.read { name, arguments := ds.map (·.argument) } s argv = .ok m)
    {d : Declaration} (selected : d ∈ ds) (store : d.directives.action = .store)
    (abspath : d.directives.valueType = .abspath) {value : String}
    (answer : d.answer? m = some ⟨d.dest, value⟩) : ∃ text, s.absolute? text = some value := by
  unfold Declaration.answer? at answer
  cases first : m.first? d.dest with
  | none => simp [first] at answer
  | some v =>
    obtain ⟨values, found, head⟩ := Option.bind_eq_some_iff.mp first
    obtain ⟨text, accepts, rfl⟩ :=
      h.kept_of_read read _ (Matches.mem_of_get?_eq_some found) d selected rfl
    cases head
    refine ⟨text, ?_⟩
    simpa [first, Directives.readBack?_value accepts, Directives.shown?, store, abspath]
      using answer

end Admissible

namespace Selection

/-- Only the empty text is no path.  Whatever another text is resolved to is an absolute path of
plain names, and so is every value of a path option, which has one if it is given or has a default. -/
theorem path_values_resolved {s : Surroundings} (plain : s.Plain) :
    (∀ path, s.absolute? path = none ↔ path = "") ∧
    (∀ path resolved, s.absolute? path = some resolved → Path.IsResolved resolved) ∧
    ∀ ds tags name argv answers,
      let selection := (Registry.empty.registerAll ds).get tags
      selection.parse s name argv = .ok answers →
      ∃ c, selection.command name = .ok c ∧ ∀ d ∈ selection.options,
        d.directives.action = .store → d.directives.valueType = .abspath →
        (c.Gives argv d.argument ∨ d.directives.default ≠ none →
          ∃ value, ⟨d.dest, value⟩ ∈ answers) ∧
        ∀ value, ⟨d.dest, value⟩ ∈ answers →
          (∃ text, s.absolute? text = some value) ∧ Path.IsResolved value := by
  refine ⟨fun _ => Surroundings.absolute?_eq_none_iff, fun _ _ => plain.absolute?_isResolved, ?_⟩
  intro ds tags name argv answers selection parsed
  obtain ⟨c, m, assembled, read, collected⟩ := parse_eq_ok_iff.mp parsed
  obtain ⟨admissible, rfl⟩ := admissible_of_command assembled
  have collected : answers = selection.options.filterMap (·.answer? m) :=
    collected.symm.trans (answers_eq m (Registry.serialsTell ds tags) admissible.apart)
  refine ⟨_, assembled, fun d selected store abspath => ⟨fun source => ?_, fun value answered => ?_⟩⟩
  · have present : m.get? d.dest ≠ none := by
      rw [ne_eq, admissible.get?_eq_none_iff_of_read read selected]
      rintro ⟨_, _, noDefault, notGiven⟩
      exact source.elim notGiven (· noDefault)
    have answered := (Declaration.dest_mem_answers_iff selected fun values found =>
      admissible.stored_of_read read selected found).mpr present
    rw [← collected] at answered
    obtain ⟨⟨_, value⟩, member, rfl⟩ := List.mem_map.mp answered
    exact ⟨value, member⟩
  · rw [collected] at answered
    obtain ⟨e, other, answer⟩ := List.mem_filterMap.mp answered
    cases admissible.eq_of_dest_eq other selected (Declaration.dest_of_answer? answer).symm
    have shown := admissible.absolute?_of_answer? read selected store abspath answer
    exact ⟨shown, plain.absolute?_isResolved shown.choose_spec⟩

/-- A value that climbs above the root and turns back at a missing name, a default that climbs to the
root, a flag for a default, and a word. -/
theorem path_values_resolved_above_root :
    let source : Declaration :=
      { spellings := ["--source", "-s"], directives := { valueType := .abspath } }
    let target : Declaration :=
      { spellings := ["--target"]
        directives := { valueType := .abspath, default := some (.path "gone//../../../.") } }
    let cache : Declaration :=
      { spellings := ["--cache"]
        directives := { valueType := .abspath, default := some (.flag true) } }
    let format : Declaration :=
      { spellings := ["--format"], directives := { default := some (.text "../json") } }
    let place : Declaration := { spellings := ["place"], directives := { valueType := .abspath } }
    let selection := (Registry.empty.registerAll [source, target, cache, format, place]).get ["ql"]
    let answers : List Answer :=
      [⟨"source", "/gone"⟩, ⟨"target", "/"⟩, ⟨"cache", "/w/true"⟩, ⟨"format", "../json"⟩,
        ⟨"place", "/w/dir/b"⟩]
    selection.parse (FileTree.linked.surroundings ["w"]) "codegen"
        ["-s=link/../../..//gone/./x/..", "--", "./dir//b/"] = .ok answers ∧
      ∀ d ∈ [source, target, cache, place],
        ∃ value, ⟨d.dest, value⟩ ∈ answers ∧ Path.IsResolved value := by
  intro source target cache format place selection answers
  have plain : (FileTree.linked.surroundings ["w"]).Plain :=
    Surroundings.plain_surroundings (by decide)
  have parsed : selection.parse (FileTree.linked.surroundings ["w"]) "codegen"
      ["-s=link/../../..//gone/./x/..", "--", "./dir//b/"] = .ok answers := by
    decide +kernel
  have command : selection.command "codegen" =
      .ok { name := "codegen", arguments := selection.options.map (·.argument) } := by
    decide +kernel
  obtain ⟨-, -, values⟩ := path_values_resolved plain
  obtain ⟨c, assembled, resolved⟩ := values [source, target, cache, format, place] ["ql"] "codegen"
    ["-s=link/../../..//gone/./x/..", "--", "./dir//b/"] answers parsed
  cases assembled.symm.trans command
  have paths : ∀ d ∈ [source, target, cache, place], d ∈ selection.options ∧
      d.directives.action = .store ∧ d.directives.valueType = .abspath := by
    decide +kernel
  have sources : ∀ d ∈ [source, target, cache, place],
      Command.Gives { name := "codegen", arguments := selection.options.map (·.argument) }
        ["-s=link/../../..//gone/./x/..", "--", "./dir//b/"] d.argument ∨
      d.directives.default ≠ none := by
    decide +kernel
  refine ⟨parsed, fun d member => ?_⟩
  obtain ⟨selected, store, abspath⟩ := paths d member
  obtain ⟨present, own⟩ := resolved d selected store abspath
  obtain ⟨value, answered⟩ := present (sources d member)
  exact ⟨value, answered, (own value answered).2⟩

end Selection

end TaggedOptions
