import Mathlib
import TaggedOptions.Proofs.Defaults

/-! # Giving a default

A default means the same as giving it.  A match that is stored before a reading begins is carried
along untouched as long as its option is not given, and only changes where the option's own default
would have been stored: from the end of what is given it moves to the front.
-/

namespace TaggedOptions

/-! ## A match in front -/

namespace Matches

variable {x : Match} {m : Matches}

theorem has_cons_of_ne {id : String} (other : x.id ≠ id) : has (x :: m) id = m.has id := by
  simp [has_cons, other]

theorem has_append_of_ne {id other : String} (different : id ≠ other) (values : List Value) :
    (m.append id values).has other = m.has other := by
  rw [Bool.eq_iff_iff, has_append]
  simp [different]

theorem append_cons_of_ne {id : String} (other : x.id ≠ id) (values : List Value) :
    append (x :: m) id values = x :: m.append id values := by
  rw [append, append, has_cons_of_ne other]
  split
  · rw [List.map_cons, if_neg other]
  · rfl

end Matches

section

variable {s : Surroundings} {c : Command} {x : Match}

/-- Storing for another argument does not touch the match in front. -/
theorem store_cons {a : Argument} (other : x.id ≠ a.id) (found : Matches) (raws : List String) :
    store s (x :: found) a raws = (store s found a raws).map (x :: ·) := by
  simp only [store, Matches.has_cons_of_ne other, Matches.append_cons_of_ne other]
  cases a.reaction with
  | flag =>
    dsimp only
    split <;> rfl
  | one kind =>
    cases raws with
    | nil => rfl
    | cons raw more =>
      dsimp only
      split
      · rfl
      · cases kind.read s a.display raw <;> rfl
  | many kind delimiter =>
    cases raws with
    | nil => rfl
    | cons raw more =>
      dsimp only
      cases kind.readAll s a.display ((raw :: more).flatMap (splitRaw delimiter)) <;> rfl
  | help => rfl
  | version => rfl

namespace Progress

def behind (x : Match) (p : Progress) : Progress := { p with found := x :: p.found }

variable {p : Progress}

theorem settle_behind (unmet : ¬ p.Met x.id) :
    (p.behind x).settle s = (p.settle s).map (behind x) := by
  obtain ⟨found, pending, positionals, separated⟩ := p
  cases pending with
  | none => rfl
  | some occurrence =>
    have other : x.id ≠ occurrence.argument.id :=
      fun same => unmet (.inr ⟨occurrence, rfl, same.symm⟩)
    simp only [settle, behind, store_cons other]
    cases store s found occurrence.argument occurrence.values <;> rfl

theorem occur_behind (unmet : ¬ p.Met x.id) {a : Argument} (other : x.id ≠ a.id)
    (raws : List String) :
    (p.behind x).occur s a raws = (p.occur s a raws).map (behind x) := by
  unfold occur
  rw [settle_behind unmet]
  cases p.settle s with
  | error e => rfl
  | ok q =>
    have found : (q.behind x).found = x :: q.found := rfl
    simp only [Except.map, found, store_cons other]
    cases store s q.found a raws <;> rfl

theorem await_behind (unmet : ¬ p.Met x.id) (a : Argument) :
    (p.behind x).await s a = (p.await s a).map (behind x) := by
  unfold await
  rw [settle_behind unmet]
  cases p.settle s <;> rfl

theorem takeWord_behind (unmet : ¬ p.Met x.id) (word : String) :
    (p.behind x).takeWord s word = (p.takeWord s word).map (behind x) := by
  have settled := settle_behind (s := s) unmet
  obtain ⟨found, pending, positionals, separated⟩ := p
  cases positionals with
  | nil => rfl
  | cons a rest =>
    simp only [behind] at settled
    change (if (a.trailing && !separated) = true then _ else _) =
      Except.map _ (if (a.trailing && !separated) = true then _ else _)
    by_cases early : (a.trailing && !separated) = true
    · rw [if_pos early, if_pos early]
      rfl
    · rw [if_neg early, if_neg early]
      simp only [behind, settled]
      cases a.reaction.isMany with
      | true =>
        cases pending with
        | none => rfl
        | some occurrence =>
          dsimp only
          by_cases own : occurrence.argument = a
          · simp only [if_pos own]
            rfl
          · simp only [if_neg own]
            cases settle s { found, pending := some occurrence, positionals := a :: rest, separated }
              <;> rfl
      | false =>
        dsimp only
        cases settle s { found, pending, positionals := a :: rest, separated } <;> rfl

theorem readWord_behind (unmet : ¬ p.Met x.id) (word : String) :
    (p.behind x).readWord s word = (p.readWord s word).map (behind x) := by
  have taken := takeWord_behind (s := s) unmet word
  obtain ⟨found, pending, positionals, separated⟩ := p
  cases pending with
  | none => exact taken
  | some occurrence =>
    simp only [readWord, behind] at taken ⊢
    split
    · rfl
    · exact taken

end Progress

namespace Event

variable {p q : Progress}

/-- An event that does not name the argument of the match leaves the match in front. -/
theorem apply_behind (unmet : ¬ p.Met x.id) {event : Event}
    (others : ∀ a ∈ event.argument?, x.id ≠ a.id) :
    event.apply s (p.behind x) = (event.apply s p).map (.behind x) := by
  cases event with
  | occur a raws => exact Progress.occur_behind unmet (others a rfl) raws
  | await a => exact Progress.await_behind unmet a
  | word text => exact Progress.readWord_behind unmet text
  | separator => rfl
  | trailing text => exact Progress.takeWord_behind unmet text
  | refusal e => rfl

/-- A run of events that does not meet the argument of the match leaves the match in front. -/
theorem applyAll_behind (single : ∀ a ∈ p.positionals, a.reaction.isMany = false)
    {events : List Event} (h : applyAll s p events = .ok q) (unmet : ¬ q.Met x.id) :
    applyAll s (p.behind x) events = .ok (q.behind x) := by
  induction events generalizing p with
  | nil =>
    cases h
    rfl
  | cons event rest ih =>
    obtain ⟨r, applied, later⟩ := applyAll_cons_ok h
    obtain ⟨placed, split, _, _, met⟩ := apply_met single applied
    have singleLater : ∀ a ∈ r.positionals, a.reaction.isMany = false :=
      fun a member => single a (split ▸ List.mem_append_right placed member)
    have unmetNow : ¬ r.Met x.id := by
      obtain ⟨_, _, _, metLater⟩ := applyAll_met singleLater later
      exact fun now => unmet ((metLater x.id).mpr (.inl now))
    have unmetBefore : ¬ p.Met x.id := fun before => unmetNow ((met x.id).mpr (.inl before))
    have others : ∀ a ∈ event.argument?, x.id ≠ a.id := fun a names same =>
      unmetNow ((met x.id).mpr (.inr ⟨a, by simp [Option.mem_def.mp names], same.symm⟩))
    rw [applyAll, apply_behind unmetBefore others, applied]
    exact ih singleLater later

end Event

/-! ## What is given -/

namespace Command

variable {argv : List String} {m : Matches}

theorem given_ok (h : c.given s argv = .ok m) :
    ∃ p q, Event.applyAll s { positionals := c.positionals } (c.events argv) = .ok p ∧
      p.settle s = .ok q ∧ q.found = m := by
  unfold given at h
  cases applied : Event.applyAll s { positionals := c.positionals } (c.events argv) with
  | error e => simp [applied] at h
  | ok p =>
    simp only [applied] at h
    cases settled : p.settle s with
    | error e => simp [settled, Except.map] at h
    | ok q =>
      rw [settled] at h
      exact ⟨p, q, rfl, settled, Except.ok.inj h⟩

theorem has_given (single : c.SingleValued) (h : c.given s argv = .ok m) (id : String) :
    m.has id = true ↔ ∃ a, c.Gives argv a ∧ a.id = id := by
  obtain ⟨p, q, applied, settled, rfl⟩ := given_ok h
  rw [(Progress.settle_met settled).2.2, met_iff_gives single applied]

/-- What is given first is found in front, if the rest does not give it again. -/
theorem given_cons (single : c.SingleValued) (h : c.given s argv = .ok m) {arg : String}
    {a : Argument} {raws : List String} {values : List Value}
    (means : c.events (arg :: argv) = .occur a raws :: c.events argv)
    (stored : store s [] a raws = .ok [⟨a.id, values⟩]) (fresh : m.has a.id = false) :
    c.given s (arg :: argv) = .ok (⟨a.id, values⟩ :: m) := by
  obtain ⟨p, q, applied, settled, rfl⟩ := given_ok h
  have unmet : ¬ p.Met a.id := by
    rw [← (Progress.settle_met settled).2.2, fresh]
    exact Bool.false_ne_true
  have first : (Event.occur a raws).apply s { positionals := c.positionals } =
      .ok (Progress.behind ⟨a.id, values⟩ { positionals := c.positionals }) := by
    rw [Event.apply, Progress.occur, Progress.settle]
    dsimp only
    rw [stored]
    rfl
  have rest := Event.applyAll_behind (x := ⟨a.id, values⟩)
    (fun b member => single b (positionals_subset member)) applied unmet
  have last := Progress.settle_behind (s := s) (x := ⟨a.id, values⟩) unmet
  rw [given, means, Event.applyAll, first]
  dsimp only
  rw [rest]
  dsimp only
  rw [last, settled]
  rfl

/-- A vector is read if it gives what is required and the defaults of the rest can be stored. -/
theorem read_eq_ok_iff {filled : Matches} :
    c.read s argv = .ok filled ↔ ∃ given, c.given s argv = .ok given ∧
      fillDefaults s c.arguments given = .ok filled ∧
      ∀ a ∈ c.arguments, a.required = true → given.has a.id = true := by
  rw [read_eq_given]
  cases c.given s argv with
  | error e => simp
  | ok given =>
    simp only [Except.ok.injEq, exists_eq_left']
    cases fillDefaults s c.arguments given with
    | error e => simp
    | ok m =>
      rw [← missing_eq_nil_iff]
      cases c.missing given <;> simp

end Command

/-! ## Matches that agree -/

namespace Matches

def Agree (m m' : Matches) : Prop := ∀ id, m.get? id = m'.get? id

variable {m m' : Matches}

theorem get?_cons (x : Match) (m : Matches) (id : String) :
    get? (x :: m) id = if x.id = id then some x.values else m.get? id := by
  by_cases same : x.id = id <;> simp [get?, same]

theorem get?_append (m : Matches) (id other : String) (values : List Value) :
    (m.append id values).get? other =
      if id = other then some ((m.get? id).getD [] ++ values) else m.get? other := by
  unfold append
  split
  next known =>
    have ids : ((fun y : Match => decide (y.id = other)) ∘ fun y =>
        if y.id = id then { y with values := y.values ++ values } else y) =
        fun y => decide (y.id = other) := by
      funext y
      by_cases here : y.id = id <;> simp [here]
    rw [get?, List.find?_map, ids]
    cases found : m.find? (·.id = other) with
    | none =>
      have absent : m.has other = false := get?_eq_none_iff.mp (by simp [get?, found])
      have different : id ≠ other := by
        rintro rfl
        simp [absent] at known
      simp [get?, found, different]
    | some y =>
      have own : y.id = other := by simpa using List.find?_some found
      by_cases same : id = other
      · simp [get?, found, own, same]
      · simp [get?, found, own, same, Ne.symm same]
  next unknown =>
    have absent : m.get? id = none := get?_eq_none_iff.mpr (by simpa using unknown)
    by_cases same : id = other
    · subst same
      have nothing : m.find? (·.id = id) = none := Option.map_eq_none_iff.mp absent
      simp [get?, nothing]
    · simp [get?, List.find?_append, same]

theorem has_eq_of_get?_eq {id : String} (same : m.get? id = m'.get? id) : m.has id = m'.has id := by
  rw [Bool.eq_iff_iff, ← not_iff_not, Bool.not_eq_true, Bool.not_eq_true, ← get?_eq_none_iff,
    ← get?_eq_none_iff, same]

theorem Agree.has (agree : m.Agree m') (id : String) : m.has id = m'.has id :=
  has_eq_of_get?_eq (agree id)

theorem Agree.append (agree : m.Agree m') (id : String) (values : List Value) :
    (m.append id values).Agree (m'.append id values) := by
  intro other
  rw [get?_append, get?_append, agree id, agree other]

theorem append_agree_cons {x : Match} (fresh : m.has x.id = false) :
    (m.append x.id x.values).Agree (x :: m) := by
  intro other
  rw [get?_append, get?_cons, get?_eq_none_iff.mpr fresh]
  rfl

/-- Matches that agree are filled up alike. -/
theorem Agree.fillDefaults {args : List Argument} {filled : Matches} (agree : m.Agree m')
    (h : fillDefaults s args m = .ok filled) :
    ∃ filled', TaggedOptions.fillDefaults s args m' = .ok filled' ∧ filled.Agree filled' := by
  induction args generalizing m m' with
  | nil =>
    cases h
    exact ⟨m', rfl, agree⟩
  | cons a rest ih =>
    simp only [fillDefaults_cons_eq_ok_iff, agree.has a.id] at h ⊢
    obtain ⟨next, later, ⟨known, rfl⟩ | ⟨fresh, nothing, rfl⟩ | ⟨fresh, v, more, values, rfl⟩⟩ := h
    · obtain ⟨filled', ends, same⟩ := ih agree later
      exact ⟨filled', ⟨_, ends, .inl ⟨known, rfl⟩⟩, same⟩
    · obtain ⟨filled', ends, same⟩ := ih agree later
      exact ⟨filled', ⟨_, ends, .inr (.inl ⟨fresh, nothing, rfl⟩)⟩, same⟩
    · obtain ⟨filled', ends, same⟩ := ih (agree.append a.id (v :: more)) later
      exact ⟨filled', ⟨_, ends, .inr (.inr ⟨fresh, v, more, values, rfl⟩)⟩, same⟩

end Matches

/-! ## Defaults in front -/

/-- What is stored at the end, as the default of an argument without a value, may just as well stand
in front. -/
theorem fillDefaults_cons {args : List Argument} {m filled : Matches}
    (h : fillDefaults s args m = .ok filled) {a : Argument} (member : a ∈ args)
    (alone : ∀ b ∈ args, b.id = a.id → b = a) (fresh : m.has a.id = false) :
    ∃ values, defaultValues s a = .ok values ∧ (values ≠ [] →
      ∃ filled', fillDefaults s args (⟨a.id, values⟩ :: m) = .ok filled' ∧
        filled.Agree filled') := by
  induction args generalizing m with
  | nil => cases member
  | cons b rest ih =>
    rw [List.forall_mem_cons] at alone
    obtain ⟨next, later, step⟩ := fillDefaults_cons_eq_ok_iff.mp h
    by_cases own : b.id = a.id
    · rw [alone.1 own] at step ⊢
      rcases step with ⟨known, _⟩ | ⟨_, nothing, _⟩ | ⟨_, v, more, default, rfl⟩
      · simp [fresh] at known
      · exact ⟨[], nothing, fun some => absurd rfl some⟩
      · have agree := Matches.append_agree_cons (x := ⟨a.id, v :: more⟩) fresh
        obtain ⟨filled', ends, same⟩ := agree.fillDefaults later
        have known : Matches.has (⟨a.id, v :: more⟩ :: m) a.id = true := by
          simp [Matches.has_cons]
        exact ⟨v :: more, default, fun _ =>
          ⟨filled', fillDefaults_cons_eq_ok_iff.mpr ⟨_, ends, .inl ⟨known, rfl⟩⟩, same⟩⟩
    · have behind : a ∈ rest := (List.mem_cons.mp member).resolve_left fun same => own (same ▸ rfl)
      have freshNext : next.has a.id = false := by
        rcases step with ⟨_, rfl⟩ | ⟨_, _, rfl⟩ | ⟨_, v, more, _, rfl⟩
        · exact fresh
        · exact fresh
        · rw [Matches.has_append_of_ne own, fresh]
      obtain ⟨values, default, front⟩ := ih later behind alone.2 freshNext
      refine ⟨values, default, fun some => ?_⟩
      obtain ⟨filled', ends, same⟩ := front some
      have other : (⟨a.id, values⟩ : Match).id ≠ b.id := fun same => own same.symm
      refine ⟨filled', fillDefaults_cons_eq_ok_iff.mpr ⟨_, ends, ?_⟩, same⟩
      simpa only [Matches.has_cons_of_ne other, Matches.append_cons_of_ne other, List.cons.injEq,
        true_and] using step

end

/-! ## Giving a default -/

/-- An option with its value attached to a long name is one complete occurrence. -/
theorem Command.WellFormed.events_assign {c : Command} (h : c.WellFormed) {d : Declaration}
    (wellSpelled : d.WellSpelled) (member : d.argument ∈ c.arguments)
    (takes : d.directives.action = .store) {long : String} (named : long ∈ d.longNames)
    (value : String) (argv : List String) :
    c.events (("--" ++ long ++ "=" ++ value) :: argv) =
      .occur d.argument [value] :: c.events argv := by
  have token := Token.ofString_assign (wellSpelled.longName_plain named).2 value
  have known : c.byLong? long = some d.argument := h.byLong?_eq member (by simpa using named)
  have takesValue : d.argument.reaction.takesValue = true := by
    obtain ⟨kind, reaction⟩ := Directives.exists_reaction_of_store takes
    exact congrArg Reaction.takesValue reaction
  have noSeparator : "--" ++ long ++ "=" ++ value ≠ "--" := by
    intro same
    rw [same] at token
    cases token
  rw [events, if_neg noSeparator, elementEvents, token]
  simp only [longEvent, known, takesValue, List.singleton_append]

namespace Selection

theorem answers_of_agree (selection : Selection) {m m' : Matches} (agree : m.Agree m') :
    selection.answers m = selection.answers m' := by
  have first (id : String) : m.first? id = m'.first? id := by
    rw [Matches.first?, Matches.first?, agree id]
  have same : addAnswer m = addAnswer m' := by
    funext answers e
    simp only [addAnswer, Entry.answer?, first]
  rw [answers, answers, same]

/-- Wherever an option with a default is not given, giving it this default changes no answer. -/
theorem parse_given_default (r : Registry) (tags : List String) (name : String) (s : Surroundings)
    {argv : List String} {answers : List Answer}
    (parsed : (r.get tags).parse s name argv = .ok answers) {c : Command}
    (assembled : (r.get tags).command name = .ok c) {d : Declaration}
    (selected : d ∈ (r.get tags).options) (takes : d.directives.action = .store)
    {v : DefaultValue} (default : d.directives.default = some v) {long : String}
    (named : long ∈ d.longNames) (notGiven : ¬ c.Gives argv d.argument) :
    (r.get tags).parse s name (("--" ++ long ++ "=" ++ v.toText) :: argv) = .ok answers := by
  obtain ⟨_, m, assembled', read, collected⟩ := parse_eq_ok_iff.mp parsed
  cases assembled.symm.trans assembled'
  obtain ⟨admissible, rfl⟩ := admissible_of_command assembled
  obtain ⟨given, gives, filled, complete⟩ := Command.read_eq_ok_iff.mp read
  have single := admissible.singleValued name
  have own : d.argument ∈ (r.get tags).options.map (·.argument) := List.mem_map_of_mem selected
  have alone : ∀ b ∈ (r.get tags).options.map (·.argument), b.id = d.dest → b = d.argument := by
    intro b member same
    obtain ⟨e, other, rfl⟩ := List.mem_map.mp member
    rw [admissible.eq_of_dest_eq other selected same]
  have fresh : given.has d.dest = false := by
    rw [← Bool.not_eq_true, Command.has_given single gives]
    rintro ⟨a, given, same⟩
    exact notGiven (admissible.eq_argument_of_id selected given.mem_allArguments same ▸ given)
  obtain ⟨values, defaulted, inFront⟩ := fillDefaults_cons filled own alone fresh
  have accepted := Declaration.acceptsDefault_of_defaultValues defaulted
  have standIn : d.directives.standIn = some v.toText := by simp [Directives.standIn, default]
  rw [Declaration.defaultValues_argument accepted, standIn] at defaulted
  cases defaulted
  obtain ⟨filled', ends, agree⟩ := inFront (List.cons_ne_nil _ _)
  have storedFirst : store s [] d.argument [v.toText] =
      .ok [⟨d.dest, [d.directives.value s v.toText]⟩] :=
    Declaration.store_value takes (accepted v default) rfl
  have means := (admissible.wellFormed name).events_assign
    (admissible.valid d selected).toWellSpelled own takes named v.toText argv
  have givesFirst := Command.given_cons single gives means storedFirst fresh
  have complete' : ∀ a ∈ (r.get tags).options.map (·.argument), a.required = true →
      Matches.has (⟨d.dest, [d.directives.value s v.toText]⟩ :: given) a.id = true := by
    intro a member required
    simp [Matches.has_cons, complete a member required]
  refine parse_eq_ok_iff.mpr ⟨_, filled', assembled, ?_, ?_⟩
  · exact Command.read_eq_ok_iff.mpr ⟨_, givesFirst, ends, complete'⟩
  · rw [← answers_of_agree _ agree, collected]

/-- In front of a cluster whose last option waits for the next word, and of a word behind the
separator that looks like the option with another value. -/
theorem parse_given_default_second_name :
    let verbose : Declaration :=
      { spellings := ["--verbose", "-v"], directives := { action := .storeTrue } }
    let output : Declaration :=
      { spellings := ["--out", "-o", "--output"]
        directives := { valueType := .abspath, default := some (.path "gone/../x=1") } }
    let format : Declaration :=
      { spellings := ["--format", "-f"], directives := { default := some (.flag false) } }
    let source : Declaration := { spellings := ["source"], directives := { required := true } }
    let selection := (Registry.empty.registerAll [verbose, output, format, source]).get ["ql"]
    let answers : List Answer :=
      [⟨"verbose", "true"⟩, ⟨"out", "/w/x=1"⟩, ⟨"format", "yaml"⟩, ⟨"source", "--output=here"⟩]
    selection.parse (FileTree.bare.surroundings ["w"]) "codegen"
        ["-vf", "yaml", "--", "--output=here"] = .ok answers ∧
      selection.parse (FileTree.bare.surroundings ["w"]) "codegen"
        ["--output=gone/../x=1", "-vf", "yaml", "--", "--output=here"] = .ok answers := by
  intro verbose output format source selection answers
  have parsed : selection.parse (FileTree.bare.surroundings ["w"]) "codegen"
      ["-vf", "yaml", "--", "--output=here"] = .ok answers := by
    decide +kernel
  have assembled : selection.command "codegen" =
      .ok { name := "codegen", arguments := selection.options.map (·.argument) } := by
    decide +kernel
  have selected : output ∈ selection.options := by decide +kernel
  have named : "output" ∈ output.longNames := by decide +kernel
  have notGiven : ¬ Command.Gives
      { name := "codegen", arguments := selection.options.map (·.argument) }
      ["-vf", "yaml", "--", "--output=here"] output.argument := by
    decide +kernel
  have written : "--" ++ "output" ++ "=" ++ (DefaultValue.path "gone/../x=1").toText =
      "--output=gone/../x=1" := by
    decide +kernel
  have given := parse_given_default
    (Registry.empty.registerAll [verbose, output, format, source]) ["ql"] "codegen"
    (FileTree.bare.surroundings ["w"]) parsed assembled selected rfl rfl named notGiven
  rw [written] at given
  exact ⟨parsed, given⟩

end Selection

end TaggedOptions
