import Mathlib
import TaggedOptions.Proofs.ReadBack

/-! # Defaults that stand for the same

Defaults come into a reading last, after all elements of the argument vector, and then as values.
`bare` takes them off: what is given on the way is the same with and without them.  So two commands
read alike if their arguments differ in the texts of their defaults only and these texts stand for
the same values, and two selections of such options parse alike, up to the defaults that help shows.
-/

namespace TaggedOptions

/-! ## Taking defaults off -/

namespace Argument

def bare (a : Argument) : Argument := { a with default := none }

variable (a : Argument)

@[simp] theorem bare_id : a.bare.id = a.id := rfl
@[simp] theorem bare_reaction : a.bare.reaction = a.reaction := rfl
@[simp] theorem bare_required : a.bare.required = a.required := rfl
@[simp] theorem bare_trailing : a.bare.trailing = a.trailing := rfl
@[simp] theorem bare_isPositional : a.bare.isPositional = a.isPositional := rfl
@[simp] theorem bare_display : a.bare.display = a.display := rfl

end Argument

@[simp] theorem store_bare (s : Surroundings) (found : Matches) (a : Argument)
    (raws : List String) : store s found a.bare raws = store s found a raws := rfl

namespace Command

def bare (c : Command) : Command := { c with arguments := c.arguments.map Argument.bare }

variable (c : Command)

theorem allArguments_bare : c.bare.allArguments = c.allArguments.map Argument.bare := by
  unfold allArguments bare
  cases c.version <;> simp [helpFlag, versionFlag, Argument.bare]

theorem positionals_bare : c.bare.positionals = c.positionals.map Argument.bare := List.filter_map

theorem byLong?_bare (name : String) : c.bare.byLong? name = (c.byLong? name).map .bare := by
  rw [byLong?, allArguments_bare, List.find?_map]
  rfl

theorem byShort?_bare (letter : Char) : c.bare.byShort? letter = (c.byShort? letter).map .bare := by
  rw [byShort?, allArguments_bare, List.find?_map]
  rfl

theorem singleValued_bare : c.bare.SingleValued ↔ c.SingleValued := by
  simp [SingleValued, allArguments_bare]

theorem missing_bare (given : Matches) :
    (c.bare.missing given).map (·.display) = (c.missing given).map (·.display) := by
  simp [missing, bare, List.filter_map, Function.comp_def]

end Command

/-! ## Events -/

namespace Event

def bare : Event → Event
  | .occur a raws => .occur a.bare raws
  | .await a => .await a.bare
  | .word text => .word text
  | .separator => .separator
  | .trailing text => .trailing text
  | .refusal e => .refusal e

end Event

namespace Command

variable (c : Command)

theorem longEvent_bare (name : String) (value : Option String) :
    c.bare.longEvent name value = (c.longEvent name value).bare := by
  unfold longEvent
  rw [byLong?_bare]
  cases c.byLong? name with
  | none => rfl
  | some a =>
    simp only [Option.map_some, Argument.bare_reaction, Argument.bare_display]
    cases a.reaction.takesValue <;> cases value <;> rfl

theorem clusterEvents_bare (letters : List Char) :
    c.bare.clusterEvents letters = (c.clusterEvents letters).map Event.bare := by
  induction letters with
  | nil => rfl
  | cons letter rest ih =>
    rw [clusterEvents, clusterEvents, byShort?_bare, ih]
    cases c.byShort? letter with
    | none => rfl
    | some a =>
      simp only [Option.map_some, Argument.bare_reaction]
      by_cases takes : a.reaction.takesValue = true
      · cases Progress.attached rest <;> simp [takes, Event.bare]
      · simp [takes, Event.bare]

theorem elementEvents_bare (arg : String) :
    c.bare.elementEvents arg = (c.elementEvents arg).map Event.bare := by
  unfold elementEvents
  cases Token.ofString arg with
  | separator => rfl
  | long name value => exact congrArg ([·]) (c.longEvent_bare name value)
  | cluster first rest => exact c.clusterEvents_bare (first :: rest)
  | word => rfl

theorem events_bare (argv : List String) :
    c.bare.events argv = (c.events argv).map Event.bare := by
  induction argv with
  | nil => rfl
  | cons arg rest ih =>
    rw [events, events]
    split
    · simp [Event.bare]
    · rw [elementEvents_bare, ih, List.map_append]

end Command

/-! ## Progress -/

def Pending.bare (occurrence : Pending) : Pending :=
  { occurrence with argument := occurrence.argument.bare }

namespace Progress

def bare (p : Progress) : Progress :=
  { p with pending := p.pending.map .bare, positionals := p.positionals.map .bare }

variable (s : Surroundings) (p : Progress)

theorem settle_bare : p.bare.settle s = (p.settle s).map bare := by
  obtain ⟨found, pending, positionals, separated⟩ := p
  cases pending with
  | none => rfl
  | some occurrence =>
    simp only [settle, bare, Option.map_some, Pending.bare, store_bare]
    cases store s found occurrence.argument occurrence.values <;> rfl

theorem occur_bare (a : Argument) (raws : List String) :
    p.bare.occur s a.bare raws = (p.occur s a raws).map bare := by
  unfold occur
  rw [settle_bare]
  cases p.settle s with
  | error e => rfl
  | ok q =>
    have found : q.bare.found = q.found := rfl
    simp only [Except.map, store_bare, found]
    cases store s q.found a raws <;> rfl

theorem await_bare (a : Argument) : p.bare.await s a.bare = (p.await s a).map bare := by
  unfold await
  rw [settle_bare]
  cases p.settle s <;> rfl

variable {p}

theorem takeWord_bare (single : ∀ a ∈ p.positionals, a.reaction.isMany = false) (word : String) :
    p.bare.takeWord s word = (p.takeWord s word).map bare := by
  have settled := p.settle_bare s
  obtain ⟨found, pending, positionals, separated⟩ := p
  cases positionals with
  | nil => rfl
  | cons a rest =>
    -- only an argument that takes many words is compared with what is pending, default and all
    have one : a.reaction.isMany = false := single a List.mem_cons_self
    simp only [takeWord, bare, List.map_cons, Argument.bare_trailing, Argument.bare_reaction, one]
    simp only [bare, List.map_cons] at settled
    split
    · rfl
    · rw [settled]
      cases settle s { found, pending, positionals := a :: rest, separated } <;> rfl

theorem readWord_bare (single : ∀ a ∈ p.positionals, a.reaction.isMany = false) (word : String) :
    p.bare.readWord s word = (p.readWord s word).map bare := by
  have taken := takeWord_bare s single word
  obtain ⟨found, pending, positionals, separated⟩ := p
  cases pending with
  | none => exact taken
  | some occurrence =>
    simp only [readWord, bare, Option.map_some, Pending.bare] at taken ⊢
    split
    · rfl
    · exact taken

end Progress

theorem Event.apply_bare (s : Surroundings) {p : Progress}
    (single : ∀ a ∈ p.positionals, a.reaction.isMany = false) (event : Event) :
    event.bare.apply s p.bare = (event.apply s p).map Progress.bare := by
  cases event with
  | occur a raws => exact p.occur_bare s a raws
  | await a => exact p.await_bare s a
  | word text => exact Progress.readWord_bare s single text
  | separator => rfl
  | trailing text => exact Progress.takeWord_bare s single text
  | refusal e => rfl

theorem Event.applyAll_bare (s : Surroundings) {p : Progress}
    (single : ∀ a ∈ p.positionals, a.reaction.isMany = false) (events : List Event) :
    applyAll s p.bare (events.map bare) = (applyAll s p events).map Progress.bare := by
  induction events generalizing p with
  | nil => rfl
  | cons event rest ih =>
    rw [List.map_cons, applyAll, applyAll, event.apply_bare s single]
    cases applied : event.apply s p with
    | error e => rfl
    | ok q =>
      obtain ⟨placed, split, -⟩ := apply_met single applied
      exact ih fun a member => single a (split ▸ List.mem_append_right placed member)

/-! ## Commands that differ in defaults only -/

/-- The arguments differ in the texts of their defaults at most, and these stand for the same. -/
structure Argument.Alike (s : Surroundings) (a b : Argument) : Prop where
  bare : a.bare = b.bare
  defaultValues : defaultValues s a = TaggedOptions.defaultValues s b

structure Command.Alike (s : Surroundings) (c d : Command) : Prop where
  frame : { c with arguments := [] } = { d with arguments := [] }
  arguments : List.Forall₂ (Argument.Alike s) c.arguments d.arguments

theorem map_bare_of_alike {s : Surroundings} {as bs : List Argument}
    (alike : List.Forall₂ (Argument.Alike s) as bs) : as.map Argument.bare = bs.map .bare := by
  induction alike with
  | nil => rfl
  | cons first _ ih => rw [List.map_cons, List.map_cons, first.bare, ih]

theorem fillDefaults_of_alike {s : Surroundings} {as bs : List Argument}
    (alike : List.Forall₂ (Argument.Alike s) as bs) (m : Matches) :
    fillDefaults s as m = fillDefaults s bs m := by
  induction alike generalizing m with
  | nil => rfl
  | cons first _ ih =>
    have id := congrArg Argument.id first.bare
    simp only [Argument.bare_id] at id
    simp only [fillDefaults, id, first.defaultValues, ih]

namespace Command

variable {s : Surroundings} {c d : Command}

/-- What is given on the way, before defaults come in. -/
def given (c : Command) (s : Surroundings) (argv : List String) : Except Interruption Matches :=
  match Event.applyAll s { positionals := c.positionals } (c.events argv) with
  | .error e => .error e
  | .ok p => (p.settle s).map (·.found)

theorem read_eq_given (c : Command) (s : Surroundings) (argv : List String) :
    c.read s argv =
      match c.given s argv with
      | .error e => .error e
      | .ok given =>
        match fillDefaults s c.arguments given with
        | .error e => .error (.refused e)
        | .ok m =>
          match (c.missing given).map (·.display) with
          | [] => .ok m
          | absent => .error (.refused (.missingRequired absent)) := by
  unfold read given
  rw [Progress.run_eq_applyAll rfl]
  cases Event.applyAll s { positionals := c.positionals } (c.events argv) with
  | error e => rfl
  | ok p =>
    cases settled : p.settle s with
    | error e => simp [settled, Except.map]
    | ok q =>
      simp only [settled, Except.map]
      cases fillDefaults s c.arguments q.found with
      | error e => rfl
      | ok m => cases c.missing q.found <;> rfl

theorem given_bare (single : c.SingleValued) (argv : List String) :
    c.bare.given s argv = c.given s argv := by
  have start : ({ positionals := c.bare.positionals } : Progress) =
      Progress.bare { positionals := c.positionals } := by
    rw [positionals_bare]
    rfl
  have words : ∀ a ∈ ({ positionals := c.positionals } : Progress).positionals,
      a.reaction.isMany = false := fun a member => single a (positionals_subset member)
  rw [given, events_bare, start, Event.applyAll_bare s words, given]
  cases Event.applyAll s { positionals := c.positionals } (c.events argv) with
  | error e => rfl
  | ok p =>
    simp only [Except.map, Progress.settle_bare]
    cases p.settle s <;> rfl

theorem Alike.bare_eq (alike : c.Alike s d) : c.bare = d.bare := by
  obtain ⟨frame, arguments⟩ := alike
  obtain ⟨name, args, about, version⟩ := c
  obtain ⟨name', args', about', version'⟩ := d
  cases frame
  simp only [bare, map_bare_of_alike arguments]

/-- Commands that differ in the texts of defaults only read every argument vector alike. -/
theorem Alike.read_eq (alike : c.Alike s d) (single : c.SingleValued) (argv : List String) :
    c.read s argv = d.read s argv := by
  have bare := alike.bare_eq
  have single' : d.SingleValued := by rwa [← singleValued_bare, ← bare, singleValued_bare]
  have given : c.given s argv = d.given s argv := by
    rw [← given_bare single, bare, given_bare single']
  have missing (found : Matches) :
      (c.missing found).map (·.display) = (d.missing found).map (·.display) := by
    rw [← missing_bare, bare, missing_bare]
  rw [read_eq_given, read_eq_given, given]
  simp only [fillDefaults_of_alike alike.arguments, missing]

end Command

/-! ## Options that differ in defaults only -/

namespace Declaration

def bare (d : Declaration) : Declaration :=
  { d with directives := { d.directives with default := none } }

/-- The declarations differ in their defaults at most.  Both have one or neither has, and what they
have stands for the same. -/
structure Alike (s : Surroundings) (d e : Declaration) : Prop where
  bare : d.bare = e.bare
  isSome : d.directives.default.isSome = e.directives.default.isSome
  defaultValues : defaultValues s d.argument = TaggedOptions.defaultValues s e.argument

theorem eq_of_bare_eq {d e : Declaration} (same : d.bare = e.bare) :
    e = { d with directives := { d.directives with default := e.directives.default } } := by
  obtain ⟨spellings, ⟨action, valueType, default, required, dest, help⟩, tags⟩ := d
  obtain ⟨spellings', ⟨action', valueType', default', required', dest', help'⟩, tags'⟩ := e
  cases same
  rfl

theorem shelves_of_bare_eq {d e : Declaration} (same : d.bare = e.bare) : d.shelves = e.shelves :=
  (congrArg Declaration.shelves same :)

end Declaration

theorem Entry.dest_of_bare_eq {a b : Entry} (same : a.declaration.bare = b.declaration.bare) :
    a.dest = b.dest :=
  (congrArg Declaration.dest same :)

theorem Entry.answer?_of_bare_eq (m : Matches) {a b : Entry}
    (same : a.declaration.bare = b.declaration.bare) : a.answer? m = b.answer? m := by
  have readBack : a.declaration.directives.readBack? = b.declaration.directives.readBack? :=
    (congrArg (·.directives.readBack?) same :)
  rw [answer?, answer?, dest_of_bare_eq same, readBack]

theorem buildArgument_of_bare_eq (r : Reserved) {d e : Declaration} (same : d.bare = e.bare)
    (isSome : d.directives.default.isSome = e.directives.default.isSome) :
    buildArgument r e.spellings e.directives =
      (buildArgument r d.spellings d.directives).map fun built =>
        ({ built.1 with default := e.directives.default.map DefaultValue.toText }, built.2) := by
  rw [Declaration.eq_of_bare_eq same]
  generalize e.directives.default = default at isSome
  have reads : readDeclaration d.spellings { d.directives with default } =
      readDeclaration d.spellings d.directives := rfl
  have dest : destination d.spellings { d.directives with default } =
      destination d.spellings d.directives := rfl
  have fault (read : List Spelling) : r.directiveFault? read { d.directives with default } =
      r.directiveFault? read d.directives := by
    simp only [Reserved.directiveFault?, isSome]
  simp only [buildArgument, reads, dest, fault]
  cases readDeclaration d.spellings d.directives with
  | error e => rfl
  | ok read =>
    cases faulty : r.directiveFault? read d.directives with
    | some fault => simp only [faulty, Except.map]
    | none =>
      cases clashes : r.clash? (destination d.spellings d.directives) read with
      | some e => simp only [faulty, clashes, Except.map]
      | none =>
        simp only [faulty, clashes, Except.map, argumentOf]
        rfl

structure Assembly.Alike (s : Surroundings) (a b : Assembly) : Prop where
  command : a.command.Alike s b.command
  reserved : a.reserved = b.reserved
  rejections : a.rejections = b.rejections

namespace Assembly

variable {s : Surroundings} {a b : Assembly}

theorem Alike.add (alike : a.Alike s b) {d e : Declaration} (same : d.Alike s e) :
    (a.add d.spellings d.directives).Alike s (b.add e.spellings e.directives) := by
  have spellings : d.spellings = e.spellings := (congrArg Declaration.spellings same.bare :)
  unfold Assembly.add
  rw [← alike.reserved, buildArgument_of_bare_eq a.reserved same.bare same.isSome]
  cases built : buildArgument a.reserved d.spellings d.directives with
  | error fault =>
    exact ⟨alike.command, rfl, by simp [Except.map, alike.rejections, spellings]⟩
  | ok built =>
    obtain ⟨_, _, rfl⟩ := buildArgument_eq_ok_iff.mp built
    have argument : e.argument =
        { d.argument with default := e.directives.default.map DefaultValue.toText } := by
      rw [Declaration.eq_of_bare_eq same.bare]
      rfl
    have arguments : d.argument.Alike s e.argument := ⟨by rw [argument]; rfl, same.defaultValues⟩
    simp only [Except.map, ← argument]
    exact ⟨⟨alike.command.frame, List.rel_append alike.command.arguments (.cons arguments .nil)⟩,
      rfl, alike.rejections⟩

theorem Alike.addAll (alike : a.Alike s b) {ds es : List Declaration}
    (same : List.Forall₂ (Declaration.Alike s) ds es) : (a.addAll ds).Alike s (b.addAll es) := by
  induction same generalizing a b with
  | nil => exact alike
  | cons first _ ih => exact ih (alike.add first)

theorem Alike.finish (alike : a.Alike s b) :
    (∃ e, a.finish = .error e ∧ b.finish = .error e) ∨
      ∃ c d, a.finish = .ok c ∧ b.finish = .ok d ∧ c.Alike s d := by
  unfold Assembly.finish errors
  rw [← alike.rejections]
  cases a.rejections with
  | nil => exact .inr ⟨_, _, rfl, rfl, alike.command⟩
  | cons first rest => exact .inl ⟨_, rfl, rfl⟩

end Assembly

/-! ## Selections that differ in defaults only -/

def Entry.Alongside (R : Declaration → Declaration → Prop) (a b : Entry) : Prop :=
  a.serial = b.serial ∧ R a.declaration b.declaration

theorem distinctEntries_alongside {R : Declaration → Declaration → Prop} {as bs : List Entry}
    (alongside : List.Forall₂ (Entry.Alongside R) as bs) :
    List.Forall₂ (Entry.Alongside R) (distinctEntries as) (distinctEntries bs) := by
  refine List.rel_foldl ?_ .nil alongside
  intro kept kept' keeps a b same
  have known : kept.any a.same = kept'.any b.same := by
    induction keeps with
    | nil => rfl
    | cons first _ ih => simp only [List.any_cons, ih, Entry.same, same.1, first.1]
  simp only [known]
  split
  · exact keeps
  · exact List.rel_append keeps (.cons same .nil)

namespace Selection

variable {s : Surroundings} {first second : Selection} {name : String}

theorem singleValued_of_command {c : Command} (assembled : first.command name = .ok c) :
    c.SingleValued := by
  obtain ⟨admissible, rfl⟩ := admissible_of_command assembled
  exact admissible.singleValued name

/-- Parsing gives the same with both selections.  Only if help is asked for, each shows that of its
own command, and the texts of defaults in it may differ. -/
def ParsesAlike (s : Surroundings) (first second : Selection) (name : String)
    (argv : List String) : Prop :=
  first.parse s name argv = second.parse s name argv ∨
    ∃ c d, first.command name = .ok c ∧ second.command name = .ok d ∧ c.Alike s d ∧
      first.parse s name argv = .error (.shown .help (c.helpText (Path.baseName name))) ∧
      second.parse s name argv = .error (.shown .help (d.helpText (Path.baseName name)))

theorem Failure.ofInterruption_of_alike {c d : Command} (alike : c.Alike s d) (calledAs : String)
    {stop : Interruption} (other : stop ≠ .requested .help) :
    ofInterruption c calledAs stop = ofInterruption d calledAs stop := by
  cases stop with
  | refused e => rfl
  | requested request =>
    cases request with
    | help => exact absurd rfl other
    | version =>
      have names : c.name = d.name := (congrArg Command.name alike.frame :)
      have versions : c.version = d.version := (congrArg Command.version alike.frame :)
      rw [ofInterruption, ofInterruption, Command.reply, Command.reply, names, versions]

/-- Selections of options that differ in defaults only, which stand for the same, parse alike. -/
theorem parsesAlike_of_alike
    (alike : List.Forall₂ (Entry.Alongside (Declaration.Alike s)) first.entries second.entries)
    (name : String) (argv : List String) : ParsesAlike s first second name argv := by
  have declarations : List.Forall₂ (Declaration.Alike s) (first.distinct.map (·.declaration))
      (second.distinct.map (·.declaration)) :=
    List.rel_map (fun _ _ same => same.2) (distinctEntries_alongside alike)
  have answers (m : Matches) : first.answers m = second.answers m := by
    refine List.rel_foldl ?_ rfl alike
    rintro answers _ rfl a b ⟨_, same⟩
    rw [addAnswer, addAnswer, Entry.answer?_of_bare_eq m same.bare,
      Entry.dest_of_bare_eq same.bare]
  have start : (Assembly.new name).Alike s (Assembly.new name) := ⟨⟨rfl, .nil⟩, rfl, rfl⟩
  rcases (start.addAll declarations).finish with ⟨e, left, right⟩ | ⟨c, d, left, right, commands⟩
  · have left : first.command name = .error e := left
    have right : second.command name = .error e := right
    refine .inl ?_
    rw [parse, parse, matches?, matches?, left, right]
  · have left : first.command name = .ok c := left
    have right : second.command name = .ok d := right
    have sameRead := commands.read_eq (singleValued_of_command left) argv
    cases outcome : c.read s argv with
    | ok m =>
      refine .inl ?_
      rw [parse_eq_ok_iff.mpr ⟨c, m, left, outcome, answers m⟩,
        parse_eq_ok_iff.mpr ⟨d, m, right, sameRead ▸ outcome, rfl⟩]
    | error stop =>
      have parsed := parse_of_interruption left outcome
      have parsed' := parse_of_interruption right (sameRead ▸ outcome)
      by_cases help : stop = .requested .help
      · subst help
        exact .inr ⟨c, d, left, right, commands, parsed, parsed'⟩
      · refine .inl ?_
        rw [parsed, parsed', Failure.ofInterruption_of_alike commands _ help]

end Selection

end TaggedOptions
