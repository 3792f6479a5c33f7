import Mathlib
import TaggedOptions.Command.Reading

/-! # An argument vector as a list of events

Reading an argument vector does two things at a time: it finds out what each element means, and it
keeps track of what is stored and what is still waited for.  Here the two are taken apart.
`Command.events` says what the elements mean, from the names of the command alone; `Event.applyAll`
says what events do to the progress of a reading.  `run_eq_applyAll` puts them together again, so
that a statement about argument vectors can be split at the events.
-/

namespace TaggedOptions

/-- What an element of an argument vector means. -/
inductive Event where
  | occur (argument : Argument) (raws : List String)
  | await (argument : Argument)
  | word (text : String)
  | separator
  | trailing (text : String)
  /-- A flag that is refused wherever it stands. -/
  | refusal (error : ReadError)
  deriving DecidableEq, Repr

namespace Event

def apply (s : Surroundings) (p : Progress) : Event → Except Interruption Progress
  | .occur a raws => p.occur s a raws
  | .await a => p.await s a
  | .word text => p.readWord s text
  | .separator => .ok { p with separated := true }
  | .trailing text => p.takeWord s text
  | .refusal e => .error (.refused e)

def applyAll (s : Surroundings) : Progress → List Event → Except Interruption Progress
  | p, [] => .ok p
  | p, event :: rest =>
    match event.apply s p with
    | .error e => .error e
    | .ok p => applyAll s p rest

def name (a : Argument) : Event := if a.reaction.takesValue then .await a else .occur a []

end Event

namespace Command

def longEvent (c : Command) (name : String) (value : Option String) : Event :=
  match c.byLong? name with
  | none => .refusal (.unknownArgument ("--" ++ name))
  | some a =>
    match a.reaction.takesValue, value with
    | true, some value => .occur a [value]
    | true, none => .await a
    | false, some value => .refusal (.unexpectedValue a.display value)
    | false, none => .occur a []

def clusterEvents (c : Command) : List Char → List Event
  | [] => []
  | letter :: rest =>
    match c.byShort? letter with
    | none => [.refusal (.unknownArgument (String.ofList ['-', letter]))]
    | some a =>
      if a.reaction.takesValue then
        match Progress.attached rest with
        | some value => [.occur a [value]]
        | none => [.await a]
      else .occur a [] :: c.clusterEvents rest

def elementEvents (c : Command) (arg : String) : List Event :=
  match Token.ofString arg with
  | .separator => [.separator]
  | .long name value => [c.longEvent name value]
  | .cluster first rest => c.clusterEvents (first :: rest)
  | .word => [.word arg]

def events (c : Command) : List String → List Event
  | [] => []
  | arg :: rest =>
    if arg = "--" then .separator :: rest.map .trailing
    else c.elementEvents arg ++ c.events rest

end Command

/-! ## Lists of events -/

section

variable {s : Surroundings} {c : Command}

theorem Event.applyAll_append (p : Progress) (first second : List Event) :
    applyAll s p (first ++ second) =
      match applyAll s p first with
      | .error e => .error e
      | .ok q => applyAll s q second := by
  induction first generalizing p with
  | nil => rfl
  | cons event first ih =>
    rw [List.cons_append, applyAll, applyAll]
    cases event.apply s p with
    | error e => rfl
    | ok q => exact ih q

theorem Event.applyAll_cons_ok {p q : Progress} {event : Event} {rest : List Event}
    (h : applyAll s p (event :: rest) = .ok q) :
    ∃ r, event.apply s p = .ok r ∧ applyAll s r rest = .ok q := by
  rw [applyAll] at h
  cases applied : event.apply s p with
  | error e => simp [applied] at h
  | ok r =>
    simp only [applied] at h
    exact ⟨r, rfl, h⟩

@[simp] theorem Event.applyAll_singleton (p : Progress) (event : Event) :
    applyAll s p [event] = event.apply s p := by
  rw [applyAll]
  cases event.apply s p <;> rfl

theorem Command.events_append {argv : List String} (unseparated : "--" ∉ argv)
    (more : List String) :
    c.events (argv ++ more) = argv.flatMap c.elementEvents ++ c.events more := by
  induction argv with
  | nil => rfl
  | cons arg argv ih =>
    simp only [List.mem_cons, not_or] at unseparated
    have first : arg ≠ "--" := fun same => unseparated.1 same.symm
    rw [List.cons_append, events, if_neg first, ih unseparated.2, List.flatMap_cons,
      List.append_assoc]

/-! ## What the primitive moves can do -/

namespace Progress

theorem settle_ok {p q : Progress} (h : p.settle s = .ok q) :
    (p.pending = none ∧ q = p) ∨ ∃ occurrence found, p.pending = some occurrence ∧
      store s p.found occurrence.argument occurrence.values = .ok found ∧
      q = { p with found, pending := none } := by
  unfold settle at h
  cases pending : p.pending with
  | none =>
    simp only [pending, Except.ok.injEq] at h
    exact .inl ⟨rfl, h.symm⟩
  | some occurrence =>
    simp only [pending] at h
    cases stored : store s p.found occurrence.argument occurrence.values with
    | error e => simp [stored] at h
    | ok found =>
      simp only [stored, Except.ok.injEq] at h
      exact .inr ⟨occurrence, found, rfl, stored, h.symm⟩

theorem occur_ok {p q : Progress} {a : Argument} {raws : List String}
    (h : p.occur s a raws = .ok q) :
    ∃ r found, p.settle s = .ok r ∧ store s r.found a raws = .ok found ∧
      q = { r with found } := by
  unfold occur at h
  cases settled : p.settle s with
  | error e => simp [settled] at h
  | ok r =>
    simp only [settled] at h
    cases stored : store s r.found a raws with
    | error e => simp [stored] at h
    | ok found =>
      simp only [stored, Except.ok.injEq] at h
      exact ⟨r, found, rfl, stored, h.symm⟩

theorem await_ok {p q : Progress} {a : Argument} (h : p.await s a = .ok q) :
    ∃ r, p.settle s = .ok r ∧ q = { r with pending := some ⟨a, [], true⟩ } := by
  unfold await at h
  cases settled : p.settle s with
  | error e => simp [settled] at h
  | ok r =>
    simp only [settled, Except.ok.injEq] at h
    exact ⟨r, rfl, h.symm⟩

/-- A word is kept back for the next positional argument.  If this one takes many words it stays the
next one, and the word may join those that are kept back for it already. -/
theorem takeWord_ok {p q : Progress} {word : String} (h : p.takeWord s word = .ok q) :
    ∃ a rest, p.positionals = a :: rest ∧
      ((a.reaction.isMany = false ∧ ∃ r, p.settle s = .ok r ∧
          q = { r with pending := some ⟨a, [word], false⟩, positionals := rest }) ∨
        (a.reaction.isMany = true ∧ ∃ r, p.settle s = .ok r ∧
          q = { r with pending := some ⟨a, [word], false⟩ }) ∨
        (a.reaction.isMany = true ∧ ∃ earlier, p.pending = some earlier ∧ earlier.argument = a ∧
          q = { p with pending := some { earlier with values := earlier.values ++ [word] } })) := by
  unfold takeWord at h
  cases next : p.positionals with
  | nil => simp [next] at h
  | cons a rest =>
    refine ⟨a, rest, rfl, ?_⟩
    simp only [next] at h
    split at h
    · cases h
    · split at h
      next earlier many pending =>
        split at h
        next own =>
          cases h
          exact .inr (.inr ⟨many, earlier, pending, own, rfl⟩)
        next other =>
          cases settled : p.settle s with
          | error e => simp [settled] at h
          | ok r =>
            simp only [settled, Except.ok.injEq] at h
            exact .inr (.inl ⟨many, r, rfl, h.symm⟩)
      next many nothing =>
        cases h
        exact .inr (.inl ⟨many, p, by simp [settle, nothing], by rw [next]⟩)
      next single =>
        cases settled : p.settle s with
        | error e => simp [settled] at h
        | ok r =>
          simp only [settled, Except.ok.injEq] at h
          exact .inl ⟨single, r, rfl, h.symm⟩

def waits (p : Progress) : Bool := p.pending.any (·.waiting)

/-- A word is the value of the option that waits, or else it is for a positional argument. -/
theorem readWord_ok {p q : Progress} {word : String} (h : p.readWord s word = .ok q) :
    (p.waits = true ∧ ∃ occurrence, p.pending = some occurrence ∧
        q = { p with pending := some { occurrence with values := [word], waiting := false } }) ∨
      (p.waits = false ∧ p.takeWord s word = .ok q) := by
  unfold readWord at h
  cases pending : p.pending with
  | none =>
    simp only [pending] at h
    exact .inr ⟨by simp [waits, pending], h⟩
  | some occurrence =>
    simp only [pending] at h
    by_cases waiting : occurrence.waiting = true
    · simp only [waiting, if_true, Except.ok.injEq] at h
      exact .inl ⟨by simp [waits, pending, waiting], occurrence, rfl, h.symm⟩
    · rw [if_neg waiting] at h
      exact .inr ⟨by simpa [waits, pending] using waiting, h⟩

/-! ## Before and behind the separator -/

theorem settle_separated {p q : Progress} (h : p.settle s = .ok q) :
    q.separated = p.separated := by
  rcases settle_ok h with ⟨_, rfl⟩ | ⟨_, _, _, _, rfl⟩ <;> rfl

theorem takeWord_separated {p q : Progress} {word : String} (h : p.takeWord s word = .ok q) :
    q.separated = p.separated := by
  obtain ⟨a, rest, _, ⟨_, r, settled, rfl⟩ | ⟨_, r, settled, rfl⟩ | ⟨_, _, _, _, rfl⟩⟩ :=
    takeWord_ok h
  · exact (settle_separated settled : r.separated = p.separated)
  · exact (settle_separated settled : r.separated = p.separated)
  · rfl

end Progress

/-- Only the separator separates. -/
theorem Event.apply_separated {p q : Progress} {event : Event} (other : event ≠ .separator)
    (h : event.apply s p = .ok q) : q.separated = p.separated := by
  cases event with
  | occur a raws =>
    obtain ⟨r, found, settled, _, rfl⟩ := Progress.occur_ok h
    exact (Progress.settle_separated settled : r.separated = p.separated)
  | await a =>
    obtain ⟨r, settled, rfl⟩ := Progress.await_ok h
    exact (Progress.settle_separated settled : r.separated = p.separated)
  | word text =>
    rcases Progress.readWord_ok h with ⟨_, _, _, rfl⟩ | ⟨_, taken⟩
    · rfl
    · exact Progress.takeWord_separated taken
  | separator => exact absurd rfl other
  | trailing text => exact Progress.takeWord_separated h
  | refusal e => cases h

theorem Event.applyAll_separated {events : List Event} (none : .separator ∉ events)
    {p q : Progress} (h : applyAll s p events = .ok q) : q.separated = p.separated := by
  induction events generalizing p with
  | nil =>
    cases h
    rfl
  | cons event rest ih =>
    simp only [List.mem_cons, not_or] at none
    obtain ⟨r, applied, later⟩ := applyAll_cons_ok h
    rw [ih none.2 later]
    exact apply_separated (fun same => none.1 same.symm) applied

/-! ## Reading is applying events -/

theorem Token.ofString_eq_separator_iff {arg : String} :
    ofString arg = .separator ↔ arg = "--" := by
  unfold ofString
  constructor
  · intro h
    have chars : arg.toList = "--".toList := by
      revert h
      fun_cases ofChars arg.toList <;> intro h <;> simp_all
    exact String.toList_injective chars
  · rintro rfl
    rfl

namespace Command

theorem separator_not_mem_clusterEvents (letters : List Char) :
    .separator ∉ c.clusterEvents letters := by
  induction letters with
  | nil => simp [clusterEvents]
  | cons letter rest ih =>
    rw [clusterEvents]
    split
    · simp
    · split
      · split <;> simp
      · simpa using ih

theorem separator_not_mem_elementEvents {arg : String} (other : arg ≠ "--") :
    .separator ∉ c.elementEvents arg := by
  unfold elementEvents
  cases token : Token.ofString arg with
  | separator => exact absurd (Token.ofString_eq_separator_iff.mp token) other
  | long name value =>
    simp only [longEvent, List.mem_singleton]
    split
    · simp
    · split <;> simp
  | cluster first rest => exact separator_not_mem_clusterEvents (first :: rest)
  | word => simp

end Command

namespace Progress

theorem readLong_eq (p : Progress) (name : String) (value : Option String) :
    p.readLong s c name value = (c.longEvent name value).apply s p := by
  unfold readLong Command.longEvent
  cases c.byLong? name with
  | none => rfl
  | some a =>
    cases takes : a.reaction.takesValue with
    | true => cases value <;> simp [takes, Event.apply]
    | false => cases value <;> simp [takes, Event.apply]

theorem readCluster_eq (p : Progress) (letters : List Char) :
    readCluster s c p letters = Event.applyAll s p (c.clusterEvents letters) := by
  induction letters generalizing p with
  | nil => rfl
  | cons letter rest ih =>
    rw [readCluster, Command.clusterEvents]
    cases c.byShort? letter with
    | none => rfl
    | some a =>
      cases takes : a.reaction.takesValue with
      | true =>
        cases attached rest with
        | none => simp [takes, Event.apply]
        | some value => simp [takes, Event.apply]
      | false =>
        simp only [takes, Bool.false_eq_true, if_false, Event.applyAll, Event.apply]
        cases p.occur s a [] with
        | error e => rfl
        | ok q => exact ih q

theorem step_eq {p : Progress} (unseparated : p.separated = false) (arg : String) :
    p.step s c arg = Event.applyAll s p (c.elementEvents arg) := by
  unfold step Command.elementEvents
  rw [unseparated]
  cases Token.ofString arg with
  | separator => rfl
  | long name value => simpa using readLong_eq p name value
  | cluster first rest => exact readCluster_eq p (first :: rest)
  | word => simp [Event.apply]

theorem run_trailing {p : Progress} (separated : p.separated = true) (words : List String) :
    run s c p words = Event.applyAll s p (words.map .trailing) := by
  induction words generalizing p with
  | nil => rfl
  | cons word words ih =>
    rw [run, List.map_cons, Event.applyAll, step, if_pos separated]
    change _ = match p.takeWord s word with
      | .error e => _
      | .ok q => _
    cases taken : p.takeWord s word with
    | error e => rfl
    | ok q => exact ih ((takeWord_separated taken).trans separated)

/-- Reading an argument vector applies the events that it means. -/
theorem run_eq_applyAll {p : Progress} (unseparated : p.separated = false) (argv : List String) :
    run s c p argv = Event.applyAll s p (c.events argv) := by
  induction argv generalizing p with
  | nil => rfl
  | cons arg argv ih =>
    rw [run, step_eq unseparated, Command.events]
    by_cases separator : arg = "--"
    · subst separator
      have token : c.elementEvents "--" = [.separator] := rfl
      rw [if_pos rfl, token, Event.applyAll_singleton, Event.applyAll]
      exact run_trailing rfl argv
    · rw [if_neg separator, Event.applyAll_append]
      cases applied : Event.applyAll s p (c.elementEvents arg) with
      | error e => rfl
      | ok q =>
        have still := Event.applyAll_separated (Command.separator_not_mem_elementEvents separator)
          applied
        exact ih (still.trans unseparated)

end Progress

end

end TaggedOptions
