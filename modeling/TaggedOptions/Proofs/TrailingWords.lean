import Mathlib
import TaggedOptions.Proofs.Occurrences

/-! # Words behind the separator only

Some commands expect no word before the separator, and give all words behind it to one argument.
What such a command reads without a fault consists of complete occurrences before the separator, the
value of each attached or in the next element, and of one more for the words behind it.  Reading
stores these occurrences one after the other.
-/

namespace TaggedOptions

/-- Events that make up complete occurrences: a value is attached, or it is the next word. -/
inductive Event.Complete : List Event → List Occurrence → Prop where
  | nil : Complete [] []
  | occur (a : Argument) (raws : List String) {events : List Event} {os : List Occurrence} :
      Complete events os → Complete (.occur a raws :: events) (⟨a, raws⟩ :: os)
  | value (a : Argument) (text : String) {events : List Event} {os : List Occurrence} :
      Complete events os → Complete (.await a :: .word text :: events) (⟨a, [text]⟩ :: os)

def separated : Option (List String) → List String
  | none => []
  | some words => "--" :: words

def Event.separated : Option (List String) → List Event
  | none => []
  | some words => .separator :: words.map .trailing

def Occurrence.separated (last : Argument) (behind : Option (List String)) : List Occurrence :=
  if behind.getD [] = [] then [] else [⟨last, behind.getD []⟩]

namespace Occurrence

variable {last : Argument} {behind : Option (List String)}

theorem separated_spec {o : Occurrence} (member : o ∈ separated last behind) :
    o.argument = last ∧ o.raws ≠ [] := by
  unfold separated at member
  split at member
  · cases member
  next some =>
    rw [List.mem_singleton.mp member]
    exact ⟨rfl, some⟩

theorem under_append_separated {os : List Occurrence}
    (others : ∀ o ∈ os, o.argument.id ≠ last.id) :
    under last.id (os ++ separated last behind) = separated last behind := by
  have before : under last.id os = [] :=
    List.filter_eq_nil_iff.mpr fun o member => by simpa using others o member
  have own : under last.id (separated last behind) = separated last behind :=
    List.filter_eq_self.mpr fun o member => by simp [(separated_spec member).1]
  rw [under_append, before, own, List.nil_append]

theorem under_append_separated_of_ne {id : String} (other : id ≠ last.id) (os : List Occurrence) :
    under id (os ++ separated last behind) = under id os := by
  have none : under id (separated last behind) = [] :=
    List.filter_eq_nil_iff.mpr fun o member => by
      simpa [(separated_spec member).1] using other.symm
  rw [under_append, none, List.append_nil]

/-- All words behind the separator are values of the argument that they are for. -/
theorem flatMap_raws_separated :
    (separated last behind).flatMap (·.raws) = behind.getD [] := by
  unfold separated
  split
  next nothing => simp [nothing]
  next => simp

end Occurrence

section

variable {s : Surroundings} {c : Command} {p q : Progress} {m n : Matches} {a : Argument}
  {events : List Event} {os : List Occurrence}

/-! ## Storing what is kept back -/

namespace Progress

variable {last : Argument}

def kept (p : Progress) : List Occurrence :=
  p.pending.toList.map fun x => ⟨x.argument, x.values⟩

/-- The words behind the separator are all for one argument, and nothing waits or is kept back
for it. -/
structure Ready (last : Argument) (p : Progress) : Prop where
  idle : p.waits = false
  positionals : p.positionals = [last]
  fresh : ∀ x ∈ p.pending, x.argument ≠ last

def finish (s : Surroundings) (p : Progress) (events : List Event) : Except Interruption Matches :=
  match Event.applyAll s p events with
  | .error e => .error e
  | .ok q => (q.settle s).map (·.found)

theorem finish_cons (event : Event) (events : List Event) :
    p.finish s (event :: events) =
      match event.apply s p with
      | .error e => .error e
      | .ok q => q.finish s events := by
  rw [finish, Event.applyAll]
  cases event.apply s p <;> rfl

/-- What is kept back is stored before anything else. -/
theorem storeAll_kept (os : List Occurrence) :
    Occurrence.storeAll s p.found (p.kept ++ os) =
      match p.settle s with
      | .error e => .error e
      | .ok q => Occurrence.storeAll s q.found os := by
  cases pending : p.pending with
  | none => simp [kept, settle, pending]
  | some x =>
    simp only [kept, settle, pending, Option.toList_some, List.map_cons, List.map_nil,
      List.singleton_append, Occurrence.storeAll]
    cases store s p.found x.argument x.values <;> rfl

theorem finish_nil : p.finish s [] = Occurrence.storeAll s p.found p.kept := by
  have stored := p.storeAll_kept (s := s) []
  rw [List.append_nil] at stored
  rw [stored, finish, Event.applyAll]
  dsimp only
  cases p.settle s <;> rfl

theorem Ready.settle_ok (ready : p.Ready last) (h : p.settle s = .ok q) :
    q.Ready last ∧ q.pending = none := by
  obtain ⟨nothing, positionals, _⟩ := settle_met h
  exact ⟨⟨by simp [waits, nothing], positionals.trans ready.positionals, by simp [nothing]⟩,
    nothing⟩

theorem finish_trailing (many : last.reaction.isMany = true) (words : List String) {p : Progress}
    (separated : p.separated = true) (positionals : p.positionals = [last]) {values : List String}
    (pending : p.pending = some ⟨last, values, false⟩) :
    p.finish s (words.map .trailing) =
      Occurrence.storeAll s p.found [⟨last, values ++ words⟩] := by
  induction words generalizing p values with
  | nil => simp [finish_nil, kept, pending]
  | cons word words ih =>
    have taken : p.takeWord s word =
        .ok { p with pending := some ⟨last, values ++ [word], false⟩ } := by
      simp [takeWord, positionals, separated, many, pending]
    rw [List.map_cons, finish_cons, Event.apply, taken]
    simpa using ih (p := { p with pending := some ⟨last, values ++ [word], false⟩ }) separated
      positionals rfl

theorem Ready.finish_separated (ready : p.Ready last) (many : last.reaction.isMany = true)
    (behind : Option (List String)) :
    p.finish s (Event.separated behind) =
      Occurrence.storeAll s p.found (p.kept ++ Occurrence.separated last behind) := by
  cases behind with
  | none => simp [Event.separated, Occurrence.separated, finish_nil]
  | some words =>
    rw [Event.separated, finish_cons, Event.apply]
    cases words with
    | nil => simp [Occurrence.separated, finish_nil, kept]
    | cons word words =>
      have taken : ({ p with separated := true } : Progress).takeWord s word =
          match p.settle s with
          | .error e => .error e
          | .ok q => .ok { q with pending := some ⟨last, [word], false⟩, separated := true } := by
        obtain ⟨found, pending, positionals, _⟩ := p
        obtain rfl : positionals = [last] := ready.positionals
        cases pending with
        | none => simp [takeWord, many, settle]
        | some x =>
          have other : x.argument ≠ last := ready.fresh x rfl
          simp only [takeWord, many, other, settle, Bool.not_true, Bool.and_false,
            Bool.false_eq_true, if_false]
          cases store s found x.argument x.values <;> rfl
      dsimp only
      rw [List.map_cons, finish_cons, Event.apply, taken, storeAll_kept]
      cases settled : p.settle s with
      | error e => rfl
      | ok q =>
        simp only [Occurrence.separated, Option.getD_some, reduceCtorEq, if_false]
        exact finish_trailing many words
          (p := { q with pending := some ⟨last, [word], false⟩, separated := true }) rfl
          (ready.settle_ok settled).1.positionals rfl

/-- Complete occurrences are stored one after the other, and then the words behind the separator. -/
theorem Ready.finish_complete {os : List Occurrence} (complete : Event.Complete events os)
    (many : last.reaction.isMany = true) (others : ∀ o ∈ os, o.argument ≠ last)
    (behind : Option (List String)) {p : Progress} (ready : p.Ready last) :
    p.finish s (events ++ Event.separated behind) =
      Occurrence.storeAll s p.found (p.kept ++ (os ++ Occurrence.separated last behind)) := by
  induction complete generalizing p with
  | nil => exact ready.finish_separated many behind
  | occur a raws _ ih =>
    rw [List.forall_mem_cons] at others
    rw [List.cons_append, finish_cons, Event.apply, occur, storeAll_kept]
    cases settled : p.settle s with
    | error e => rfl
    | ok q =>
      obtain ⟨readyLater, nothing⟩ := ready.settle_ok settled
      simp only [List.cons_append, Occurrence.storeAll]
      cases store s q.found a raws with
      | error e => rfl
      | ok found =>
        have readyNext : ({ q with found } : Progress).Ready last :=
          ⟨readyLater.idle, readyLater.positionals, readyLater.fresh⟩
        simpa [kept, nothing] using ih others.2 readyNext
  | value a text _ ih =>
    rw [List.forall_mem_cons] at others
    rw [List.cons_append, List.cons_append, finish_cons, Event.apply, await, storeAll_kept]
    cases settled : p.settle s with
    | error e => rfl
    | ok q =>
      have readyNext : ({ q with pending := some ⟨a, [text], false⟩ } : Progress).Ready last :=
        ⟨rfl, (ready.settle_ok settled).1.positionals, by simpa using others.1⟩
      exact ih others.2 readyNext

end Progress

/-! ## Commands that take words behind the separator only -/

def Command.Names (c : Command) (a : Argument) : Prop :=
  (∃ name, c.byLong? name = some a) ∨ ∃ letter, c.byShort? letter = some a

/-- All words are for one argument, which has no name and takes them behind the separator only. -/
structure Command.WordsLast (c : Command) (last : Argument) : Prop where
  positionals : c.positionals = [last]
  trailing : last.trailing = true
  many : last.reaction.isMany = true
  unnamed : ¬ c.Names last

theorem Command.WordsLast.ne_of_names {last : Argument} (words : c.WordsLast last)
    (named : c.Names a) : a ≠ last := by
  rintro rfl
  exact words.unnamed named

def Event.Early (c : Command) : Event → Prop
  | .occur a _ => c.Names a
  | .await a => c.Names a ∧ a.reaction.takesValue = true
  | .word _ => True
  | .refusal _ => True
  | .separator => False
  | .trailing _ => False

namespace Command

theorem early_of_mem_clusterEvents {letters : List Char} {event : Event}
    (member : event ∈ c.clusterEvents letters) : event.Early c := by
  induction letters with
  | nil => cases member
  | cons letter rest ih =>
    rw [clusterEvents] at member
    split at member
    · rw [List.mem_singleton.mp member]
      trivial
    next a found =>
      have named : c.Names a := .inr ⟨letter, found⟩
      split at member
      next takes =>
        split at member
        · rw [List.mem_singleton.mp member]
          exact named
        · rw [List.mem_singleton.mp member]
          exact ⟨named, takes⟩
      · rcases List.mem_cons.mp member with rfl | later
        · exact named
        · exact ih later

theorem early_of_mem_elementEvents {arg : String} (other : arg ≠ "--") {event : Event}
    (member : event ∈ c.elementEvents arg) : event.Early c := by
  unfold elementEvents at member
  cases token : Token.ofString arg with
  | separator => exact absurd (Token.ofString_eq_separator_iff.mp token) other
  | long name value =>
    simp only [token, longEvent, List.mem_singleton] at member
    subst member
    split
    · trivial
    next a found =>
      have named : c.Names a := .inl ⟨name, found⟩
      split
      · exact named
      next => exact ⟨named, by assumption⟩
      · trivial
      · exact named
  | cluster first rest =>
    simp only [token] at member
    exact early_of_mem_clusterEvents member
  | word =>
    simp only [token, List.mem_singleton] at member
    subst member
    trivial

theorem events_eq_flatMap {argv : List String} (unseparated : "--" ∉ argv) :
    c.events argv = argv.flatMap c.elementEvents := by
  have elements := events_append (c := c) unseparated []
  rwa [List.append_nil, events, List.append_nil] at elements

theorem events_append_of_unseparated {argv : List String} (unseparated : "--" ∉ argv)
    (more : List String) : c.events (argv ++ more) = c.events argv ++ c.events more := by
  rw [events_append unseparated, events_eq_flatMap unseparated]

theorem early_of_mem_events {argv : List String} (unseparated : "--" ∉ argv) {event : Event}
    (member : event ∈ c.events argv) : event.Early c := by
  rw [events_eq_flatMap unseparated] at member
  obtain ⟨arg, listed, means⟩ := List.mem_flatMap.mp member
  exact early_of_mem_elementEvents (fun same => unseparated (same ▸ listed)) means

end Command

namespace Event.Complete

theorem append {events' : List Event} {os' : List Occurrence} (first : Complete events os)
    (second : Complete events' os') : Complete (events ++ events') (os ++ os') := by
  induction first with
  | nil => exact second
  | occur a raws _ ih => exact .occur a raws ih
  | value a text _ ih => exact .value a text ih

theorem names (complete : Complete events os) (early : ∀ event ∈ events, event.Early c) :
    ∀ o ∈ os, c.Names o.argument := by
  induction complete with
  | nil => simp
  | occur a raws _ ih =>
    rw [List.forall_mem_cons] at early ⊢
    exact ⟨early.1, ih early.2⟩
  | value a text _ ih =>
    rw [List.forall_mem_cons, List.forall_mem_cons] at early
    rw [List.forall_mem_cons]
    exact ⟨early.1.1, ih early.2.2⟩

end Event.Complete

/-- An argument that takes values cannot be stored without one. -/
theorem store_nil_ne_ok (takes : a.reaction.takesValue = true) : store s m a [] ≠ .ok n := by
  unfold store
  cases reaction : a.reaction <;> simp_all [Reaction.takesValue]

namespace Progress

theorem finish_cons_ok {event : Event} (h : p.finish s (event :: events) = .ok m) :
    ∃ q, event.apply s p = .ok q ∧ q.finish s events = .ok m := by
  rw [finish_cons] at h
  cases applied : event.apply s p with
  | error e => simp [applied] at h
  | ok q =>
    simp only [applied] at h
    exact ⟨q, rfl, h⟩

/-- Nothing but a word can come behind an option that waits for its value. -/
theorem finish_waiting_ok (takes : a.reaction.takesValue = true)
    (early : ∀ event ∈ events, event.Early c)
    (h : ({ p with pending := some ⟨a, [], true⟩ } : Progress).finish s events = .ok m) :
    ∃ text rest, events = .word text :: rest ∧
      ({ p with pending := some ⟨a, [text], false⟩ } : Progress).finish s rest = .ok m := by
  have unsettled (q : Progress) :
      ({ p with pending := some ⟨a, [], true⟩ } : Progress).settle s ≠ .ok q := by
    intro settled
    obtain ⟨nothing, _⟩ | ⟨x, found, pending, stored, _⟩ := Progress.settle_ok settled
    · cases nothing
    · cases pending
      exact store_nil_ne_ok takes stored
  cases events with
  | nil =>
    rw [finish_nil] at h
    obtain ⟨_, stored, _⟩ := Occurrence.storeAll_cons_eq_ok_iff.mp h
    exact absurd stored (store_nil_ne_ok takes)
  | cons event rest =>
    obtain ⟨q, applied, later⟩ := finish_cons_ok h
    cases event with
    | word text =>
      refine ⟨text, rest, rfl, ?_⟩
      cases applied
      exact later
    | occur b raws =>
      obtain ⟨r, _, settled, _⟩ := occur_ok applied
      exact absurd settled (unsettled r)
    | await b =>
      obtain ⟨r, settled, _⟩ := await_ok applied
      exact absurd settled (unsettled r)
    | separator => exact absurd (early .separator (by simp)) id
    | trailing text => exact absurd (early (.trailing text) (by simp)) id
    | refusal e => cases applied

/-- What is read without a fault consists of complete occurrences, since no word is expected but as
a value. -/
theorem Ready.exists_complete {last : Argument} (words : c.WordsLast last) :
    ∀ {events : List Event} {p : Progress}, p.Ready last → p.separated = false →
      (∀ event ∈ events, event.Early c) → p.finish s events = .ok m →
      ∃ os, Event.Complete events os
  | [], _, _, _, _, _ => ⟨[], .nil⟩
  | .occur a raws :: rest, p, ready, unseparated, early, h => by
    obtain ⟨q, applied, later⟩ := finish_cons_ok h
    obtain ⟨r, found, settled, _, rfl⟩ := occur_ok applied
    have next := (ready.settle_ok settled).1
    rw [List.forall_mem_cons] at early
    obtain ⟨os, complete⟩ := exists_complete words (p := { r with found })
      ⟨next.idle, next.positionals, next.fresh⟩ ((settle_separated settled).trans unseparated)
      early.2 later
    exact ⟨_, .occur a raws complete⟩
  | .await a :: events, p, ready, unseparated, early, h => by
    obtain ⟨q, applied, later⟩ := finish_cons_ok h
    obtain ⟨r, settled, rfl⟩ := await_ok applied
    rw [List.forall_mem_cons] at early
    obtain ⟨text, rest, rfl, behind⟩ := finish_waiting_ok early.1.2 early.2 later
    obtain ⟨os, complete⟩ := exists_complete words
      (p := { r with pending := some ⟨a, [text], false⟩ })
      ⟨rfl, (ready.settle_ok settled).1.positionals, by simpa using words.ne_of_names early.1.1⟩
      ((settle_separated settled).trans unseparated)
      (fun event member => early.2 event (List.mem_cons_of_mem _ member)) behind
    exact ⟨_, .value a text complete⟩
  | .word text :: _, p, ready, unseparated, early, h => by
    obtain ⟨q, applied, _⟩ := finish_cons_ok h
    rcases readWord_ok applied with ⟨waits, _⟩ | ⟨_, taken⟩
    · simp [ready.idle] at waits
    · simp [takeWord, ready.positionals, words.trailing, unseparated] at taken
  | .refusal e :: _, _, _, _, _, h => by
    obtain ⟨_, applied, _⟩ := finish_cons_ok h
    cases applied
  | .separator :: _, _, _, _, early, _ => absurd (early .separator (by simp)) id
  | .trailing text :: _, _, _, _, early, _ => absurd (early (.trailing text) (by simp)) id
termination_by events => events.length

end Progress

namespace Command.WordsLast

variable {last : Argument} {argv : List String}

theorem start_ready (words : c.WordsLast last) :
    ({ positionals := c.positionals } : Progress).Ready last :=
  ⟨rfl, words.positionals, by simp⟩

/-- Complete occurrences and words behind the separator are stored one after the other. -/
theorem given_append_separated (words : c.WordsLast last) (unseparated : "--" ∉ argv)
    (complete : Event.Complete (c.events argv) os) (behind : Option (List String)) :
    c.given s (argv ++ separated behind) =
      Occurrence.storeAll s [] (os ++ Occurrence.separated last behind) := by
  have named := complete.names fun _ => early_of_mem_events unseparated
  have others : ∀ o ∈ os, o.argument ≠ last := fun o member => words.ne_of_names (named o member)
  have split : c.events (argv ++ separated behind) = c.events argv ++ Event.separated behind := by
    rw [events_append_of_unseparated unseparated]
    cases behind <;> rfl
  have stored := words.start_ready.finish_complete (s := s) complete words.many others behind
  rw [← split] at stored
  exact stored

theorem given_eq_storeAll (words : c.WordsLast last) (unseparated : "--" ∉ argv)
    (complete : Event.Complete (c.events argv) os) :
    c.given s argv = Occurrence.storeAll s [] os := by
  simpa [separated, Occurrence.separated] using
    words.given_append_separated unseparated complete none

/-- A vector without the separator gives what storing complete occurrences gives. -/
theorem exists_of_given (words : c.WordsLast last) (unseparated : "--" ∉ argv)
    (h : c.given s argv = .ok m) :
    ∃ os, Event.Complete (c.events argv) os ∧ (∀ o ∈ os, c.Names o.argument) ∧
      Occurrence.storeAll s [] os = .ok m := by
  have early : ∀ event ∈ c.events argv, event.Early c := fun _ => early_of_mem_events unseparated
  obtain ⟨os, complete⟩ := words.start_ready.exists_complete words rfl early h
  exact ⟨os, complete, complete.names early, words.given_eq_storeAll unseparated complete ▸ h⟩

end Command.WordsLast

end

end TaggedOptions
