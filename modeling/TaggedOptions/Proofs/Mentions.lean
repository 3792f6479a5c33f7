import Mathlib
import TaggedOptions.Proofs.Events
import TaggedOptions.Proofs.Stored

/-! # What an argument vector gives

`Command.Gives` says, from the elements of an argument vector alone, which arguments it gives: those
that are named before the separator, and those positional arguments for which there is a word.  A
vector that is read without a fault stores values for exactly the arguments that it gives, each of
the kind that its argument keeps; defaults are added for some of the others.
-/

namespace TaggedOptions

/-! ## Given arguments -/

namespace Event

def argument? : Event → Option Argument
  | .occur a _ => some a
  | .await a => some a
  | _ => none

/-- The word that an event has for a positional argument.  A word right behind an option that waits
is the option's value. -/
def word? (waiting : Bool) : Event → Option String
  | .word text => if waiting then none else some text
  | .trailing text => some text
  | _ => none

def leavesWaiting (waiting : Bool) : Event → Bool
  | .await _ => true
  | .separator => waiting
  | _ => false

def words : Bool → List Event → List String
  | _, [] => []
  | waiting, event :: rest =>
    (event.word? waiting).toList ++ words (event.leavesWaiting waiting) rest

theorem forall_argument?_cons {P : Argument → Prop} {event : Event} {rest : List Event} :
    (∀ a ∈ (event :: rest).filterMap argument?, P a) ↔
      (∀ a ∈ event.argument?, P a) ∧ ∀ a ∈ rest.filterMap argument?, P a := by
  cases names : event.argument? with
  | none => simp [List.filterMap_cons_none names]
  | some a => simp [List.filterMap_cons_some names]

end Event

namespace Command

def named (c : Command) (argv : List String) : List Argument :=
  (c.events argv).filterMap Event.argument?

def words (c : Command) (argv : List String) : List String := Event.words false (c.events argv)

def Gives (c : Command) (argv : List String) (a : Argument) : Prop :=
  a ∈ c.named argv ∨ a ∈ c.positionals.take (c.words argv).length

instance (c : Command) (argv : List String) (a : Argument) : Decidable (c.Gives argv a) :=
  inferInstanceAs (Decidable (_ ∨ _))

variable {c : Command}

theorem positionals_subset {a : Argument} (h : a ∈ c.positionals) : a ∈ c.allArguments := by
  have member := List.mem_of_mem_filter h
  simp [allArguments, member]

theorem mem_allArguments_of_mem_clusterEvents {letters : List Char} {event : Event} {a : Argument}
    (member : event ∈ c.clusterEvents letters) (names : event.argument? = some a) :
    a ∈ c.allArguments := by
  induction letters with
  | nil => cases member
  | cons letter rest ih =>
    rw [clusterEvents] at member
    cases found : c.byShort? letter with
    | none =>
      simp only [found, List.mem_singleton] at member
      subst member
      cases names
    | some b =>
      have known : b ∈ c.allArguments := List.mem_of_find?_eq_some found
      simp only [found] at member
      split at member
      · split at member
        · rw [List.mem_singleton] at member
          subst member
          cases names
          exact known
        · rw [List.mem_singleton] at member
          subst member
          cases names
          exact known
      · rcases List.mem_cons.mp member with rfl | later
        · cases names
          exact known
        · exact ih later

theorem mem_allArguments_of_mem_elementEvents {arg : String} {event : Event} {a : Argument}
    (member : event ∈ c.elementEvents arg) (names : event.argument? = some a) :
    a ∈ c.allArguments := by
  unfold elementEvents at member
  cases token : Token.ofString arg with
  | separator =>
    simp only [token, List.mem_singleton] at member
    subst member
    cases names
  | long name value =>
    simp only [token, longEvent, List.mem_singleton] at member
    cases found : c.byLong? name with
    | none =>
      simp only [found] at member
      subst member
      cases names
    | some b =>
      have known : b ∈ c.allArguments := List.mem_of_find?_eq_some found
      simp only [found] at member
      subst member
      split at names
      · cases names; exact known
      · cases names; exact known
      · cases names
      · cases names; exact known
  | cluster first rest =>
    simp only [token] at member
    exact mem_allArguments_of_mem_clusterEvents member names
  | word =>
    simp only [token, List.mem_singleton] at member
    subst member
    cases names

/-- Only arguments of the command are named. -/
theorem mem_allArguments_of_mem_named {argv : List String} {a : Argument}
    (h : a ∈ c.named argv) : a ∈ c.allArguments := by
  obtain ⟨event, member, names⟩ := List.mem_filterMap.mp h
  induction argv with
  | nil => cases member
  | cons arg argv ih =>
    rw [events] at member
    split at member
    · rcases List.mem_cons.mp member with rfl | behind
      · cases names
      · obtain ⟨text, _, rfl⟩ := List.mem_map.mp behind
        cases names
    · rcases List.mem_append.mp member with here | later
      · exact mem_allArguments_of_mem_elementEvents here names
      · exact ih (List.mem_filterMap.mpr ⟨event, later, names⟩) later

end Command

section

variable {s : Surroundings} {c : Command}

/-! ## Arguments met so far -/

namespace Progress

/-- An argument with this id has been met: its value is stored or kept back. -/
def Met (p : Progress) (id : String) : Prop :=
  p.found.has id = true ∨ ∃ occurrence, p.pending = some occurrence ∧ occurrence.argument.id = id

theorem settle_met {p q : Progress} (h : p.settle s = .ok q) :
    q.pending = none ∧ q.positionals = p.positionals ∧
      ∀ id, q.found.has id = true ↔ p.Met id := by
  rcases settle_ok h with ⟨nothing, rfl⟩ | ⟨occurrence, found, pending, stored, rfl⟩
  · exact ⟨nothing, rfl, fun id => by simp [Met, nothing]⟩
  · obtain ⟨values, rfl, _⟩ := store_ok stored
    refine ⟨rfl, rfl, fun id => ?_⟩
    rw [Matches.has_append, Met, pending]
    simp

theorem takeWord_single_ok {p q : Progress} {word : String}
    (single : ∀ a ∈ p.positionals, a.reaction.isMany = false) (h : p.takeWord s word = .ok q) :
    ∃ a rest, p.positionals = a :: rest ∧ ∃ r, p.settle s = .ok r ∧
      q = { r with pending := some ⟨a, [word], false⟩, positionals := rest } := by
  obtain ⟨a, rest, next, ⟨_, taken⟩ | ⟨many, _⟩ | ⟨many, _⟩⟩ := takeWord_ok h
  · exact ⟨a, rest, next, taken⟩
  · simp [single a (by simp [next])] at many
  · simp [single a (by simp [next])] at many

theorem takeWord_met {p q : Progress} {word : String}
    (single : ∀ a ∈ p.positionals, a.reaction.isMany = false) (h : p.takeWord s word = .ok q) :
    ∃ a, p.positionals = a :: q.positionals ∧ q.waits = false ∧
      ∀ id, q.Met id ↔ p.Met id ∨ a.id = id := by
  obtain ⟨a, rest, next, r, settled, rfl⟩ := takeWord_single_ok single h
  obtain ⟨_, _, met⟩ := settle_met settled
  refine ⟨a, next, rfl, fun id => ?_⟩
  rw [Met, met]
  simp

end Progress

/-- After an event those arguments have been met that were met before, the one that is named, and
the positional argument that the word is for. -/
theorem Event.apply_met {p q : Progress} {event : Event}
    (single : ∀ a ∈ p.positionals, a.reaction.isMany = false) (h : event.apply s p = .ok q) :
    ∃ placed, p.positionals = placed ++ q.positionals ∧
      placed.length = (event.word? p.waits).toList.length ∧
      q.waits = event.leavesWaiting p.waits ∧
      ∀ id, q.Met id ↔ p.Met id ∨ ∃ a ∈ event.argument?.toList ++ placed, a.id = id := by
  cases event with
  | occur a raws =>
    obtain ⟨r, found, settled, stored, rfl⟩ := Progress.occur_ok h
    obtain ⟨nothing, positionals, met⟩ := Progress.settle_met settled
    obtain ⟨values, rfl, _⟩ := store_ok stored
    refine ⟨[], by simp [positionals], rfl, by simp [Progress.waits, nothing, leavesWaiting], ?_⟩
    intro id
    rw [Progress.Met, Matches.has_append, met]
    simp [nothing, argument?]
  | await a =>
    obtain ⟨r, settled, rfl⟩ := Progress.await_ok h
    obtain ⟨_, positionals, met⟩ := Progress.settle_met settled
    refine ⟨[], by simp [positionals], rfl, rfl, ?_⟩
    intro id
    rw [Progress.Met, met]
    simp [argument?]
  | word text =>
    rcases Progress.readWord_ok h with ⟨waiting, occurrence, pending, rfl⟩ | ⟨idle, taken⟩
    · refine ⟨[], rfl, by simp [word?, waiting], rfl, fun id => ?_⟩
      simp [Progress.Met, pending, argument?]
    · obtain ⟨a, next, idleLater, met⟩ := Progress.takeWord_met single taken
      exact ⟨[a], next, by simp [word?, idle], idleLater, fun id => by simp [met, argument?]⟩
  | separator =>
    cases h
    exact ⟨[], rfl, rfl, rfl, fun id => by simp [Progress.Met, argument?]⟩
  | trailing text =>
    obtain ⟨a, next, idle, met⟩ := Progress.takeWord_met single h
    exact ⟨[a], next, rfl, idle, fun id => by simp [met, argument?]⟩
  | refusal e => cases h

/-- A run of events meets the arguments that it names, and as many positional arguments as it has
words for them. -/
theorem Event.applyAll_met {p q : Progress} {events : List Event}
    (single : ∀ a ∈ p.positionals, a.reaction.isMany = false) (h : applyAll s p events = .ok q) :
    ∃ placed, p.positionals = placed ++ q.positionals ∧
      placed.length = (words p.waits events).length ∧
      ∀ id, q.Met id ↔ p.Met id ∨ ∃ a ∈ events.filterMap argument? ++ placed, a.id = id := by
  induction events generalizing p with
  | nil =>
    cases h
    exact ⟨[], rfl, rfl, fun id => by simp⟩
  | cons event rest ih =>
    obtain ⟨r, applied, later⟩ := applyAll_cons_ok h
    obtain ⟨first, split, length, waits, met⟩ := apply_met single applied
    have singleLater : ∀ a ∈ r.positionals, a.reaction.isMany = false :=
      fun a member => single a (by simp [split, member])
    obtain ⟨placed, splitLater, lengthLater, metLater⟩ := ih singleLater later
    refine ⟨first ++ placed, by rw [split, splitLater, List.append_assoc], ?_, fun id => ?_⟩
    · rw [words, List.length_append, List.length_append, length, lengthLater, waits]
    · rw [metLater, met, List.filterMap_cons]
      cases event.argument? with
      | none => simp [or_assoc, or_and_right, exists_or, or_left_comm]
      | some a => simp [or_assoc, or_and_right, exists_or, or_left_comm]

/-! ## Values stored so far -/

/-- What is stored is typed, and everything that may still be stored belongs to an argument of the
command. -/
structure Progress.Sound (c : Command) (p : Progress) : Prop where
  found : p.found.Typed c.allArguments
  pending : ∀ occurrence, p.pending = some occurrence → occurrence.argument ∈ c.allArguments
  positionals : ∀ a ∈ p.positionals, a ∈ c.allArguments

def Command.SingleValued (c : Command) : Prop := ∀ a ∈ c.allArguments, a.reaction.isMany = false

namespace Progress

theorem start_sound (c : Command) : ({ positionals := c.positionals } : Progress).Sound c := by
  refine ⟨?_, ?_, fun a member => Command.positionals_subset member⟩
  · intro x stored
    cases stored
  · intro occurrence nothing
    cases nothing

theorem Sound.store {p : Progress} (sound : p.Sound c) (single : c.SingleValued) {a : Argument}
    (member : a ∈ c.allArguments) {raws : List String} {found : Matches}
    (stored : store s p.found a raws = .ok found) : found.Typed c.allArguments := by
  obtain ⟨values, rfl, kept⟩ := store_ok stored
  obtain ⟨fresh, v, rfl, keeps⟩ := kept (single a member)
  exact sound.found.append member fresh keeps

theorem Sound.settle {p q : Progress} (sound : p.Sound c) (single : c.SingleValued)
    (h : p.settle s = .ok q) : q.Sound c := by
  rcases settle_ok h with ⟨_, rfl⟩ | ⟨occurrence, found, pending, stored, rfl⟩
  · exact sound
  · refine ⟨sound.store single (sound.pending occurrence pending) stored, ?_, sound.positionals⟩
    intro _ nothing
    cases nothing

theorem Sound.takeWord {p q : Progress} (sound : p.Sound c) (single : c.SingleValued)
    {word : String} (h : p.takeWord s word = .ok q) : q.Sound c := by
  obtain ⟨a, rest, next, r, settled, rfl⟩ :=
    takeWord_single_ok (fun a member => single a (sound.positionals a member)) h
  have members := sound.positionals
  rw [next, List.forall_mem_cons] at members
  refine ⟨(sound.settle single settled).found, ?_, members.2⟩
  intro occurrence kept
  cases kept
  exact members.1

end Progress

theorem Progress.Sound.apply {p q : Progress} (sound : p.Sound c) (single : c.SingleValued)
    {event : Event} (known : ∀ a ∈ event.argument?, a ∈ c.allArguments)
    (h : event.apply s p = .ok q) : q.Sound c := by
  cases event with
  | occur a raws =>
    obtain ⟨r, found, settled, stored, rfl⟩ := Progress.occur_ok h
    have sound := sound.settle single settled
    exact ⟨sound.store single (known a rfl) stored, sound.pending, sound.positionals⟩
  | await a =>
    obtain ⟨r, settled, rfl⟩ := Progress.await_ok h
    have sound := sound.settle single settled
    refine ⟨sound.found, ?_, sound.positionals⟩
    intro occurrence kept
    cases kept
    exact known a rfl
  | word text =>
    rcases Progress.readWord_ok h with ⟨_, occurrence, pending, rfl⟩ | ⟨_, taken⟩
    · refine ⟨sound.found, ?_, sound.positionals⟩
      intro _ kept
      cases kept
      exact sound.pending occurrence pending
    · exact sound.takeWord single taken
  | separator =>
    cases h
    exact ⟨sound.found, sound.pending, sound.positionals⟩
  | trailing text => exact sound.takeWord single h
  | refusal e => cases h

theorem Progress.Sound.applyAll {p q : Progress} (sound : p.Sound c) (single : c.SingleValued)
    {events : List Event} (known : ∀ a ∈ events.filterMap Event.argument?, a ∈ c.allArguments)
    (h : Event.applyAll s p events = .ok q) : q.Sound c := by
  induction events generalizing p with
  | nil =>
    cases h
    exact sound
  | cons event rest ih =>
    obtain ⟨r, applied, behind⟩ := Event.applyAll_cons_ok h
    obtain ⟨first, later⟩ := Event.forall_argument?_cons.mp known
    exact ih (sound.apply single first applied) later behind

/-! ## Whole vectors -/

namespace Command

theorem read_ok {argv : List String} {m : Matches} (h : c.read s argv = .ok m) :
    ∃ p q, Event.applyAll s { positionals := c.positionals } (c.events argv) = .ok p ∧
      p.settle s = .ok q ∧ fillDefaults s c.arguments q.found = .ok m ∧
      ∀ a ∈ c.arguments, a.required = true → q.found.has a.id = true := by
  unfold read at h
  rw [Progress.run_eq_applyAll rfl] at h
  cases applied : Event.applyAll s { positionals := c.positionals } (c.events argv) with
  | error e => simp [applied] at h
  | ok p =>
    cases settled : p.settle s with
    | error e => simp [applied, settled] at h
    | ok q =>
      cases filled : fillDefaults s c.arguments q.found with
      | error e => simp [applied, settled, filled] at h
      | ok final =>
        simp only [applied, settled, filled] at h
        split at h
        next complete =>
          cases h
          exact ⟨p, q, rfl, settled, filled, missing_eq_nil_iff.mp complete⟩
        next => cases h

theorem Gives.mem_allArguments {argv : List String} {a : Argument} (h : c.Gives argv a) :
    a ∈ c.allArguments := by
  rcases h with named | placed
  · exact mem_allArguments_of_mem_named named
  · exact positionals_subset (List.mem_of_mem_take placed)

/-- When all elements have been read, those arguments have been met that are given. -/
theorem met_iff_gives (single : c.SingleValued) {argv : List String} {p : Progress}
    (applied : Event.applyAll s { positionals := c.positionals } (c.events argv) = .ok p)
    (id : String) : p.Met id ↔ ∃ a, c.Gives argv a ∧ a.id = id := by
  obtain ⟨placed, split, length, met⟩ := Event.applyAll_met
    (fun a member => single a (positionals_subset member)) applied
  have taken : placed = c.positionals.take (c.words argv).length := by
    have length : placed.length = (c.words argv).length := length
    rw [← length]
    change placed = List.take placed.length c.positionals
    rw [show c.positionals = placed ++ p.positionals from split, List.take_left]
  have untouched : ¬ ({ positionals := c.positionals } : Progress).Met id := by
    rintro (stored | ⟨_, nothing, _⟩)
    · cases stored
    · cases nothing
  rw [met, taken]
  simp only [untouched, false_or, List.mem_append]
  rfl

/-- What is read without a fault is typed.  It has values for the arguments that are given and for
those that have a default, and no others; what is required is given. -/
theorem read_spec (single : c.SingleValued) {argv : List String} {m : Matches}
    (h : c.read s argv = .ok m) :
    m.Typed c.allArguments ∧
      (∀ id, m.has id = true ↔ (∃ a, c.Gives argv a ∧ a.id = id) ∨
        ∃ a ∈ c.arguments, a.id = id ∧ defaultValues s a ≠ .ok []) ∧
      ∀ a ∈ c.arguments, a.required = true → ∃ b, c.Gives argv b ∧ b.id = a.id := by
  obtain ⟨p, q, applied, settled, filled, complete⟩ := read_ok h
  have known : ∀ a ∈ c.named argv, a ∈ c.allArguments := fun a => mem_allArguments_of_mem_named
  have sound := ((Progress.start_sound c).applyAll single known applied).settle single settled
  have given : ∀ id, q.found.has id = true ↔ ∃ a, c.Gives argv a ∧ a.id = id := fun id => by
    rw [(Progress.settle_met settled).2.2, met_iff_gives single applied]
  refine ⟨sound.found.fillDefaults single (fun a member => ?_) filled, fun id => ?_, ?_⟩
  · simp [allArguments, member]
  · rw [fillDefaults_ok filled, given]
  · intro a member required
    exact (given a.id).mp (complete a member required)

end Command

end

end TaggedOptions
