import Mathlib
import TaggedOptions.Proofs.Filing
import TaggedOptions.Proofs.Unambiguous

/-! # When a selection can be assembled

`Admissible` looks at a list of declarations as a whole: each is valid by itself, no two of them
share a name, and the words come in an order that can be told apart.  A selection gives a command
exactly if its distinct declarations are admissible, and then the command holds one argument for
each of them, in order.
-/

namespace TaggedOptions

/-- Declarations that can be the arguments of one command, besides its help flag. -/
structure Admissible (ds : List Declaration) : Prop where
  valid : ∀ d ∈ ds, d.Valid
  dests : ("help" :: ds.map (·.dest)).Nodup
  longs : ("help" :: ds.flatMap (·.longNames)).Nodup
  shorts : ('h' :: ds.flatMap (·.shortLetters)).Nodup
  order : ds.Pairwise fun d e => d.isPositional = true → d.directives.required = false →
    e.isPositional = true → e.directives.required = false

/-- Valid declarations are admissible exactly if the command of their arguments is well formed. -/
theorem admissible_iff {ds : List Declaration} (c : Command) (bare : c.arguments = []) :
    Admissible ds ↔ (∀ d ∈ ds, d.Valid) ∧ (c.extend (ds.map (·.argument))).WellFormed := by
  have ids : (c.extend (ds.map (·.argument))).arguments = ds.map (·.argument) := by
    simp [Command.extend, bare]
  have order (valid : ∀ d ∈ ds, d.Valid) :
      ((ds.map (·.argument)).Pairwise fun a b =>
        a.isPositional = true → a.required = false → b.isPositional = true →
          b.required = false) ↔
      ds.Pairwise fun d e => d.isPositional = true → d.directives.required = false →
        e.isPositional = true → e.directives.required = false := by
    rw [List.pairwise_map]
    refine List.Pairwise.iff_of_mem fun {d e} hd he => ?_
    rw [(valid d hd).argument_isPositional, (valid e he).argument_isPositional]
    rfl
  constructor
  · intro h
    refine ⟨h.valid, ?_, ?_, ?_, ?_⟩
    · simpa [ids, Function.comp_def] using h.dests
    · simpa [ids, List.flatMap_map] using h.longs
    · simpa [ids, List.flatMap_map] using h.shorts
    · rw [ids, order h.valid]
      exact h.order
  · rintro ⟨valid, h⟩
    refine ⟨valid, ?_, ?_, ?_, ?_⟩
    · simpa [ids, Function.comp_def] using h.ids
    · simpa [ids, List.flatMap_map] using h.longs
    · simpa [ids, List.flatMap_map] using h.shorts
    · rw [← order valid, ← ids]
      exact h.order

namespace Assembly

theorem errors_reject_ne_nil (a : Assembly) (r : Rejection) (ds : List Declaration) :
    ((a.reject r).addAll ds).errors ≠ [] := by
  apply addAll_induction (motive := fun b => b.errors ≠ [])
  · intro b d _ _ h
    exact h
  · intro b r _
    simp [errors, reject]
  · simp [errors, reject]

/-- A run accepts all of its declarations exactly if they are valid and the command extended by
their arguments is well formed; then it ends with this command. -/
theorem addAll_accepts {a : Assembly} (tracks : a.Tracks) (accepted : a.errors = [])
    (wellFormed : a.command.WellFormed) (ds : List Declaration) :
    ((a.addAll ds).errors = [] ↔
      (∀ d ∈ ds, d.Valid) ∧ (a.command.extend (ds.map (·.argument))).WellFormed) ∧
    ((a.addAll ds).errors = [] →
      (a.addAll ds).command = a.command.extend (ds.map (·.argument))) := by
  induction ds generalizing a with
  | nil => simp [accepted, wellFormed]
  | cons d ds ih =>
    rw [addAll_cons, List.map_cons, ← Command.push_extend]
    rcases a.add_cases d with ⟨valid, admits, pushed⟩ | ⟨refused, e, rejected⟩
    · rw [pushed]
      have extended : (a.push d.argument).command.WellFormed :=
        Command.wellFormed_push_iff.mpr ⟨wellFormed, tracks ▸ admits⟩
      obtain ⟨accepts, ends⟩ := ih (tracks.push d.argument) accepted extended
      refine ⟨?_, ends⟩
      rw [accepts, List.forall_mem_cons]
      exact ⟨fun h => ⟨⟨valid, h.1⟩, h.2⟩, fun h => ⟨h.1.2, h.2⟩⟩
    · -- a rejection stays on record, and what is refused here does not fit in later on either
      rw [rejected]
      have failed := a.errors_reject_ne_nil ⟨d.spellings, e⟩ ds
      refine ⟨⟨fun h => absurd h failed, ?_⟩, fun h => absurd h failed⟩
      rintro ⟨valid, h⟩
      have admits := (Command.wellFormed_push_iff.mp (Command.WellFormed.of_extend h)).2
      exact absurd ⟨valid d (by simp), tracks ▸ admits⟩ refused

/-- Starting from nothing, declarations give a command exactly if they are admissible. -/
theorem finish_addAll_eq_ok_iff (name : String) (ds : List Declaration) (c : Command) :
    ((new name).addAll ds).finish = .ok c ↔
      Admissible ds ∧ c = { name, arguments := ds.map (·.argument) } := by
  have tracks : (new name).Tracks := ofCommand_tracks { name }
  have wellFormed : (new name).command.WellFormed := by constructor <;> simp [new, ofCommand]
  obtain ⟨accepts, ends⟩ := addAll_accepts tracks rfl wellFormed ds
  rw [admissible_iff (new name).command rfl, ← accepts]
  unfold finish
  cases herrors : ((new name).addAll ds).errors with
  | nil =>
    simp only [ends herrors, Except.ok.injEq, true_and]
    exact eq_comm
  | cons e rest => simp

end Assembly

namespace Selection

theorem assembly_eq (s : Selection) (name : String) :
    s.assembly name = (Assembly.new name).addAll s.options := by
  rw [assembly, distinct_map_declaration]

theorem command_of_admissible {s : Selection} (admissible : Admissible s.options) (name : String) :
    s.command name = .ok { name, arguments := s.options.map (·.argument) } := by
  rw [command, assembly_eq]
  exact (Assembly.finish_addAll_eq_ok_iff name s.options _).mpr ⟨admissible, rfl⟩

theorem admissible_of_command {s : Selection} {name : String} {c : Command}
    (assembled : s.command name = .ok c) :
    Admissible s.options ∧ c = { name, arguments := s.options.map (·.argument) } := by
  rw [command, assembly_eq] at assembled
  exact (Assembly.finish_addAll_eq_ok_iff name s.options c).mp assembled

/-- A selection gives a command exactly if its distinct declarations are admissible, and then the
command holds the arguments of these declarations, in order, and nothing else. -/
theorem command_eq_ok_iff (r : Registry) (tags : List String) (name : String) (c : Command) :
    (r.get tags).command name = .ok c ↔
      Admissible (r.get tags).options ∧
        c = { name, arguments := (r.get tags).options.map (·.argument) } := by
  constructor
  · exact admissible_of_command
  · rintro ⟨admissible, rfl⟩
    exact command_of_admissible admissible name

end Selection

end TaggedOptions
