import Mathlib
import TaggedOptions.Proofs.Bookkeeping

/-! # Unambiguous commands

A command is well formed if every id, long name and short name belongs to one argument only, none of
them to the help flag, and no required word is expected behind an optional one.  Appending an
argument keeps a command well formed exactly if the names in use admit the argument; so assembling
never makes an ambiguous command out of an unambiguous one.
-/

namespace TaggedOptions

/-- No two arguments share an id, a long name or a short name, the names of the help flag are left
alone, and no required positional argument comes behind an optional one. -/
structure Command.WellFormed (c : Command) : Prop where
  ids : ("help" :: c.arguments.map (·.id)).Nodup
  longs : ("help" :: c.arguments.flatMap (·.longs)).Nodup
  shorts : ('h' :: c.arguments.flatMap (·.shorts)).Nodup
  order : c.arguments.Pairwise fun a b =>
    a.isPositional = true → a.required = false → b.isPositional = true → b.required = false

theorem nodup_append_iff_free {α : Type} {used names : List α} :
    (used ++ names).Nodup ↔ used.Nodup ∧ names.Nodup ∧ ∀ x ∈ names, x ∉ used := by
  rw [List.nodup_append]
  constructor
  · rintro ⟨left, right, apart⟩
    exact ⟨left, right, fun x member taken => apart x taken x member rfl⟩
  · rintro ⟨left, right, free⟩
    exact ⟨left, right, fun x taken y member same => free y member (same ▸ taken)⟩

namespace Command

/-- Well-formedness is a matter of the names in use and of the order. -/
theorem wellFormed_iff {c : Command} :
    c.WellFormed ↔ (Reserved.ofCommand c).ids.Nodup ∧ (Reserved.ofCommand c).longs.Nodup ∧
      (Reserved.ofCommand c).shorts.Nodup ∧ c.arguments.Pairwise fun a b =>
        a.isPositional = true → a.required = false → b.isPositional = true →
          b.required = false := by
  rw [Reserved.ofCommand_ids, Reserved.ofCommand_longs, Reserved.ofCommand_shorts]
  constructor
  · intro h
    exact ⟨h.ids, h.longs, h.shorts, h.order⟩
  · rintro ⟨ids, longs, shorts, order⟩
    exact ⟨ids, longs, shorts, order⟩

/-- Appending an argument keeps a command well formed exactly if the names in use admit it. -/
theorem wellFormed_push_iff {c : Command} {a : Argument} :
    (c.push a).WellFormed ↔ c.WellFormed ∧ (Reserved.ofCommand c).Admits a := by
  have ids : ((Reserved.ofCommand c).add a).ids.Nodup ↔
      (Reserved.ofCommand c).ids.Nodup ∧ a.id ∉ (Reserved.ofCommand c).ids := by
    simp only [Reserved.add, nodup_append_iff_free, List.nodup_singleton, List.mem_singleton,
      forall_eq, true_and]
  have behind : (∀ b ∈ c.arguments, b.isPositional = true → b.required = false →
        a.isPositional = true → a.required = false) ↔
      ((Reserved.ofCommand c).optionalPositional = true →
        a.isPositional = true → a.required = false) := by
    rw [Reserved.ofCommand_optionalPositional, List.any_eq_true]
    constructor
    · rintro each ⟨b, member, optional⟩
      simp only [Bool.and_eq_true, Bool.not_eq_true'] at optional
      exact each b member optional.1 optional.2
    · intro all b member positional optional
      exact all ⟨b, member, by simp [positional, optional]⟩
  rw [wellFormed_iff, wellFormed_iff, Reserved.ofCommand_push, ids, Command.push_arguments,
    List.pairwise_append]
  simp only [Reserved.add, nodup_append_iff_free, List.pairwise_singleton, List.mem_singleton,
    forall_eq, true_and, behind]
  constructor
  · rintro ⟨⟨ids, id⟩, ⟨longs, long⟩, ⟨shorts, short⟩, order, last⟩
    exact ⟨⟨ids, longs, shorts, order⟩, id, long, short, last⟩
  · rintro ⟨⟨ids, longs, shorts, order⟩, admits⟩
    exact ⟨⟨ids, admits.id⟩, ⟨longs, admits.longs⟩, ⟨shorts, admits.shorts⟩, order, admits.order⟩

/-- A command is no more ambiguous than what it is extended to. -/
theorem WellFormed.of_extend {c : Command} {added : List Argument} (h : (c.extend added).WellFormed) :
    c.WellFormed := by
  induction added using List.reverseRecOn with
  | nil => rwa [extend_nil] at h
  | append_singleton rest a ih =>
    rw [← extend_push, wellFormed_push_iff] at h
    exact ih h.1

instance (c : Command) : Decidable c.WellFormed := decidable_of_iff _ wellFormed_iff.symm

end Command

/-! ## What a run adds -/

namespace Declaration

/-- The argument of a valid declaration takes a value if it is positional. -/
theorem WellSpelled.stores_of_isPositional {d : Declaration} (h : d.WellSpelled)
    (positional : d.argument.isPositional = true) : d.directives.action = .store := by
  rw [h.argument_isPositional] at positional
  obtain ⟨s, member, word⟩ := List.any_eq_true.mp positional
  exact (h.alone s member word).2

theorem argument_reaction_eq_flag_iff {d : Declaration} :
    d.argument.reaction = .flag ↔ d.directives.action = .storeTrue := by
  change d.directives.reaction = .flag ↔ _
  unfold Directives.reaction
  cases d.directives.action <;> cases d.directives.valueType <;> simp

end Declaration

/-- An argument that can come from a declaration: a positional one is no flag, and what has to be
given has no default. -/
def Argument.Sensible (a : Argument) : Prop :=
  (a.isPositional = true → a.reaction ≠ .flag) ∧ ¬ (a.required = true ∧ a.default.isSome = true)

theorem Declaration.Valid.sensible {d : Declaration} (h : d.Valid) : d.argument.Sensible := by
  constructor
  · intro positional flag
    rw [argument_reaction_eq_flag_iff, h.stores_of_isPositional positional] at flag
    cases flag
  · rintro ⟨required, defaulted⟩
    simp [argument, h.undefaulted required] at defaulted

namespace Assembly

structure Extends (c : Command) (a : Assembly) : Prop where
  tracks : a.Tracks
  wellFormed : a.command.WellFormed
  added : ∃ added, a.command = c.extend added ∧ ∀ x ∈ added, x.Sensible

theorem Extends.push {c : Command} {a : Assembly} {d : Declaration} (h : Extends c a)
    (valid : d.Valid) (admits : a.reserved.Admits d.argument) : Extends c (a.push d.argument) where
  tracks := h.tracks.push d.argument
  wellFormed := by
    rw [h.tracks] at admits
    exact Command.wellFormed_push_iff.mpr ⟨h.wellFormed, admits⟩
  added := by
    obtain ⟨added, extended, sensible⟩ := h.added
    refine ⟨added ++ [d.argument], ?_, ?_⟩
    · change a.command.push d.argument = _
      rw [extended, Command.extend_push]
    · intro x member
      rcases List.mem_append.mp member with old | new
      · exact sensible x old
      · rw [List.mem_singleton.mp new]
        exact valid.sensible

/-- Whatever declarations are added to a well formed command, accepted or rejected, the command is
well formed, keeps its arguments in front, and gains no positional flag and no argument that is both
required and defaulted. -/
theorem wellFormed_addAll {c : Command} (h : c.WellFormed) (ds : List Declaration) :
    ((ofCommand c).addAll ds).command.WellFormed ∧
      ∃ added, ((ofCommand c).addAll ds).command = { c with arguments := c.arguments ++ added } ∧
        (∀ a ∈ added, a.isPositional = true → a.reaction ≠ .flag) ∧
        ∀ a ∈ added, ¬ (a.required = true ∧ a.default.isSome = true) := by
  have start : Extends c (ofCommand c) :=
    ⟨ofCommand_tracks c, h, [], by simp [ofCommand], by simp⟩
  have run : Extends c ((ofCommand c).addAll ds) :=
    addAll_induction (fun a d valid admits extended => extended.push valid admits)
      (fun a r extended => ⟨extended.tracks, extended.wellFormed, extended.added⟩) ds start
  obtain ⟨added, extended, sensible⟩ := run.added
  exact ⟨run.wellFormed, added, extended, fun a member => (sensible a member).1,
    fun a member => (sensible a member).2⟩

/-- A hidden alias of the first command is as much in use as a name that was just added. -/
theorem wellFormed_addAll_past_clashes :
    let c : Command :=
      { name := "build"
        arguments := [{ id := "output", long := some "output", hiddenAliases := ["out"] }] }
    let ds : List Declaration :=
      [⟨["--out"], {}, .empty⟩, ⟨["--jobs", "-j"], {}, .empty⟩, ⟨["--join", "-j"], {}, .empty⟩]
    let a := (ofCommand c).addAll ds
    a.errors = [.longTaken "out", .shortTaken 'j'] ∧ a.command.WellFormed := by
  intro c ds a
  exact ⟨by decide, (wellFormed_addAll (c := c) (by decide) ds).1⟩

end Assembly

end TaggedOptions
