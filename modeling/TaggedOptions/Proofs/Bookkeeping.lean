import Mathlib
import TaggedOptions.Proofs.Acceptance

/-! # The bookkeeping of an assembly

An assembly keeps the names in use up to date as declarations are added, from the spellings of each
declaration; starting from a command, it collects them from the arguments.  Both give the same: at
every point of a run the names in use are those of the command built so far.  So it makes no
difference whether a run goes on or a new one starts from its command.
-/

namespace TaggedOptions

namespace Reserved

structure Describes (r : Reserved) (c : Command) : Prop where
  ids : ∀ id, id ∈ r.ids ↔ id = "help" ∨ ∃ a ∈ c.arguments, a.id = id
  longs : ∀ name, name ∈ r.longs ↔ name = "help" ∨
    ∃ a ∈ c.arguments, a.long = some name ∨ name ∈ a.aliases ∨ name ∈ a.hiddenAliases
  shorts : ∀ letter, letter ∈ r.shorts ↔ letter = 'h' ∨
    ∃ a ∈ c.arguments, a.short = some letter ∨ letter ∈ a.shortAliases ∨
      letter ∈ a.hiddenShortAliases
  optionalPositional : r.optionalPositional = true ↔
    ∃ a ∈ c.arguments, a.isPositional = true ∧ a.required = false

/-- Taking the names of arguments one after the other collects them in order. -/
theorem foldl_add (r : Reserved) (args : List Argument) :
    args.foldl add r =
      ⟨r.ids ++ args.map (·.id), r.longs ++ args.flatMap (·.longs),
        r.shorts ++ args.flatMap (·.shorts),
        r.optionalPositional || args.any fun a => a.isPositional && !a.required⟩ := by
  induction args generalizing r with
  | nil => simp
  | cons a rest ih => simp [ih, add, Bool.or_assoc]

@[simp] theorem ofCommand_ids (c : Command) :
    (ofCommand c).ids = "help" :: c.arguments.map (·.id) := by
  simp [ofCommand, foldl_add, initial]

@[simp] theorem ofCommand_longs (c : Command) :
    (ofCommand c).longs = "help" :: c.arguments.flatMap (·.longs) := by
  simp [ofCommand, foldl_add, initial]

@[simp] theorem ofCommand_shorts (c : Command) :
    (ofCommand c).shorts = 'h' :: c.arguments.flatMap (·.shorts) := by
  simp [ofCommand, foldl_add, initial]

@[simp] theorem ofCommand_optionalPositional (c : Command) :
    (ofCommand c).optionalPositional =
      c.arguments.any fun a => a.isPositional && !a.required := by
  simp [ofCommand, foldl_add, initial]

theorem ofCommand_push (c : Command) (a : Argument) :
    ofCommand (c.push a) = (ofCommand c).add a := by
  simp [ofCommand, List.foldl_append]

theorem ofCommand_describes (c : Command) : (ofCommand c).Describes c where
  ids id := by simp
  longs name := by simp [Argument.longs]
  shorts letter := by simp [Argument.shorts]
  optionalPositional := by simp

end Reserved

namespace Assembly

/-- The names in use are what collecting them from the command would give. -/
def Tracks (a : Assembly) : Prop := a.reserved = .ofCommand a.command

theorem ofCommand_tracks (c : Command) : (ofCommand c).Tracks := rfl

theorem Tracks.push {a : Assembly} (h : a.Tracks) (argument : Argument) :
    (a.push argument).Tracks := by
  change a.reserved.add argument = .ofCommand (a.command.push argument)
  rw [Reserved.ofCommand_push, show a.reserved = .ofCommand a.command from h]

theorem Tracks.addAll {a : Assembly} (h : a.Tracks) (ds : List Declaration) :
    (a.addAll ds).Tracks :=
  addAll_induction (fun _ d _ _ tracks => tracks.push d.argument) (fun _ _ tracks => tracks) ds h

/-- An assembly without rejections that tracks its command is a fresh start from it. -/
theorem Tracks.eq_ofCommand {a : Assembly} (h : a.Tracks) (accepted : a.errors = []) :
    a = ofCommand a.command := by
  obtain ⟨command, reserved, rejections⟩ := a
  have noRejection : rejections = [] := List.map_eq_nil_iff.mp accepted
  change reserved = .ofCommand command at h
  subst noRejection h
  rfl

/-- At every point of a run the names in use are exactly those of the command built so far.  So, if
some declarations are all accepted, adding others behind them in the same run or in a new run from
the finished command makes no difference. -/
theorem bookkeeping_eq_rebuilt (c : Command) :
    (∀ ds : List Declaration,
      let a := (ofCommand c).addAll ds
      a.reserved = .ofCommand a.command ∧ a.reserved.Describes a.command) ∧
    ∀ first second : List Declaration, ((ofCommand c).addAll first).errors = [] →
      ∃ finished, ((ofCommand c).addAll first).finish = .ok finished ∧
        (((ofCommand c).addAll first).addAll second).command =
          ((ofCommand finished).addAll second).command ∧
        (((ofCommand c).addAll first).addAll second).errors =
          ((ofCommand finished).addAll second).errors := by
  constructor
  · intro ds a
    have tracks : a.Tracks := (ofCommand_tracks c).addAll ds
    refine ⟨tracks, ?_⟩
    rw [tracks]
    exact Reserved.ofCommand_describes a.command
  · intro first second accepted
    have fresh := ((ofCommand_tracks c).addAll first).eq_ofCommand accepted
    refine ⟨((ofCommand c).addAll first).command, ?_, ?_, ?_⟩
    · simp only [finish, accepted]
    · rw [← fresh]
    · rw [← fresh]

/-- A second long flag is in use as well, whether the run goes on or starts again. -/
theorem bookkeeping_eq_rebuilt_second_name :
    let a := (new "build").addAll [⟨["--output", "--out"], {}, .empty⟩]
    ∃ finished, a.finish = .ok finished ∧
      ((ofCommand finished).addAll [⟨["--out", "-o"], {}, .empty⟩]).errors = [.longTaken "out"] := by
  intro a
  obtain ⟨finished, ended, _, same⟩ := (bookkeeping_eq_rebuilt { name := "build" }).2
    [⟨["--output", "--out"], {}, .empty⟩] [⟨["--out", "-o"], {}, .empty⟩] (by decide)
  refine ⟨finished, ended, ?_⟩
  rw [← same]
  decide

end Assembly

end TaggedOptions
