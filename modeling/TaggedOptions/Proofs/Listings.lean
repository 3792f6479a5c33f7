import Mathlib
import TaggedOptions.Proofs.Assembling
import TaggedOptions.Registry.Listing

/-! # Listings and commands

The rows of a listing and the arguments of a command come from the same declarations by two
translations that know nothing of each other, and only the command leaves out repeated options.  For
every selection that can be assembled they agree: the first rows of its options tell, in order, what
the arguments are called, what they do, and what stands in for them.
-/

namespace TaggedOptions

/-! ## What a row tells of an argument -/

/-- The argument is named by these spellings: its long names are those with two dashes, its short
names those with one, each in the order written, and it goes by position if there is a bare word. -/
structure Argument.SpelledBy (a : Argument) (spellings : List String) : Prop where
  legal : ∀ s ∈ spellings, LegalSpelling s
  longs : spellings.filter (fun s => (longName? s).isSome) =
    (a.long.toList ++ a.aliases).map ("--" ++ ·)
  shorts : spellings.filter (fun s => (shortLetter? s).isSome) =
    (a.short.toList ++ a.shortAliases).map fun letter => String.ofList ['-', letter]
  word : (∃ s ∈ spellings, isBareWord s = true) ↔ a.isPositional = true

structure Row.Describes (row : Row) (a : Argument) : Prop where
  dest : row.dest = a.id
  required : row.required = a.required
  action : row.action = "store_true" ↔ a.reaction = .flag
  default : row.default = a.default.getD ""
  spellings : ∃ spellings, row.spellings = ", ".intercalate spellings ∧ a.SpelledBy spellings

theorem filter_isSome_eq_map {α β : Type} {f : α → Option β} {g : β → α}
    (inverse : ∀ x y, f x = some y → x = g y) (xs : List α) :
    xs.filter (fun x => (f x).isSome) = (xs.filterMap f).map g := by
  induction xs with
  | nil => rfl
  | cons x xs ih =>
    cases found : f x with
    | none => simp [found, ih]
    | some y => simp [found, ih, ← inverse x y found]

namespace Declaration

variable {d : Declaration}

/-- The argument of a declaration is named by the spellings that its author wrote. -/
theorem WellSpelled.argument_spelledBy (h : d.WellSpelled) : d.argument.SpelledBy d.spellings := by
  have longs : d.argument.long.toList ++ d.argument.aliases = d.longNames := by
    change d.longNames.head?.toList ++ d.longNames.tail = _
    cases d.longNames <;> rfl
  have shorts : d.argument.short.toList ++ d.argument.shortAliases = d.shortLetters := by
    change d.shortLetters.head?.toList ++ d.shortLetters.tail = _
    cases d.shortLetters <;> rfl
  refine ⟨h.legal, ?_, ?_, ?_⟩
  · rw [longs]
    exact filter_isSome_eq_map (fun _ _ => eq_of_longName?) d.spellings
  · rw [shorts]
    exact filter_isSome_eq_map (fun _ _ => eq_of_shortLetter?) d.spellings
  · rw [h.argument_isPositional, isPositional, List.any_eq_true]

/-- The row of a declaration tells of the argument that the declaration describes. -/
theorem WellSpelled.row_describes (h : d.WellSpelled) :
    (Row.ofDeclaration d).Describes d.argument where
  dest := rfl
  required := rfl
  action := by
    rw [argument_reaction_eq_flag_iff]
    change d.directives.action.word = "store_true" ↔ _
    cases d.directives.action <;> simp [Action.word]
  default := rfl
  spellings := ⟨d.spellings, rfl, h.argument_spelledBy⟩

end Declaration

/-! ## Rows without repetitions -/

theorem eraseDupsBy_map {α β : Type} (r : β → β → Bool) (f : α → β) : ∀ xs : List α,
    (xs.map f).eraseDupsBy r = (xs.eraseDupsBy fun x y => r (f x) (f y)).map f
  | [] => rfl
  | x :: xs => by
    rw [List.map_cons, List.eraseDupsBy_cons, List.eraseDupsBy_cons, List.map_cons, List.filter_map]
    exact congrArg _ (eraseDupsBy_map r f _)
termination_by xs => xs.length
decreasing_by
  exact Nat.lt_succ_of_le (List.length_filter_le _ _)

namespace Selection

/-- The rows of a listing without those of repeated options: each option has its first row only. -/
def firstRows (s : Selection) : List Row :=
  ((s.entries.zip s.rows).eraseDupsBy fun a b => a.1.same b.1).map Prod.snd

theorem firstRows_eq (s : Selection) : s.firstRows = s.options.map Row.ofDeclaration := by
  have paired : s.entries.zip s.rows =
      s.entries.map fun e => (e, Row.ofDeclaration e.declaration) := by
    rw [rows, declarations, List.map_map]
    exact List.map_prod_left_eq_zip.symm
  rw [firstRows, paired, eraseDupsBy_map, options, List.map_map, List.map_map]
  rfl

/-- The first rows of the options in a listing describe the arguments of the command, one to one and
in order. -/
theorem firstRows_describe_arguments (r : Registry) (tags : List String) (name : String)
    {c : Command} (assembled : (r.get tags).command name = .ok c) :
    List.Forall₂ Row.Describes (r.get tags).firstRows c.arguments := by
  obtain ⟨admissible, rfl⟩ := admissible_of_command assembled
  rw [firstRows_eq, List.forall₂_map_left_iff, List.forall₂_map_right_iff, List.forall₂_same]
  intro d selected
  exact (admissible.valid d selected).toWellSpelled.row_describes

/-- An option of two stages that are both requested: its second row describes no argument. -/
theorem firstRows_describe_arguments_two_stages :
    let output : Declaration :=
      { spellings := ["--out", "-o", "--output-dir"]
        directives := { valueType := .abspath, default := some (.path "gen") }
        tags := .ofList ["ql", "trap"] }
    let verbose : Declaration :=
      { spellings := ["-v"], directives := { action := .storeTrue }, tags := .ofList ["trap"] }
    let target : Declaration := { spellings := ["target"], directives := { required := true } }
    let selection := (Registry.empty.registerAll [output, verbose, target]).get ["ql", "trap"]
    selection.rows.map (·.dest) = ["target", "out", "out", "v"] ∧
      ∃ c, selection.command "codegen" = .ok c ∧ c.arguments.length = 3 ∧
        List.Forall₂ Row.Describes selection.firstRows c.arguments := by
  intro output verbose target selection
  have assembled : selection.command "codegen" =
      .ok { name := "codegen", arguments := selection.options.map (·.argument) } := by
    decide +kernel
  exact ⟨by decide +kernel, _, assembled, by decide +kernel,
    firstRows_describe_arguments (Registry.empty.registerAll [output, verbose, target])
      ["ql", "trap"] "codegen" assembled⟩

end Selection

end TaggedOptions
