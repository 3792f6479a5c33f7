import Mathlib
import TaggedOptions.Proofs.Bookkeeping
import TaggedOptions.Proofs.Rejections

/-! # What an error says about a declaration

A declaration is checked for one fault after the other, and the first that is found is reported.
`BuildError.Holds` says what each error tells of the declaration and of the command that it was
meant for; every reported error tells the truth.  A clash is found by looking at the names in use,
so the step from these to the command is the bookkeeping of the assembly.
-/

namespace TaggedOptions

/-! ## Names of a command -/

namespace Command

def HasId (c : Command) (id : String) : Prop := id = "help" ∨ ∃ a ∈ c.arguments, a.id = id

def HasLong (c : Command) (name : String) : Prop :=
  name = "help" ∨
    ∃ a ∈ c.arguments, a.long = some name ∨ name ∈ a.aliases ∨ name ∈ a.hiddenAliases

def HasShort (c : Command) (letter : Char) : Prop :=
  letter = 'h' ∨
    ∃ a ∈ c.arguments, a.short = some letter ∨ letter ∈ a.shortAliases ∨
      letter ∈ a.hiddenShortAliases

end Command

def FirstTaken {α : Type} (taken : α → Prop) (xs : List α) (x : α) : Prop :=
  ∃ before after, xs = before ++ x :: after ∧ before.Nodup ∧ (∀ y ∈ before, ¬ taken y) ∧
    (taken x ∨ x ∈ before)

def DirectiveFault.Holds (c : Command) (d : Declaration) : DirectiveFault → Prop
  | .requiredAfterOptional =>
    d.isPositional = true ∧ d.directives.required = true ∧
      ∃ a ∈ c.arguments, a.isPositional = true ∧ a.required = false
  | .requiredWithDefault => d.directives.required = true ∧ d.directives.default ≠ none

/-- The error is true of a declaration that was meant for a command. -/
def BuildError.Holds (c : Command) (d : Declaration) : BuildError → Prop
  | .invalidSpelling option spelling _ =>
    option = d.spellings ∧ (spelling ∈ d.spellings ∨ d.spellings = [] ∧ spelling = "") ∧
      (d.spellings ≠ [] → (∀ s ∈ d.spellings, LegalSpelling s) →
        ∃ word ∈ d.spellings, isBareWord word = true ∧
          (d.spellings ≠ [word] ∨ d.directives.action = .storeTrue))
  | .unsupported option fault => option = d.spellings ∧ fault.Holds c d
  | .destinationTaken dest => dest = d.dest ∧ c.HasId dest
  | .longTaken name =>
    "--" ++ name ∈ d.spellings ∧ ¬ c.HasId d.dest ∧ FirstTaken c.HasLong d.longNames name
  | .shortTaken letter =>
    String.ofList ['-', letter] ∈ d.spellings ∧ ¬ c.HasId d.dest ∧
      (d.longNames.Nodup ∧ ∀ name ∈ d.longNames, ¬ c.HasLong name) ∧
      FirstTaken c.HasShort d.shortLetters letter

section

variable {c : Command} {d : Declaration} {e : BuildError}

/-! ## Spellings -/

theorem readSpellings_error {option spellings : List String}
    (h : readSpellings option spellings = .error e) :
    ∃ s ∈ spellings, ¬ LegalSpelling s ∧ ∃ fault, e = .invalidSpelling option s fault := by
  induction spellings with
  | nil => cases h
  | cons s rest ih =>
    rw [readSpellings] at h
    cases first : Spelling.ofString s with
    | error fault =>
      simp only [first, Except.error.injEq] at h
      refine ⟨s, by simp, fun legal => ?_, fault, h.symm⟩
      obtain ⟨p, readable⟩ := Spelling.ofString_of_legal legal
      rw [first] at readable
      cases readable
    | ok p =>
      cases later : readSpellings option rest with
      | error e' =>
        simp only [first, later, Except.error.injEq] at h
        subst h
        obtain ⟨t, member, illegal⟩ := ih later
        exact ⟨t, by simp [member], illegal⟩
      | ok ps => simp [first, later] at h

/-- A declaration that cannot be read has an illegal spelling, or else a bare word that does not
stand alone or takes no value. -/
theorem readDeclaration_error (h : readDeclaration d.spellings d.directives = .error e) :
    e.Holds c d := by
  obtain ⟨spellings, directives, tags⟩ := d
  cases spellings with
  | nil =>
    cases h
    simp [BuildError.Holds]
  | cons first others =>
    simp only [readDeclaration] at h
    cases hread : readSpellings (first :: others) (first :: others) with
    | error e' =>
      simp only [hread, Except.error.injEq] at h
      subst h
      obtain ⟨s, member, illegal, fault, rfl⟩ := readSpellings_error hread
      exact ⟨rfl, .inl member, fun _ legal => absurd (legal s member) illegal⟩
    | ok read =>
      simp only [hread] at h
      by_cases word : read.any Spelling.isWord = true
      · rw [(readSpellings_ok hread).2.word] at word
        obtain ⟨w, member, bare⟩ := List.any_eq_true.mp word
        rw [(readSpellings_ok hread).2.word, if_pos word] at h
        cases others with
        | cons second rest =>
          cases h
          exact ⟨rfl, .inl (by simp), fun _ _ => ⟨w, member, bare, .inl (by simp)⟩⟩
        | nil =>
          by_cases valueless : directives.action = .storeTrue
          · simp only [valueless, if_true, Except.error.injEq] at h
            subst h
            exact ⟨rfl, .inl (by simp), fun _ _ => ⟨w, member, bare, .inr valueless⟩⟩
          · simp [valueless] at h
      · simp [word] at h

/-! ## Directives and names in use -/

theorem firstTaken_of_firstTaken? {α : Type} [DecidableEq α] {used xs : List α} {x : α}
    (h : firstTaken? used xs = some x) : FirstTaken (· ∈ used) xs x := by
  induction xs generalizing used with
  | nil => cases h
  | cons y rest ih =>
    by_cases taken : y ∈ used
    · simp only [firstTaken?, if_pos taken, Option.some.injEq] at h
      subst h
      exact ⟨[], rest, by simp [taken]⟩
    · simp only [firstTaken?, if_neg taken] at h
      -- behind `y` the check counts `y` as used, here it is one of the names before
      obtain ⟨before, after, rfl, distinct, free, found⟩ := ih h
      simp only [List.mem_append, List.mem_singleton, not_or] at free found
      refine ⟨y :: before, after, rfl, ?_, ?_, ?_⟩
      · rw [List.nodup_cons]
        exact ⟨fun repeated => (free y repeated).2 rfl, distinct⟩
      · simpa [taken] using fun z member => (free z member).1
      · simpa [or_assoc] using found

theorem FirstTaken.mem {α : Type} {taken : α → Prop} {xs : List α} {x : α}
    (h : FirstTaken taken xs x) : x ∈ xs := by
  obtain ⟨before, after, rfl, _⟩ := h
  simp

namespace Reserved.Describes

variable {r : Reserved} {read : List Spelling}

theorem directiveFault_holds (describes : r.Describes c) (finds : FindsAll read d.spellings)
    {fault : DirectiveFault} (h : r.directiveFault? read d.directives = some fault) :
    fault.Holds c d := by
  unfold directiveFault? at h
  split at h
  next late =>
    cases h
    simp only [Bool.and_eq_true, finds.word] at late
    exact ⟨late.1.1, late.1.2, describes.optionalPositional.mp late.2⟩
  · split at h
    next defaulted =>
      cases h
      simp only [Bool.and_eq_true, Option.isSome_iff_ne_none] at defaulted
      exact defaulted
    · cases h

/-- The names in use are those of the command, so what clashes with them clashes with it. -/
theorem clash_holds (describes : r.Describes c) (finds : FindsAll read d.spellings)
    (h : r.clash? d.dest read = some e) : e.Holds c d := by
  have usedLongs : (· ∈ r.longs) = c.HasLong := funext fun name => propext (describes.longs name)
  have usedShorts : (· ∈ r.shorts) = c.HasShort :=
    funext fun letter => propext (describes.shorts letter)
  have longs : read.filterMap Spelling.long? = d.longNames := finds.longs
  have shorts : read.filterMap Spelling.short? = d.shortLetters := finds.shorts
  rw [Reserved.clash?, longs, shorts] at h
  by_cases taken : d.dest ∈ r.ids
  · simp only [if_pos taken, Option.some.injEq] at h
    subst h
    exact ⟨rfl, (describes.ids d.dest).mp taken⟩
  · have destFree : ¬ c.HasId d.dest := mt (describes.ids d.dest).mpr taken
    rw [if_neg taken] at h
    cases long : firstTaken? r.longs d.longNames with
    | some name =>
      simp only [long, Option.some.injEq] at h
      subst h
      have first := firstTaken_of_firstTaken? long
      obtain ⟨s, member, named⟩ := List.mem_filterMap.mp first.mem
      exact ⟨eq_of_longName? named ▸ member, destFree, usedLongs ▸ first⟩
    | none =>
      have longsFree := firstTaken?_eq_none_iff.mp long
      simp only [long, Option.map_eq_some_iff] at h
      obtain ⟨letter, short, rfl⟩ := h
      have first := firstTaken_of_firstTaken? short
      obtain ⟨s, member, named⟩ := List.mem_filterMap.mp first.mem
      exact ⟨eq_of_shortLetter? named ▸ member, destFree, usedLongs ▸ longsFree, usedShorts ▸ first⟩

end Reserved.Describes

end

/-- A declaration is refused with an error that is true of it and of the command, as long as the
names in use are those of the command. -/
theorem buildArgument_error {r : Reserved} {c : Command} {d : Declaration} {e : BuildError}
    (describes : r.Describes c) (h : buildArgument r d.spellings d.directives = .error e) :
    e.Holds c d := by
  unfold buildArgument at h
  cases hread : readDeclaration d.spellings d.directives with
  | error e' =>
    simp only [hread, Except.error.injEq] at h
    subst h
    exact readDeclaration_error hread
  | ok read =>
    have finds := (readDeclaration_ok hread).2
    simp only [hread] at h
    cases hfault : r.directiveFault? read d.directives with
    | some fault =>
      simp only [hfault, Except.error.injEq] at h
      subst h
      exact ⟨rfl, describes.directiveFault_holds finds hfault⟩
    | none =>
      simp only [hfault] at h
      cases hclash : r.clash? (destination d.spellings d.directives) read with
      | some e' =>
        simp only [hclash, Except.error.injEq] at h
        subst h
        exact describes.clash_holds finds hclash
      | none => simp [hclash] at h

theorem Call.Rejected.buildArgument_eq {call : Call} {e : BuildError} (h : call.Rejected e) :
    buildArgument call.before.reserved call.declaration.spellings call.declaration.directives =
      .error e := by
  have errors := h.errors
  unfold Call.after Assembly.add at errors
  split at errors
  · simp [Assembly.errors] at errors
  next fault built =>
    rw [built]
    simpa [Assembly.errors] using errors

namespace Assembly

/-- Whatever was added before, the error of a rejected declaration is true of it and of the command
built so far. -/
theorem rejected_error_holds (c : Command) (ds : List Declaration) (d : Declaration)
    {e : BuildError} (rejected : (⟨(ofCommand c).addAll ds, d⟩ : Call).Rejected e) :
    e.Holds ((ofCommand c).addAll ds).command d := by
  have tracks : ((ofCommand c).addAll ds).Tracks := (ofCommand_tracks c).addAll ds
  have describes := Reserved.ofCommand_describes ((ofCommand c).addAll ds).command
  rw [← tracks] at describes
  exact buildArgument_error describes rejected.buildArgument_eq

/-- Of three faults the first long flag in use is reported, a hidden alias that the command came
with: not the flag that is repeated behind it, and not the short flag in use. -/
theorem rejected_error_holds_hidden_alias :
    let c : Command :=
      { name := "build"
        arguments := [{ id := "output", long := some "output", hiddenAliases := ["out"] }] }
    let a := (ofCommand c).addAll [⟨["--jobs", "-j"], {}, .empty⟩]
    let d : Declaration := ⟨["-j", "--target", "--out", "--target"], {}, .empty⟩
    (⟨a, d⟩ : Call).Rejected (.longTaken "out") ∧ "--out" ∈ d.spellings ∧
      ¬ a.command.HasId "target" ∧
      FirstTaken a.command.HasLong ["target", "out", "target"] "out" := by
  intro c a d
  have rejected : (⟨a, d⟩ : Call).Rejected (.longTaken "out") := ⟨by decide, by decide, by decide⟩
  obtain ⟨spelled, free, first⟩ :=
    rejected_error_holds c [⟨["--jobs", "-j"], {}, .empty⟩] d rejected
  have dest : d.dest = "target" := by decide
  have longs : d.longNames = ["target", "out", "target"] := by decide
  rw [dest] at free
  rw [longs] at first
  exact ⟨rejected, spelled, free, first⟩

end Assembly

end TaggedOptions
