import Mathlib
import TaggedOptions.Proofs.Spellings

/-! # When a declaration is accepted

`Reserved.Admits` says that an argument keeps clear of the names in use.  A declaration is turned
into an argument exactly if it is in order by itself and its argument is admitted; then the argument
is the one that the declaration describes, and its names are taken.  `Assembly.add_cases` says what
one added declaration can do to an assembly, and everything about longer runs follows from it.
-/

namespace TaggedOptions

/-! ## Names that are free -/

/-- No member is in use exactly if the members are distinct and none is among the used ones. -/
theorem firstTaken?_eq_none_iff {α : Type} [DecidableEq α] {used xs : List α} :
    firstTaken? used xs = none ↔ xs.Nodup ∧ ∀ x ∈ xs, x ∉ used := by
  induction xs generalizing used with
  | nil => simp [firstTaken?]
  | cons x rest ih =>
    by_cases taken : x ∈ used
    · simp [firstTaken?, taken]
    · simp only [firstTaken?, if_neg taken, ih, List.nodup_cons, List.mem_cons, forall_eq_or_imp,
        List.mem_append, List.not_mem_nil, or_false, not_or]
      constructor
      · rintro ⟨distinct, free⟩
        exact ⟨⟨fun member => (free x member).2 rfl, distinct⟩, taken, fun y hy => (free y hy).1⟩
      · rintro ⟨⟨fresh, distinct⟩, _, free⟩
        exact ⟨distinct, fun y hy => ⟨free y hy, fun same => fresh (same ▸ hy)⟩⟩

namespace Reserved

structure Admits (r : Reserved) (a : Argument) : Prop where
  id : a.id ∉ r.ids
  longs : a.longs.Nodup ∧ ∀ name ∈ a.longs, name ∉ r.longs
  shorts : a.shorts.Nodup ∧ ∀ letter ∈ a.shorts, letter ∉ r.shorts
  order : r.optionalPositional = true → a.isPositional = true → a.required = false

variable {r : Reserved} {d : Declaration} {read : List Spelling}

theorem clash?_eq_none_iff {id : String} :
    r.clash? id read = none ↔ id ∉ r.ids ∧
      ((read.filterMap Spelling.long?).Nodup ∧
        ∀ name ∈ read.filterMap Spelling.long?, name ∉ r.longs) ∧
      ((read.filterMap Spelling.short?).Nodup ∧
        ∀ letter ∈ read.filterMap Spelling.short?, letter ∉ r.shorts) := by
  rw [← firstTaken?_eq_none_iff, ← firstTaken?_eq_none_iff]
  unfold clash?
  by_cases taken : id ∈ r.ids
  · simp [taken]
  · cases longTaken : firstTaken? r.longs (read.filterMap Spelling.long?) with
    | some name => simp [taken]
    | none => simp [taken]

theorem directiveFault?_eq_none_iff {directives : Directives} :
    r.directiveFault? read directives = none ↔
      (read.any Spelling.isWord = true → directives.required = true →
        r.optionalPositional = false) ∧
      (directives.required = true → directives.default = none) := by
  unfold directiveFault?
  cases read.any Spelling.isWord <;> cases directives.required <;>
    cases r.optionalPositional <;> cases directives.default <;> simp

/-- The names that an accepted declaration takes are those that its argument has. -/
theorem take_eq_add (wellSpelled : d.WellSpelled) (finds : FindsAll read d.spellings) :
    r.take d.dest read d.directives.required = r.add d.argument := by
  simp [take, add, finds.longs, finds.shorts, finds.word, wellSpelled.argument_isPositional,
    Declaration.longNames, Declaration.shortLetters, Declaration.isPositional]

end Reserved

/-! ## Building an argument -/

section

variable {r : Reserved} {d : Declaration}

theorem argumentOf_eq {read : List Spelling} (finds : FindsAll read d.spellings) :
    argumentOf d.spellings read d.directives = d.argument := by
  simp only [argumentOf, finds.longs, finds.shorts]
  rfl

/-- A well spelled declaration has nothing against it exactly if its directives go together and its
argument is admitted. -/
theorem Reserved.admits_iff (r : Reserved) {read : List Spelling} (wellSpelled : d.WellSpelled)
    (finds : FindsAll read d.spellings) :
    r.directiveFault? read d.directives = none ∧ r.clash? d.dest read = none ↔
      (d.directives.required = true → d.directives.default = none) ∧ r.Admits d.argument := by
  rw [Reserved.directiveFault?_eq_none_iff, Reserved.clash?_eq_none_iff, finds.longs, finds.shorts,
    finds.word]
  have positional : d.argument.isPositional = d.spellings.any isBareWord :=
    wellSpelled.argument_isPositional
  constructor
  · rintro ⟨⟨order, undefaulted⟩, id, longs, shorts⟩
    refine ⟨undefaulted, id, ?_, ?_, ?_⟩
    · rw [Declaration.argument_longs]; exact longs
    · rw [Declaration.argument_shorts]; exact shorts
    · intro optional word
      by_contra required
      have := order (positional ▸ word) (by simpa using required)
      simp [optional] at this
  · rintro ⟨undefaulted, admits⟩
    refine ⟨⟨?_, undefaulted⟩, admits.id, ?_, ?_⟩
    · intro word required
      by_contra optional
      have := admits.order (by simpa using optional) (positional ▸ word)
      simp [required] at this
    · have := admits.longs
      rwa [Declaration.argument_longs] at this
    · have := admits.shorts
      rwa [Declaration.argument_shorts] at this

/-- A declaration becomes an argument exactly if it is in order by itself and its argument is
admitted. -/
theorem buildArgument_eq_ok_iff {built : Argument × Reserved} :
    buildArgument r d.spellings d.directives = .ok built ↔
      d.Valid ∧ r.Admits d.argument ∧ built = (d.argument, r.add d.argument) := by
  unfold buildArgument
  cases hread : readDeclaration d.spellings d.directives with
  | error e =>
    have illSpelled : ¬ d.WellSpelled := by
      intro h
      obtain ⟨read, hread'⟩ := readDeclaration_of_wellSpelled h
      rw [hread] at hread'
      cases hread'
    simp only [reduceCtorEq, false_iff, not_and]
    exact fun valid => absurd valid.toWellSpelled illSpelled
  | ok read =>
    obtain ⟨wellSpelled, finds⟩ := readDeclaration_ok hread
    have admits := r.admits_iff wellSpelled finds
    have dest : destination d.spellings d.directives = d.dest := rfl
    simp only [dest]
    rw [argumentOf_eq finds, Reserved.take_eq_add wellSpelled finds]
    cases hfault : r.directiveFault? read d.directives with
    | some fault =>
      simp only [hfault, reduceCtorEq, false_and, false_iff, not_and] at admits ⊢
      exact fun valid admitted => absurd admitted (admits valid.undefaulted)
    | none =>
      cases hclash : r.clash? d.dest read with
      | some e =>
        simp only [hclash, reduceCtorEq, and_false, false_iff, not_and] at admits ⊢
        exact fun valid admitted => absurd admitted (admits valid.undefaulted)
      | none =>
        obtain ⟨undefaulted, admitted⟩ := admits.mp ⟨hfault, hclash⟩
        simp only [Except.ok.injEq]
        constructor
        · intro h
          exact ⟨⟨wellSpelled, undefaulted⟩, admitted, h.symm⟩
        · intro h
          exact h.2.2.symm

end

/-! ## Adding declarations -/

namespace Command

def extend (c : Command) (added : List Argument) : Command :=
  { c with arguments := c.arguments ++ added }

def push (c : Command) (a : Argument) : Command := c.extend [a]

@[simp] theorem push_arguments (c : Command) (a : Argument) :
    (c.push a).arguments = c.arguments ++ [a] := rfl

@[simp] theorem extend_nil (c : Command) : c.extend [] = c := by simp [extend]

@[simp] theorem push_extend (c : Command) (a : Argument) (added : List Argument) :
    (c.push a).extend added = c.extend (a :: added) := by simp [extend, push]

theorem extend_push (c : Command) (added : List Argument) (a : Argument) :
    (c.extend added).push a = c.extend (added ++ [a]) := by simp [extend, push]

end Command

namespace Assembly

def push (a : Assembly) (argument : Argument) : Assembly :=
  { a with command := a.command.push argument, reserved := a.reserved.add argument }

def reject (a : Assembly) (r : Rejection) : Assembly :=
  { a with rejections := a.rejections ++ [r] }

/-- Adding a declaration appends the argument that it describes, or else records one rejection. -/
theorem add_cases (a : Assembly) (d : Declaration) :
    (d.Valid ∧ a.reserved.Admits d.argument ∧
      a.add d.spellings d.directives = a.push d.argument) ∨
    (¬ (d.Valid ∧ a.reserved.Admits d.argument) ∧
      ∃ e, a.add d.spellings d.directives = a.reject ⟨d.spellings, e⟩) := by
  unfold add
  cases hbuild : buildArgument a.reserved d.spellings d.directives with
  | ok built =>
    obtain ⟨valid, admits, rfl⟩ := buildArgument_eq_ok_iff.mp hbuild
    exact .inl ⟨valid, admits, rfl⟩
  | error e =>
    refine .inr ⟨?_, e, rfl⟩
    rintro ⟨valid, admits⟩
    rw [buildArgument_eq_ok_iff.mpr ⟨valid, admits, rfl⟩] at hbuild
    cases hbuild

@[simp] theorem addAll_nil (a : Assembly) : a.addAll [] = a := rfl

@[simp] theorem addAll_cons (a : Assembly) (d : Declaration) (ds : List Declaration) :
    a.addAll (d :: ds) = (a.add d.spellings d.directives).addAll ds := rfl

/-- What every step of adding a declaration preserves, a whole run preserves. -/
theorem addAll_induction {motive : Assembly → Prop}
    (push : ∀ (a : Assembly) (d : Declaration), d.Valid → a.reserved.Admits d.argument →
      motive a → motive (a.push d.argument))
    (reject : ∀ (a : Assembly) (r : Rejection), motive a → motive (a.reject r))
    {a : Assembly} (ds : List Declaration) (start : motive a) : motive (a.addAll ds) := by
  induction ds generalizing a with
  | nil => exact start
  | cons d ds ih =>
    rw [addAll_cons]
    apply ih
    rcases a.add_cases d with ⟨valid, admits, pushed⟩ | ⟨_, e, rejected⟩
    · rw [pushed]
      exact push a d valid admits start
    · rw [rejected]
      exact reject a _ start

end Assembly

end TaggedOptions
