import Mathlib
import TaggedOptions.Command.Reading

/-! # What is stored for an argument

A value is stored when an occurrence of its argument is complete, or at the end, when a default
stands in for it.  Either way it is of the kind that the argument keeps, and an argument that takes
one value gets one value.
-/

namespace TaggedOptions

/-! ## Values of an argument -/

def ValueKind.Makes : ValueKind → Value → Prop
  | .text, .text _ => True
  | .abspath, .path _ => True
  | .path, .path _ => True
  | _, _ => False

def Reaction.Keeps : Reaction → Value → Prop
  | .flag, .flag _ => True
  | .one kind, v => kind.Makes v
  | .many kind _, v => kind.Makes v
  | _, _ => False

section

variable {s : Surroundings}

theorem ValueKind.makes_of_read {kind : ValueKind} {arg raw : String} {v : Value}
    (h : kind.read s arg raw = .ok v) : kind.Makes v := by
  cases kind with
  | text =>
    cases h
    trivial
  | abspath =>
    simp only [read] at h
    cases resolved : s.absolute? raw with
    | none => simp [resolved] at h
    | some path =>
      simp only [resolved, Except.ok.injEq] at h
      subst h
      trivial
  | path =>
    simp only [read] at h
    split at h
    · cases h
    · cases h
      trivial

namespace Matches

theorem has_append (m : Matches) (id other : String) (values : List Value) :
    (m.append id values).has other = true ↔ m.has other = true ∨ id = other := by
  unfold append
  by_cases known : m.has id = true
  · rw [if_pos known]
    have kept : has (m.map fun x => if x.id = id then { x with values := x.values ++ values }
        else x) other = m.has other := by
      unfold has
      rw [List.any_map]
      congr 1
      funext x
      by_cases here : x.id = id <;> simp [here]
    rw [kept]
    constructor
    · exact .inl
    · rintro (old | rfl)
      · exact old
      · exact known
  · rw [if_neg known]
    simp [has]

end Matches

/-- What storing an occurrence does: it appends a value under the id of the argument. -/
theorem store_ok {found m : Matches} {a : Argument} {raws : List String}
    (h : store s found a raws = .ok m) :
    ∃ values, m = found.append a.id values ∧ (a.reaction.isMany = false →
      found.has a.id = false ∧ ∃ v, values = [v] ∧ a.reaction.Keeps v) := by
  unfold store at h
  cases reaction : a.reaction with
  | flag =>
    simp only [reaction] at h
    split at h
    · cases h
    next fresh =>
      cases h
      exact ⟨_, rfl, fun _ => ⟨by simpa using fresh, _, rfl, trivial⟩⟩
  | one kind =>
    simp only [reaction] at h
    cases raws with
    | nil => cases h
    | cons raw more =>
      simp only at h
      split at h
      · cases h
      next fresh =>
        cases made : kind.read s a.display raw with
        | error e => simp [made] at h
        | ok v =>
          simp only [made, Except.ok.injEq] at h
          exact ⟨[v], h.symm,
            fun _ => ⟨by simpa using fresh, v, rfl, ValueKind.makes_of_read made⟩⟩
  | many kind delimiter =>
    simp only [reaction] at h
    cases raws with
    | nil => cases h
    | cons raw more =>
      simp only at h
      split at h
      · cases h
      · cases h
        exact ⟨_, rfl, fun single => by cases single⟩
  | help => simp [reaction] at h
  | version => simp [reaction] at h

namespace Matches

/-- Every value is of the kind that an argument with its id keeps, and is the only one there. -/
def Typed (args : List Argument) (m : Matches) : Prop :=
  ∀ x ∈ m, ∃ a ∈ args, a.id = x.id ∧ ∃ v, x.values = [v] ∧ a.reaction.Keeps v

theorem Typed.append {args : List Argument} {m : Matches} (h : m.Typed args) {a : Argument}
    (member : a ∈ args) (fresh : m.has a.id = false) {v : Value} (keeps : a.reaction.Keeps v) :
    (m.append a.id [v]).Typed args := by
  intro x stored
  rw [Matches.append, if_neg (by simp [fresh])] at stored
  rcases List.mem_append.mp stored with old | new
  · exact h x old
  · rw [List.mem_singleton.mp new]
    exact ⟨a, member, rfl, v, rfl, keeps⟩

theorem mem_of_get?_eq_some {m : Matches} {id : String} {values : List Value}
    (h : m.get? id = some values) : ⟨id, values⟩ ∈ m := by
  obtain ⟨x, found, rfl⟩ := Option.map_eq_some_iff.mp h
  have same : x.id = id := by simpa using List.find?_some found
  rw [← same]
  exact List.mem_of_find?_eq_some found

theorem get?_eq_none_iff {m : Matches} {id : String} : m.get? id = none ↔ m.has id = false := by
  simp [get?, has]

end Matches

/-! ## Defaults -/

/-- The default of an argument that takes one value is one value, if there is any. -/
theorem defaultValues_ok {a : Argument} {values : List Value}
    (single : a.reaction.isMany = false) (h : defaultValues s a = .ok values) :
    values = [] ∨ ∃ v, values = [v] ∧ a.reaction.Keeps v := by
  unfold defaultValues at h
  cases reaction : a.reaction with
  | flag =>
    cases default : a.default with
    | none =>
      simp only [reaction, default, Except.ok.injEq] at h
      exact .inr ⟨_, h.symm, trivial⟩
    | some text =>
      simp only [reaction, default] at h
      split at h
      · cases h
        exact .inr ⟨_, rfl, trivial⟩
      · split at h
        · cases h
          exact .inr ⟨_, rfl, trivial⟩
        · cases h
  | one kind =>
    cases default : a.default with
    | none =>
      simp only [reaction, default, Except.ok.injEq] at h
      exact .inl h.symm
    | some text =>
      simp only [reaction, default, ValueKind.readAll] at h
      cases made : kind.read s a.display text with
      | error e => simp [made] at h
      | ok v =>
        simp only [made, Except.ok.injEq] at h
        exact .inr ⟨v, h.symm, ValueKind.makes_of_read made⟩
  | many kind delimiter => simp [reaction, Reaction.isMany] at single
  | help =>
    simp only [reaction, Except.ok.injEq] at h
    exact .inl h.symm
  | version =>
    simp only [reaction, Except.ok.injEq] at h
    exact .inl h.symm

/-- The first default is stored unless there is a value already or nothing stands in for one; then
come the others. -/
theorem fillDefaults_cons_eq_ok_iff {a : Argument} {rest : List Argument} {m filled : Matches} :
    fillDefaults s (a :: rest) m = .ok filled ↔
      ∃ next, fillDefaults s rest next = .ok filled ∧
        ((m.has a.id = true ∧ next = m) ∨
          (m.has a.id = false ∧ defaultValues s a = .ok [] ∧ next = m) ∨
          (m.has a.id = false ∧ ∃ v more, defaultValues s a = .ok (v :: more) ∧
            next = m.append a.id (v :: more))) := by
  rw [fillDefaults]
  cases m.has a.id with
  | true => simp
  | false =>
    cases defaultValues s a with
    | error e => simp
    | ok made => cases made <;> simp

/-- Storing the defaults adds values for those arguments that have a default and no value yet. -/
theorem fillDefaults_ok {args : List Argument} {m filled : Matches}
    (h : fillDefaults s args m = .ok filled) (id : String) :
    filled.has id = true ↔ m.has id = true ∨
      ∃ a ∈ args, a.id = id ∧ defaultValues s a ≠ .ok [] := by
  induction args generalizing m with
  | nil =>
    cases h
    simp
  | cons a rest ih =>
    simp only [List.mem_cons, exists_eq_or_imp]
    obtain ⟨next, later, ⟨known, rfl⟩ | ⟨_, nothing, rfl⟩ | ⟨_, v, more, values, rfl⟩⟩ :=
      fillDefaults_cons_eq_ok_iff.mp h
    · rw [ih later]
      constructor
      · rintro (old | later)
        · exact .inl old
        · exact .inr (.inr later)
      · rintro (old | ⟨rfl, _⟩ | later)
        · exact .inl old
        · exact .inl known
        · exact .inr later
    · rw [ih later]
      simp [nothing]
    · rw [ih later, Matches.has_append, or_assoc]
      simp [values]

theorem Matches.Typed.fillDefaults {all args : List Argument} {m filled : Matches}
    (single : ∀ a ∈ all, a.reaction.isMany = false) (subset : ∀ a ∈ args, a ∈ all)
    (start : m.Typed all) (h : fillDefaults s args m = .ok filled) : filled.Typed all := by
  induction args generalizing m with
  | nil =>
    cases h
    exact start
  | cons a rest ih =>
    rw [List.forall_mem_cons] at subset
    obtain ⟨next, later, ⟨_, rfl⟩ | ⟨_, _, rfl⟩ | ⟨fresh, v, more, values, rfl⟩⟩ :=
      fillDefaults_cons_eq_ok_iff.mp h
    · exact ih subset.2 start later
    · exact ih subset.2 start later
    · rcases defaultValues_ok (single a subset.1) values with nothing | ⟨_, only, keeps⟩
      · cases nothing
      · cases only
        exact ih subset.2 (start.append subset.1 fresh keeps) later

/-! ## Required arguments -/

theorem Command.missing_eq_nil_iff {c : Command} {given : Matches} : c.missing given = [] ↔
    ∀ a ∈ c.arguments, a.required = true → given.has a.id = true := by
  constructor
  · intro complete a member required
    by_contra absent
    have fresh : given.has a.id = false := by simpa using absent
    have missing : a ∈ c.missing given := by
      cases positional : a.isPositional <;> simp [missing, member, required, fresh, positional]
    rw [complete] at missing
    cases missing
  · intro complete
    have none : c.arguments.filter (fun a => a.required && !given.has a.id) = [] := by
      rw [List.filter_eq_nil_iff]
      intro a member
      simpa using complete a member
    simp only [missing, none, List.filter_nil, List.append_nil]

end

end TaggedOptions
