import Mathlib
import TaggedOptions.Command.Answers
import TaggedOptions.Proofs.Spellings

/-! # Texts and values

An option keeps a value of the text that it is given, or of the text that stands in for it.  This
module says which texts an option accepts, what it keeps of them and what is read back; the
functions that store, default and read back values agree on it for every declared option.
-/

namespace TaggedOptions

namespace Directives

def Accepts (d : Directives) (text : String) : Prop :=
  match d.action, d.valueType with
  | .storeTrue, _ => text = "true" ∨ text = "false"
  | .store, .text => True
  | .store, .abspath => text ≠ ""

instance (d : Directives) (text : String) : Decidable (d.Accepts text) := by
  unfold Accepts
  cases d.action <;> cases d.valueType <;> infer_instance

def AcceptsDefault (d : Directives) : Prop := ∀ v ∈ d.default, d.Accepts v.toText

instance (d : Directives) : Decidable d.AcceptsDefault :=
  inferInstanceAs (Decidable (∀ v ∈ d.default, d.Accepts v.toText))

def value (s : Surroundings) (d : Directives) (text : String) : Value :=
  match d.action, d.valueType with
  | .storeTrue, _ => .flag (text = "true")
  | .store, .text => .text text
  | .store, .abspath => .path (s.place text).toText

def standIn (d : Directives) : Option String :=
  (d.default.map DefaultValue.toText).or (if d.action = .storeTrue then some "false" else none)

/-- What is answered for an option that got a text: a path is made absolute. -/
def shown? (s : Surroundings) (d : Directives) (text : String) : Option String :=
  if d.action = .store ∧ d.valueType = .abspath then s.absolute? text else some text

variable {s : Surroundings} {d : Directives} {text : String}

theorem standIn_accepted (h : d.AcceptsDefault) (stands : d.standIn = some text) :
    d.Accepts text := by
  unfold standIn at stands
  cases default : d.default with
  | some v =>
    simp only [default, Option.map_some, Option.some_or, Option.some.injEq] at stands
    exact stands ▸ h v default
  | none =>
    simp only [default, Option.map_none, Option.none_or] at stands
    cases action : d.action with
    | store => simp [action] at stands
    | storeTrue =>
      simp only [action, if_true, Option.some.injEq] at stands
      simp [Accepts, action, ← stands]

/-- What is read back is what the accepted text shows. -/
theorem readBack?_value (accepts : d.Accepts text) :
    d.readBack? (d.value s text) = d.shown? s text := by
  unfold Accepts at accepts
  cases action : d.action with
  | storeTrue =>
    simp only [action] at accepts
    rcases accepts with rfl | rfl <;> simp [readBack?, value, shown?, action, Value.flag?]
  | store =>
    cases valueType : d.valueType with
    | text => simp [readBack?, value, shown?, action, valueType, Value.text?]
    | abspath =>
      simp only [action, valueType] at accepts
      simp [readBack?, value, shown?, action, valueType, Value.path?, Surroundings.absolute?,
        accepts]

/-- Reading an accepted text gives what the option keeps of it. -/
theorem read_of_accepts {kind : ValueKind} (takes : d.reaction = .one kind)
    (accepts : d.Accepts text) (arg : String) :
    kind.read s arg text = .ok (d.value s text) := by
  unfold Accepts at accepts
  unfold reaction at takes
  cases action : d.action with
  | storeTrue => simp [action] at takes
  | store =>
    cases valueType : d.valueType with
    | text =>
      simp only [action, valueType, Reaction.one.injEq] at takes
      subst takes
      simp [ValueKind.read, value, action, valueType]
    | abspath =>
      simp only [action, valueType, Reaction.one.injEq] at takes accepts
      subst takes
      simp [ValueKind.read, value, action, valueType, Surroundings.absolute?, accepts]

/-- Whatever is read was accepted. -/
theorem accepts_of_read {kind : ValueKind} (takes : d.reaction = .one kind) {arg : String}
    {v : Value} (h : kind.read s arg text = .ok v) : d.Accepts text ∧ v = d.value s text := by
  have accepts : d.Accepts text := by
    unfold reaction at takes
    unfold Accepts
    cases action : d.action with
    | storeTrue => simp [action] at takes
    | store =>
      cases valueType : d.valueType with
      | text => trivial
      | abspath =>
        simp only [action, valueType, Reaction.one.injEq] at takes
        subst takes
        rintro rfl
        cases h
  rw [read_of_accepts takes accepts arg] at h
  cases h
  exact ⟨accepts, rfl⟩

theorem reaction_of_storeTrue (h : d.action = .storeTrue) : d.reaction = .flag := by
  simp [reaction, h]

theorem exists_reaction_of_store (h : d.action = .store) : ∃ kind, d.reaction = .one kind := by
  unfold reaction
  cases valueType : d.valueType with
  | text => exact ⟨.text, by simp [h]⟩
  | abspath => exact ⟨.abspath, by simp [h]⟩

end Directives

namespace Declaration

variable {s : Surroundings} {d : Declaration} {text : String} {found : Matches}

/-! ## Storing -/

theorem store_flag (flag : d.directives.action = .storeTrue) (fresh : found.has d.dest = false) :
    store s found d.argument [] =
      .ok (found.append d.dest [d.directives.value s "true"]) := by
  have reaction : d.argument.reaction = .flag := Directives.reaction_of_storeTrue flag
  simp [store, reaction, fresh, Directives.value, flag]

theorem store_value (takes : d.directives.action = .store) (accepts : d.directives.Accepts text)
    (fresh : found.has d.dest = false) :
    store s found d.argument [text] =
      .ok (found.append d.dest [d.directives.value s text]) := by
  obtain ⟨kind, reaction⟩ := Directives.exists_reaction_of_store takes
  have same : d.argument.reaction = .one kind := reaction
  simp [store, same, fresh, Directives.read_of_accepts reaction accepts]

/-- What is stored for an option is what it keeps of a text that it accepts. -/
theorem store_argument_ok {raws : List String} {m : Matches}
    (h : store s found d.argument raws = .ok m) :
    found.has d.dest = false ∧ ∃ text, d.directives.Accepts text ∧
      m = found.append d.dest [d.directives.value s text] := by
  unfold store at h
  cases action : d.directives.action with
  | storeTrue =>
    have reaction : d.argument.reaction = .flag := Directives.reaction_of_storeTrue action
    simp only [reaction] at h
    split at h
    · cases h
    next fresh =>
      cases h
      exact ⟨by simpa using fresh, "true", by simp [Directives.Accepts, action],
        by simp [Directives.value, action]⟩
  | store =>
    obtain ⟨kind, takes⟩ := Directives.exists_reaction_of_store action
    have reaction : d.argument.reaction = .one kind := takes
    simp only [reaction] at h
    cases raws with
    | nil => cases h
    | cons raw more =>
      simp only at h
      split at h
      · cases h
      next fresh =>
        cases read : kind.read s d.argument.display raw with
        | error e => simp [read] at h
        | ok v =>
          obtain ⟨accepts, rfl⟩ := Directives.accepts_of_read takes read
          simp only [read, Except.ok.injEq] at h
          exact ⟨by simpa using fresh, raw, accepts, h.symm⟩

/-! ## Standing in -/

/-- Whatever stands in for an option was accepted. -/
theorem acceptsDefault_of_defaultValues {values : List Value}
    (h : defaultValues s d.argument = .ok values) : d.directives.AcceptsDefault := by
  intro v given
  have default : d.argument.default = some v.toText := by
    change d.directives.default.map DefaultValue.toText = _
    rw [Option.mem_def.mp given, Option.map_some]
  unfold defaultValues at h
  rw [default] at h
  cases action : d.directives.action with
  | storeTrue =>
    have reaction : d.argument.reaction = .flag := Directives.reaction_of_storeTrue action
    simp only [reaction] at h
    simp only [Directives.Accepts, action]
    by_contra refused
    rw [not_or] at refused
    simp [refused.1, refused.2] at h
  | store =>
    obtain ⟨kind, takes⟩ := Directives.exists_reaction_of_store action
    have reaction : d.argument.reaction = .one kind := takes
    simp only [reaction, ValueKind.readAll] at h
    cases read : kind.read s d.argument.display v.toText with
    | error e => simp [read] at h
    | ok value => exact (Directives.accepts_of_read takes read).1

/-- An option that is not given gets what it keeps of the text that stands in for it. -/
theorem defaultValues_argument (accepted : d.directives.AcceptsDefault) :
    defaultValues s d.argument =
      .ok ((d.directives.standIn.map (d.directives.value s)).toList) := by
  have default : d.argument.default = d.directives.default.map DefaultValue.toText := rfl
  cases action : d.directives.action with
  | storeTrue =>
    have reaction : d.argument.reaction = .flag := Directives.reaction_of_storeTrue action
    cases given : d.directives.default with
    | none =>
      simp [defaultValues, reaction, default, given, Directives.standIn, Directives.value, action]
    | some v =>
      have accepts := accepted v given
      simp only [Directives.Accepts, action] at accepts
      rcases accepts with text | text <;>
        simp [defaultValues, reaction, default, given, Directives.standIn, Directives.value,
          action, text]
  | store =>
    obtain ⟨kind, takes⟩ := Directives.exists_reaction_of_store action
    have reaction : d.argument.reaction = .one kind := takes
    cases given : d.directives.default with
    | none => simp [defaultValues, reaction, default, given, Directives.standIn, action]
    | some v =>
      have read := Directives.read_of_accepts (s := s) takes (accepted v given) d.argument.display
      simp [defaultValues, reaction, default, given, Directives.standIn, ValueKind.readAll, read]

end Declaration

end TaggedOptions
