import Mathlib
import TaggedOptions.Proofs.Defaults
import TaggedOptions.Proofs.Loading
import TaggedOptions.Proofs.PlaceTexts
import TaggedOptions.Proofs.Rejections

/-! # Defaults that their own options refuse

Nobody looks at the text of a default while a command is assembled, so an option may come with a
default that it would refuse on the command line.  This module says which declarations and which
entries of a manifest bring such a default into a command.
-/

namespace TaggedOptions

def Command.TakesDefaults (s : Surroundings) (c : Command) : Prop :=
  ∀ a ∈ c.arguments, ∃ values, defaultValues s a = .ok values

theorem Declaration.takes_default_iff (s : Surroundings) (d : Declaration) :
    (∃ values, defaultValues s d.argument = .ok values) ↔ d.directives.AcceptsDefault :=
  ⟨fun ⟨_, taken⟩ => acceptsDefault_of_defaultValues taken,
    fun accepts => ⟨_, defaultValues_argument accepts⟩⟩

namespace Assembly

/-- The accepted declarations make the command, in their order. -/
theorem command_addAll (a : Assembly) (ds : List Declaration) :
    (a.addAll ds).command = a.command.extend ((a.accepted ds).map (·.argument)) := by
  induction ds generalizing a with
  | nil => simp [accepted, calls]
  | cons d ds ih =>
    rw [addAll_cons, ih]
    rcases a.accepted_cons_cases d ds with ⟨_, _, pushed, keeps⟩ | ⟨r, rejected, drops⟩
    · rw [keeps, pushed, List.map_cons, ← Command.push_extend]
      rfl
    · rw [drops, rejected]
      rfl

theorem takesDefaults_addAll_iff (s : Surroundings) (name : String) (ds : List Declaration) :
    ((new name).addAll ds).command.TakesDefaults s ↔
      ∀ d ∈ (new name).accepted ds, d.directives.AcceptsDefault := by
  have arguments : ((new name).addAll ds).command.arguments =
      ((new name).accepted ds).map (·.argument) := by
    rw [command_addAll]
    rfl
  simp only [Command.TakesDefaults, arguments, List.forall_mem_map, Declaration.takes_default_iff]

end Assembly

/-- The verdict on a declaration does not depend on what its default says. -/
theorem Call.rejects_of_bare_eq (a : Assembly) {d e : Declaration} (same : d.bare = e.bare)
    (isSome : d.directives.default.isSome = e.directives.default.isSome) :
    (⟨a, d⟩ : Call).rejects = (⟨a, e⟩ : Call).rejects := by
  have built := buildArgument_of_bare_eq a.reserved same isSome
  unfold Call.rejects Call.after Assembly.add
  rw [built]
  cases buildArgument a.reserved d.spellings d.directives with
  | error fault => simp [Assembly.errors, Except.map]
  | ok argument => simp [Assembly.errors, Except.map]

/-! ## Entries of a manifest -/

namespace ManifestEntry

/-- The default is one that the option accepts, if it is a text at all.  A flag needs the word for a
truth value, and no text is one below a root.  A path needs a text, be it that of the root. -/
def DefaultSuits (e : ManifestEntry) (root : String) : Prop :=
  ∀ text, e.default = some (.text text) →
    match e.action, e.valueType with
    | .store, .text => True
    | .store, .abspath => root = "" → text ≠ ""
    | .storeTrue, .text => text = "true" ∨ text = "false"
    | .storeTrue, .abspath => root = "" ∧ (text = "true" ∨ text = "false")

theorem acceptsDefault_declaration_iff (e : ManifestEntry) (root : String) :
    (e.declaration root).directives.AcceptsDefault ↔ e.DefaultSuits root := by
  obtain ⟨spellings, tags, action, valueType, default, required, dest, help⟩ := e
  simp only [DefaultSuits, Directives.AcceptsDefault, Directives.Accepts, declaration,
    defaultValue]
  cases default with
  | none => simp
  | some given =>
    cases given with
    | flag b => cases action <;> cases valueType <;> cases b <;> simp [DefaultValue.toText]
    | text t =>
      cases valueType with
      | text => cases action <;> simp [DefaultValue.toText]
      | abspath =>
        have word (w : String) (noSlash : '/' ∉ w.toList) :
            Path.join root t = w ↔ root = "" ∧ t = w := Path.join_eq_iff noSlash
        cases action with
        | store => simp [DefaultValue.toText, Path.join_eq_empty_iff]
        | storeTrue =>
          simp [DefaultValue.toText, word "true" (by decide), word "false" (by decide), and_or_left]

end ManifestEntry

namespace Assembly

theorem accepted_sublist (a : Assembly) (ds : List Declaration) : (a.accepted ds).Sublist ds := by
  have kept : (a.accepted ds).Sublist ((a.calls ds).map (·.declaration)) :=
    List.filter_sublist.map _
  rwa [map_declaration_calls] at kept

/-- Assembling looks at whether there is a default, never at its text.  So each argument of the
command accepts its default just if every accepted declaration came with one that its option
accepts; of a manifest, just if the default of every accepted entry suits the root. -/
theorem takes_defaults_iff (s : Surroundings) (name : String) :
    (∀ (a : Assembly) (d e : Declaration), d.bare = e.bare →
      d.directives.default.isSome = e.directives.default.isSome →
      (⟨a, d⟩ : Call).rejects = (⟨a, e⟩ : Call).rejects) ∧
    (∀ ds, ((new name).addAll ds).command.TakesDefaults s ↔
      ∀ d ∈ (new name).accepted ds, d.directives.AcceptsDefault) ∧
    ∀ (m : Manifest) root, ((new name).addAll (m.declarations root)).command.TakesDefaults s ↔
      ∀ e ∈ m.entries, e.declaration root ∈ (new name).accepted (m.declarations root) →
        e.DefaultSuits root := by
  refine ⟨fun a d e => Call.rejects_of_bare_eq a, takesDefaults_addAll_iff s name, fun m root => ?_⟩
  rw [takesDefaults_addAll_iff]
  constructor
  · intro accepts e _ added
    exact (e.acceptsDefault_declaration_iff root).mp (accepts _ added)
  · intro suits d added
    obtain ⟨e, listed, rfl⟩ :=
      List.mem_map.mp (((new name).accepted_sublist (m.declarations root)).subset added)
    exact (e.acceptsDefault_declaration_iff root).mpr (suits e listed added)

/-- The command is finished without an error, from declarations and from a manifest alike, but no
argument of it takes its default. -/
theorem refused_defaults_added :
    let text := "\x7b\"option\":[\x7b\"spellings\":[\"--out\"],\"type\":\"abspath\"," ++
      "\"default\":\"\"\x7d]\x7d"
    let s : Surroundings :=
      { workingDirectory := [], realPath? := fun _ => none, readText := fun _ => .ok text }
    let path : Directives := { valueType := .abspath, default := some (.text "") }
    let flag : Directives := { action := .storeTrue, default := some (.text "yes") }
    let a := (new "codegen").addAll [⟨["-x"], path, .empty⟩, ⟨["--quiet"], flag, .empty⟩]
    (a.finish = .ok a.command ∧
      a.command.arguments.map (defaultValues s) =
        [.error (.refusedValue "-x <x>" ""), .error (.invalidValue "--quiet" "yes")]) ∧
    ∃ r c, Registry.empty.loadManifest s "m.json" "" = .ok r ∧
      (r.get []).command "codegen" = .ok c ∧
      c.arguments.map (defaultValues s) = [.error (.refusedValue "--out <out>" "")] := by
  intro text s path flag a
  let document : Document := .table [(some "option", .list [
    .table [(some "spellings", .list [.scalar (.ofText "--out")] .exact),
      (some "type", .scalar (.ofText "abspath")), (some "default", .scalar (.ofText ""))] none]
    .exact)] none
  let entry : ManifestEntry :=
    { spellings := ["--out"], valueType := .abspath, default := some (.text "") }
  have read : ManifestFormat.json.read? text = some document := by cbv
  have made : Manifest.ofDocument document = .ok ⟨[entry]⟩ := by decide +kernel
  have named : ManifestFormat.ofPath? "m.json" = some .json := by decide
  have loaded : Registry.empty.loadManifest s "m.json" "" =
      .ok (Registry.empty.registerAll [entry.declaration ""]) := by
    have opened : Manifest.ofFile s "m.json" = .ok ⟨[entry]⟩ := by
      rw [Manifest.ofFile_of_read named rfl read, made]
      rfl
    rw [Registry.loadManifest, Registry.load, opened]
    rfl
  exact ⟨by decide +kernel, _, _, loaded, rfl, by decide +kernel⟩

end Assembly

end TaggedOptions
