import Mathlib
import TaggedOptions.Invocation.Run
import TaggedOptions.Proofs.CanonicalPaths
import TaggedOptions.Proofs.Defaults
import TaggedOptions.Proofs.History

/-! # The name of the project root

The project root can be named in many ways: absolutely or not, through links, with steps up and
back.  Its name gets into the defaults that are paths, and it shows where these are quoted: in
listings, and in the help text of a selection.  Apart from help, nothing that is parsed depends on
it: a call registers the same options under every name of the root, and the defaults under the root
mean the same places.
-/

namespace TaggedOptions

/-! ## What a call declares -/

/-- The generator's own options, written as the entries of a manifest. -/
def Builtin.entries : List ManifestEntry :=
  [ { spellings := ["--verbose", "-v"], action := .storeTrue
      help := some "Log what each stage is doing" },
    { spellings := ["--schema"], tags := [schemaTag], valueType := .abspath
      default := some (.text "codegen/schema.yml"), help := some "Schema file to load" },
    { spellings := ["--dbscheme"], tags := [dbschemeTag], valueType := .abspath
      default := some (.text "ql/lib/swift.dbscheme"), help := some "Output dbscheme file" },
    { spellings := ["--ql-output"], tags := [qlTag], valueType := .abspath
      default := some (.text "ql/lib/codeql/swift/generated")
      help := some "Directory for generated QL classes" },
    { spellings := ["--ql-stub-output"], tags := [qlTag], valueType := .abspath
      default := some (.text "ql/lib/codeql/swift/elements")
      help := some "Directory for user-editable QL stubs" },
    { spellings := ["--codeql-binary"], tags := [qlTag], default := some (.text "codeql")
      help := some "CodeQL executable used to format generated QL" },
    { spellings := ["--trap-output"], tags := [trapTag], valueType := .abspath, required := true
      help := some "Directory for generated trap code" } ]

theorem Builtin.store_of_abspath :
    ∀ e ∈ entries, e.valueType = .abspath → e.action = .store := by
  decide

theorem Builtin.declarations_eq (root : String) :
    declarations root = entries.map (·.declaration root) := rfl

namespace Invocation

variable {s : Surroundings}

def readAll (s : Surroundings) : List String → Except ManifestError (List ManifestEntry)
  | [] => .ok []
  | path :: rest =>
    match Manifest.ofFile s path with
    | .error e => .error e
    | .ok m => (readAll s rest).map (m.entries ++ ·)

theorem loadAll_eq (root : String) (r : Registry) (paths : List String) :
    loadAll s root r paths =
      (readAll s paths).map fun es => r.registerAll (es.map (·.declaration root)) := by
  induction paths generalizing r with
  | nil => rfl
  | cons path rest ih =>
    rw [loadAll, readAll, Registry.loadManifest, Registry.load]
    cases Manifest.ofFile s path with
    | error e => rfl
    | ok m =>
      simp only [ih]
      cases readAll s rest with
      | error e => rfl
      | ok es => simp [Except.map, Registry.registerAll, Manifest.declarations]

def entries (i : Invocation) (s : Surroundings) : Except ManifestError (List ManifestEntry) :=
  (readAll s i.manifests).map ((if i.noBuiltin then [] else Builtin.entries) ++ ·)

theorem registry_eq (i : Invocation) (s : Surroundings) :
    i.registry s =
      (i.entries s).map fun es => Registry.empty.registerAll (es.map (·.declaration i.root)) := by
  rw [registry, loadAll_eq, entries]
  cases readAll s i.manifests with
  | error e => rfl
  | ok es =>
    cases i.noBuiltin <;>
      simp [Except.map, Registry.registerAll, Builtin.declare, Builtin.declarations_eq]

theorem mem_of_readAll {paths : List String} {es : List ManifestEntry}
    (read : readAll s paths = .ok es) {e : ManifestEntry} (member : e ∈ es) :
    ∃ path ∈ paths, ∃ m, Manifest.ofFile s path = .ok m ∧ e ∈ m.entries := by
  induction paths generalizing es with
  | nil =>
    cases read
    cases member
  | cons path rest ih =>
    rw [readAll] at read
    cases made : Manifest.ofFile s path with
    | error e => simp [made] at read
    | ok m =>
      simp only [made] at read
      cases later : readAll s rest with
      | error e => simp [later, Except.map] at read
      | ok others =>
        simp only [later, Except.map, Except.ok.injEq] at read
        subst read
        rcases List.mem_append.mp member with here | there
        · exact ⟨path, List.mem_cons_self, m, made, here⟩
        · obtain ⟨path', known, found⟩ := ih later there
          exact ⟨path', List.mem_cons_of_mem path known, found⟩

/-- What a call declares is one of the generator's own options or stands in one of the manifests. -/
theorem mem_of_entries {i : Invocation} {es : List ManifestEntry} (declared : i.entries s = .ok es)
    {e : ManifestEntry} (member : e ∈ es) :
    e ∈ Builtin.entries ∨
      ∃ path ∈ i.manifests, ∃ m, Manifest.ofFile s path = .ok m ∧ e ∈ m.entries := by
  unfold entries at declared
  cases read : readAll s i.manifests with
  | error e => simp [read, Except.map] at declared
  | ok others =>
    simp only [read, Except.map, Except.ok.injEq] at declared
    subst declared
    rcases List.mem_append.mp member with own | there
    · refine .inl ?_
      split at own
      · cases own
      · exact own
    · exact .inr (mem_of_readAll read there)

end Invocation

/-! ## Options under two roots -/

namespace ManifestEntry

variable {e : ManifestEntry} {root other : String}

def LiesUnderRoot (e : ManifestEntry) : Prop :=
  e.valueType = .abspath ∧ ∃ path, e.default = some (.text path) ∧ Path.isAbsolute path = false

theorem declaration_eq_of_not_liesUnderRoot (h : ¬ e.LiesUnderRoot) :
    e.declaration root = e.declaration other := by
  have default : e.defaultValue root = e.defaultValue other := by
    unfold defaultValue
    cases given : e.default with
    | none => rfl
    | some v =>
      cases v with
      | flag b => rfl
      | text path =>
        cases kind : e.valueType with
        | text => rfl
        | abspath =>
          have absolute : Path.isAbsolute path = true := by
            by_contra relative
            exact h ⟨kind, path, given, by simpa using relative⟩
          simp [Path.join_of_isAbsolute _ absolute]
  rw [declaration, default, declaration]

/-- An entry whose default lies under the root declares an option that has this default resolved. -/
theorem defaultValues_declaration (s : Surroundings) (named : root ≠ "")
    (stores : e.action = .store) (kind : e.valueType = .abspath) {path : String}
    (given : e.default = some (.text path)) :
    defaultValues s (e.declaration root).argument =
      .ok [.path (s.place (Path.join root path)).toText] := by
  have default : (e.declaration root).directives.default = some (.path (Path.join root path)) := by
    simp [declaration, defaultValue, given, kind]
  have accepted : (e.declaration root).directives.AcceptsDefault := by
    intro v present
    rw [default] at present
    cases present
    simpa [Directives.Accepts, declaration, stores, kind, DefaultValue.toText] using
      Path.join_ne_empty named path
  rw [Declaration.defaultValues_argument accepted, Directives.standIn, default]
  simp [Directives.value, declaration, stores, kind, DefaultValue.toText]

/-- An entry declares options with defaults that stand for the same, whether the root is named as it
is or as the real place that it leads to. -/
theorem alike_declaration {t : FileTree} {workingDirectory real : Place}
    (home : t.Real workingDirectory) (canonical : t.canonical? workingDirectory root = some real)
    (stores : e.LiesUnderRoot → e.action = .store) :
    (e.declaration root).Alike (t.surroundings workingDirectory) (e.declaration real.toText) := by
  refine ⟨rfl, by simp [declaration, defaultValue], ?_⟩
  by_cases under : e.LiesUnderRoot
  · obtain ⟨kind, path, given, relative⟩ := under
    have action := stores ⟨kind, path, given, relative⟩
    have named := (FileTree.canonical?_eq_some canonical).2.1
    rw [defaultValues_declaration _ named action kind given,
      defaultValues_declaration _ real.toText_ne_empty action kind given,
      Surroundings.place_join_of_canonical? home canonical relative]
  · rw [declaration_eq_of_not_liesUnderRoot under]

end ManifestEntry

/-- One entry of a manifest declares the options under two roots.  They are the same but for a
default that lies under the root. -/
structure Declaration.Rerooted (root other : String) (d d' : Declaration) : Prop where
  bare : d.bare = d'.bare
  origin : ∃ e : ManifestEntry, d = e.declaration root ∧ d' = e.declaration other ∧
    (e.LiesUnderRoot ∨ d = d')

theorem ManifestEntry.rerooted (e : ManifestEntry) (root other : String) :
    Declaration.Rerooted root other (e.declaration root) (e.declaration other) := by
  refine ⟨rfl, e, rfl, rfl, ?_⟩
  by_cases under : e.LiesUnderRoot
  · exact .inl under
  · exact .inr (declaration_eq_of_not_liesUnderRoot under)

/-! ## Registries side by side -/

namespace Registry

variable {R : Declaration → Declaration → Prop} {ds es : List Declaration}

theorem handles_alongside (related : List.Forall₂ R ds es) {r r' : Registry}
    (count : r.count = r'.count) :
    List.Forall₂ (Entry.Alongside R) (r.handles ds) (r'.handles es) := by
  induction related generalizing r r' with
  | nil => exact .nil
  | cons first _ ih => exact .cons ⟨count, first⟩ (ih (congrArg (· + 1) count))

theorem tagged_alongside (related : List.Forall₂ R ds es)
    (filed : ∀ {d e}, R d e → d.shelves = e.shelves) (tag : String) :
    List.Forall₂ (Entry.Alongside R) ((empty.registerAll ds).tagged tag)
      ((empty.registerAll es).tagged tag) := by
  rw [tagged_registerAll, tagged_registerAll, ← handles_empty, ← handles_empty]
  refine List.rel_filter ?_ (handles_alongside related rfl)
  intro a b same
  simp [filed same.2]

theorem entries_alongside (related : List.Forall₂ R ds es)
    (filed : ∀ {d e}, R d e → d.shelves = e.shelves) (tags : List String) :
    List.Forall₂ (Entry.Alongside R) ((empty.registerAll ds).get tags).entries
      ((empty.registerAll es).get tags).entries := by
  refine List.rel_append (tagged_alongside related filed wildcard) ?_
  refine List.rel_flatMap (List.forall₂_same.mpr fun tag _ => (rfl : tag = tag)) ?_
  rintro tag _ rfl
  exact tagged_alongside related filed tag

theorem map_tag_foldl_file (e : Entry) (shelves : List Shelf) (places : List String) :
    (places.foldl (file e) shelves).map (·.tag) =
      places.foldl (fun tags tag => if tag ∈ tags then tags else tags ++ [tag])
        (shelves.map (·.tag)) :=
  (List.foldl_hom (List.map Shelf.tag) fun shelves tag => (map_tag_file e shelves tag).symm).symm

theorem tags_alongside (related : List.Forall₂ R ds es)
    (filed : ∀ {d e}, R d e → d.shelves = e.shelves) {r r' : Registry} (same : r.tags = r'.tags) :
    (r.registerAll ds).tags = (r'.registerAll es).tags := by
  induction related generalizing r r' with
  | nil => exact same
  | @cons d e _ _ first _ ih =>
    refine ih ?_
    change (d.shelves.foldl (file (r.nextEntry d)) r.shelves).map (·.tag) =
      (e.shelves.foldl (file (r'.nextEntry e)) r'.shelves).map (·.tag)
    rw [map_tag_foldl_file, map_tag_foldl_file, filed first]
    exact congrArg (e.shelves.foldl _) same

end Registry

/-- However the project root is named, a call fails in the same way or registers the same options,
path defaults apart, and whatever is parsed with them gives the same answers or the same error,
texts of help apart. -/
theorem Invocation.parsesAlike_of_canonical_root {t : FileTree} {workingDirectory real : Place}
    (home : t.Real workingDirectory) (i : Invocation)
    (canonical : t.canonical? workingDirectory i.root = some real)
    (stores : ∀ path ∈ i.manifests, ∀ m,
      Manifest.ofFile (t.surroundings workingDirectory) path = .ok m →
      ∀ e ∈ m.entries, e.LiesUnderRoot → e.action = .store) :
    let s := t.surroundings workingDirectory
    let renamed : Invocation := { i with root := real.toText }
    (∀ e, i.registry s = .error e ↔ renamed.registry s = .error e) ∧
      ∀ r, i.registry s = .ok r → ∃ r', renamed.registry s = .ok r' ∧
        r.tags = r'.tags ∧ r.count = r'.count ∧
        (∀ tag, List.Forall₂ (Entry.Alongside (Declaration.Rerooted i.root real.toText))
          (r.tagged tag) (r'.tagged tag)) ∧
        ∀ tags name argv, Selection.ParsesAlike s (r.get tags) (r'.get tags) name argv := by
  intro s renamed
  have entries : renamed.entries s = i.entries s := rfl
  rw [registry_eq, registry_eq, entries]
  cases declared : i.entries s with
  | error e => simp [Except.map]
  | ok es =>
    simp only [Except.map, reduceCtorEq, Except.ok.injEq, forall_eq', true_and, implies_true]
    have takes : ∀ e ∈ es, e.LiesUnderRoot → e.action = .store := by
      intro e member under
      rcases mem_of_entries declared member with own | ⟨path, known, m, made, there⟩
      · exact Builtin.store_of_abspath e own under.1
      · exact stores path known m made e there under
    have related {R : Declaration → Declaration → Prop}
        (each : ∀ e ∈ es, R (e.declaration i.root) (e.declaration renamed.root)) :
        List.Forall₂ R (es.map (·.declaration i.root)) (es.map (·.declaration renamed.root)) := by
      rwa [List.forall₂_map_left_iff, List.forall₂_map_right_iff, List.forall₂_same]
    have rerooted := related fun e _ => e.rerooted i.root renamed.root
    have alike := related fun e member => e.alike_declaration home canonical (takes e member)
    have filed {d d' : Declaration} (same : Declaration.Rerooted i.root real.toText d d') :
        d.shelves = d'.shelves := Declaration.shelves_of_bare_eq same.bare
    refine ⟨_, rfl, Registry.tags_alongside rerooted filed rfl, ?_, ?_, ?_⟩
    · rw [Registry.count_registerAll, Registry.count_registerAll, List.length_map, List.length_map]
    · exact Registry.tagged_alongside rerooted filed
    · intro tags name argv
      refine Selection.parsesAlike_of_alike ?_ name argv
      refine Registry.entries_alongside alike ?_ tags
      exact fun same => Declaration.shelves_of_bare_eq same.bare

/-- Help quotes a default as it is given, so it tells how the root is named. -/
theorem Invocation.help_tells_root :
    let t := FileTree.linked
    let s := t.surroundings ["w"]
    let i : Invocation :=
      { tags := ["schema"], manifests := [], root := "link", noBuiltin := false
        prog := "codegen", quiet := false, argv := ["--help"] }
    let renamed : Invocation := { i with root := "/w/dir" }
    t.Real ["w"] ∧ t.canonical? ["w"] i.root = some ["w", "dir"] ∧
      ∃ r r', i.registry s = .ok r ∧ renamed.registry s = .ok r' ∧
        (r.get i.tags).parse s i.prog i.argv ≠ (r'.get i.tags).parse s i.prog i.argv := by
  intro t s i renamed
  have canonical : t.canonical? ["w"] "link" = some ["w", "dir"] := by decide +kernel
  have differ :
      ((Builtin.declare .empty "link").get ["schema"]).parse
          (FileTree.linked.surroundings ["w"]) "codegen" ["--help"] ≠
        ((Builtin.declare .empty "/w/dir").get ["schema"]).parse
          (FileTree.linked.surroundings ["w"]) "codegen" ["--help"] := by
    decide +kernel
  exact ⟨FileTree.linked_real, canonical, _, _, rfl, rfl, differ⟩

set_option maxRecDepth 2000 in
/-- A root that is named through a link, and a manifest with a default that goes up from there. -/
theorem Invocation.parsesAlike_of_canonical_root_link :
    let text := "\x7b\"option\":[\x7b\"spellings\":[\"--out\"],\"type\":\"abspath\"," ++
      "\"default\":\"../link/gen\"\x7d]\x7d"
    let t := FileTree.linked.put ["w"] "more.json" (.file text.toUTF8)
    let s := t.surroundings ["w"]
    let i : Invocation :=
      { tags := [], manifests := ["more.json"], root := "./link/", noBuiltin := false
        prog := "codegen", quiet := false, argv := [] }
    t.canonical? ["w"] i.root = some ["w", "dir"] ∧
      ∃ r r', i.registry s = .ok r ∧ Invocation.registry { i with root := "/w/dir" } s = .ok r' ∧
        (r'.get []).parse s "codegen" [] = .ok [⟨"verbose", "false"⟩, ⟨"out", "/w/dir/gen"⟩] := by
  intro text t s i
  let out : ManifestEntry :=
    { spellings := ["--out"], valueType := .abspath, default := some (.text "../link/gen") }
  have home : t.Real ["w"] :=
    .entry .root ⟨by decide +kernel, by decide +kernel, by decide +kernel, by decide +kernel⟩
      (by decide +kernel)
  have canonical : t.canonical? ["w"] i.root = some ["w", "dir"] := by decide +kernel
  have found : t.canonical? ["w"] "more.json" = some ["w", "more.json"] := by decide +kernel
  have opened : s.readText "more.json" = .ok text :=
    FileTree.readText_of_canonical? found (by decide +kernel) rfl
  have read : Manifest.ofFile s "more.json" = .ok ⟨[out]⟩ := by
    simp only [Manifest.ofFile, opened]
    cbv
  have stores : ∀ path ∈ i.manifests, ∀ m, Manifest.ofFile s path = .ok m →
      ∀ e ∈ m.entries, e.LiesUnderRoot → e.action = .store := by
    intro path known m made e member _
    rw [List.mem_singleton.mp known, read] at made
    cases made
    rw [List.mem_singleton.mp member]
  have declared : i.registry s =
      .ok (.registerAll .empty ((Builtin.entries ++ [out]).map (·.declaration i.root))) := by
    have entries : i.entries s = .ok (Builtin.entries ++ [out]) := by
      change Except.map _ (readAll s ["more.json"]) = _
      rw [readAll, read]
      rfl
    rw [registry_eq, entries]
    rfl
  obtain ⟨_, same⟩ := parsesAlike_of_canonical_root home i canonical stores
  obtain ⟨r', renamed, _, _, _, alike⟩ := same _ declared
  refine ⟨canonical, _, r', declared, renamed, ?_⟩
  have answers : (Registry.get (.registerAll .empty
      ((Builtin.entries ++ [out]).map (·.declaration i.root))) []).parse s "codegen" [] =
        .ok [⟨"verbose", "false"⟩, ⟨"out", "/w/dir/gen"⟩] := by decide +kernel
  rcases alike [] "codegen" [] with parses | ⟨_, _, _, _, _, help, _⟩
  · rw [← parses, answers]
  · rw [answers] at help
    cases help

end TaggedOptions
