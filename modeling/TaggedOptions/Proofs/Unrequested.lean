import Mathlib
import TaggedOptions.Command.Answers
import TaggedOptions.Proofs.Loading
import TaggedOptions.Registry.Listing

/-! # Options of other stages

What a selection is used for depends on its entries alone, and these are the entries of the requested
tags and of the wildcard.  So whatever is registered or loaded for other stages changes nothing for a
request, be it malformed or in conflict with what is selected.
-/

namespace TaggedOptions

/-! ## Additions to a registry -/

structure Declaration.Elsewhere (d : Declaration) (tags : List String) : Prop where
  staged : d.tags.toList ≠ []
  apart : ∀ tag ∈ d.tags.toList, tag ∉ tags ∧ tag ≠ wildcard

theorem Declaration.Elsewhere.not_mem_shelves {d : Declaration} {tags : List String}
    (elsewhere : d.Elsewhere tags) {tag : String} (asked : tag ∈ wildcard :: tags) :
    tag ∉ d.shelves := by
  have tagged : d.shelves = d.tags.toList := by
    simp [shelves, isWildcard, elsewhere.staged]
  rw [tagged]
  intro filed
  obtain ⟨unrequested, other⟩ := elsewhere.apart tag filed
  rcases List.mem_cons.mp asked with rfl | requested
  · exact other rfl
  · exact unrequested requested

inductive Addition where
  | register (d : Declaration)
  | load (s : Surroundings) (path root : String)

namespace Addition

/-- The registry afterwards.  A manifest that cannot be loaded leaves it as it was. -/
def apply (r : Registry) : Addition → Registry
  | .register d => r.register d
  | .load s path root => (r.load s path root).2

def Declares : Addition → Declaration → Prop
  | .register own, d => d = own
  | .load s path root, d => ∃ ds, Manifest.DeclaredIn s path root ds ∧ d ∈ ds

/-- An addition registers options that it declares, if any. -/
theorem apply_eq (r : Registry) (a : Addition) :
    ∃ ds, a.apply r = r.registerAll ds ∧ ∀ d ∈ ds, a.Declares d := by
  cases a with
  | register d => exact ⟨[d], rfl, by simp [Declares]⟩
  | load s path root =>
    cases loaded : r.load s path root with
    | mk answer after =>
      have result : (Addition.load s path root).apply r = after := by simp only [apply, loaded]
      cases answer with
      | error e => exact ⟨[], result.trans (Registry.load_eq_error loaded), by simp⟩
      | ok n =>
        obtain ⟨ds, declared, _, registered⟩ := Registry.load_eq_ok_iff.mp loaded
        exact ⟨ds, result.trans registered, fun d member => ⟨ds, declared, member⟩⟩

end Addition

namespace Registry

theorem map_declaration_handles (r : Registry) (ds : List Declaration) :
    (r.handles ds).map (·.declaration) = ds := by
  induction ds generalizing r with
  | nil => rfl
  | cons d ds ih => simp [handles, nextEntry, ih]

/-- Options of other stages are not filed under a requested tag. -/
theorem entries_registerAll_elsewhere (r : Registry) {ds : List Declaration} {tags : List String}
    (elsewhere : ∀ d ∈ ds, d.Elsewhere tags) :
    ((r.registerAll ds).get tags).entries = (r.get tags).entries := by
  have same {tag : String} (asked : tag ∈ wildcard :: tags) :
      (r.registerAll ds).tagged tag = r.tagged tag := by
    have none : ((r.handles ds).filter fun e => tag ∈ e.declaration.shelves) = [] := by
      refine List.filter_eq_nil_iff.mpr fun e made => ?_
      have declared : e.declaration ∈ (r.handles ds).map (·.declaration) := List.mem_map_of_mem made
      rw [map_declaration_handles] at declared
      simpa using (elsewhere _ declared).not_mem_shelves asked
    rw [tagged_registerAll_of, none, List.append_nil]
  unfold Selection.entries get
  rw [same List.mem_cons_self]
  refine congrArg _ (List.flatMap_congr fun tag requested => ?_)
  exact same (List.mem_cons_of_mem _ requested)

end Registry

/-! ## What depends on the entries -/

namespace Selection

variable {first second : Selection}

theorem command_congr (same : first.entries = second.entries) (name : String) :
    first.command name = second.command name := by
  rw [command, command, assembly, assembly, distinct, distinct, same]

theorem parse_congr (same : first.entries = second.entries) (s : Surroundings) (name : String)
    (argv : List String) : first.parse s name argv = second.parse s name argv := by
  unfold parse matches? answers
  rw [command_congr same, same]

/-- Whatever is registered or loaded for other stages, a request selects the same entries; so its
listing, the declarations that it applies, its command or the error, and everything that is parsed
with it are the same. -/
theorem unaffected_by_other_stages (r : Registry) (tags : List String) (additions : List Addition)
    (elsewhere : ∀ a ∈ additions, ∀ d, a.Declares d → d.Elsewhere tags) :
    let before := r.get tags
    let after := (additions.foldl Addition.apply r).get tags
    after.entries = before.entries ∧ after.rows = before.rows ∧
      after.declarations = before.declarations ∧
      (∀ name, after.command name = before.command name) ∧
      ∀ s name argv, after.parse s name argv = before.parse s name argv := by
  intro before after
  have same : after.entries = before.entries := by
    change ((additions.foldl Addition.apply r).get tags).entries = (r.get tags).entries
    clear before after
    induction additions generalizing r with
    | nil => rfl
    | cons a additions ih =>
      rw [List.forall_mem_cons] at elsewhere
      obtain ⟨ds, applied, declares⟩ := a.apply_eq r
      rw [List.foldl_cons, ih _ elsewhere.2, applied]
      exact r.entries_registerAll_elsewhere fun d member => elsewhere.1 d (declares d member)
  have declarations : after.declarations = before.declarations := by
    rw [Selection.declarations, Selection.declarations, same]
  exact ⟨same, by rw [rows, rows, declarations], declarations, command_congr same,
    parse_congr same⟩

set_option maxRecDepth 2000 in
/-- A malformed declaration, and a manifest whose only option clashes with the selected one. -/
theorem unaffected_by_other_stages_clashing :
    let verbose : Declaration :=
      { spellings := ["--verbose", "-v"], directives := { action := .storeTrue } }
    let broken : Declaration := ⟨["---", "word"], {}, .ofList ["trap"]⟩
    let text := "\x7b\"option\":[\x7b\"spellings\":[\"-v\"],\"tags\":[\"trap\"]\x7d]\x7d"
    let s : Surroundings :=
      { workingDirectory := [], realPath? := fun _ => none, readText := fun _ => .ok text }
    let r := Registry.empty.registerAll [verbose]
    let after := [.register broken, .load s "more.json" "/"].foldl Addition.apply r
    after.count = 3 ∧
      (after.get ["ql"]).parse s "codegen" ["-v"] = .ok [⟨"verbose", "true"⟩] := by
  intro verbose broken text s r after
  let entry : ManifestEntry := { spellings := ["-v"], tags := ["trap"] }
  have read : Manifest.ofFile s "more.json" = .ok ⟨[entry]⟩ := by cbv
  have elsewhere : ∀ a ∈ [.register broken, .load s "more.json" "/"], ∀ d,
      Addition.Declares a d → d.Elsewhere ["ql"] := by
    simp only [List.forall_mem_cons, List.not_mem_nil, false_implies, implies_true, and_true]
    refine ⟨?_, ?_⟩
    · rintro d rfl
      exact ⟨by decide +kernel, by decide +kernel⟩
    · rintro d ⟨ds, declared, member⟩
      obtain ⟨m, made, rfl⟩ := Manifest.declaredIn_iff.mp declared
      rw [read] at made
      cases made
      rw [List.mem_singleton.mp member]
      exact ⟨by decide +kernel, by decide +kernel⟩
  have count : after.count = 3 := by
    change (((r.register broken).load s "more.json" "/").2).count = 3
    rw [Registry.load, read]
    rfl
  obtain ⟨_, _, _, _, parses⟩ :=
    unaffected_by_other_stages r ["ql"] [.register broken, .load s "more.json" "/"] elsewhere
  exact ⟨count, (parses s "codegen" ["-v"]).trans (by decide +kernel)⟩

end Selection

end TaggedOptions
