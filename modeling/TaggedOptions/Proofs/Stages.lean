import Mathlib
import TaggedOptions.Proofs.Answering
import TaggedOptions.Proofs.Assembling

/-! # Fewer stages, other orders

Declarations are added in an order that depends on the request, and what is added first takes its
names first.  Still, whether flags can stand in one command depends only on which they are: a
request that asks for no more than another one is answered by a part of the same arguments, and
two requests for the same tags by the same arguments in some order.
-/

namespace TaggedOptions

/-! ## Parts of admissible declarations -/

/-- Flags that are admissible together are admissible in any number and any order. -/
theorem Admissible.of_subperm {ds part : List Declaration} (h : Admissible ds)
    (among : part.Subperm ds) (flags : ∀ d ∈ part, d.isPositional = false) : Admissible part := by
  obtain ⟨arranged, perm, sublist⟩ := among
  refine ⟨fun d member => h.valid d (sublist.subset (perm.mem_iff.mpr member)), ?_, ?_, ?_, ?_⟩
  · exact ((perm.map _).cons "help").nodup_iff.mp
      (h.dests.sublist ((sublist.map _).cons_cons "help"))
  · exact ((perm.flatMap_right _).cons "help").nodup_iff.mp
      (h.longs.sublist ((sublist.flatMap _).cons_cons "help"))
  · exact ((perm.flatMap_right _).cons 'h').nodup_iff.mp
      (h.shorts.sublist ((sublist.flatMap _).cons_cons 'h'))
  · refine List.pairwise_of_forall_mem_list fun d member e _ positional => ?_
    rw [flags d member] at positional
    cases positional

/-! ## Selections that are part of others -/

theorem nodup_distinctEntries (es : List Entry) : (distinctEntries es).Nodup := by
  induction es using List.reverseRecOn with
  | nil => exact List.nodup_nil
  | append_singleton es e ih =>
    rw [distinctEntries_append_singleton]
    by_cases known : (distinctEntries es).any e.same = true
    · rw [if_pos known]
      exact ih
    · rw [if_neg known, ← List.concat_eq_append]
      exact ih.concat fun member => known (List.any_eq_true.mpr ⟨e, member, by simp [Entry.same]⟩)

namespace Selection

/-- The options of a selection whose entries are all selected by another one are among its options,
whatever repetitions and order there are. -/
theorem options_subperm {part whole : Selection} (tells : SerialsTell whole.entries)
    (among : part.entries ⊆ whole.entries) : part.options.Subperm whole.options := by
  have distinct : part.distinct.Subperm whole.distinct :=
    List.subperm_of_subset (nodup_distinctEntries _) fun e member =>
      tells.mem_distinctEntries (among (mem_of_mem_distinctEntries member))
  obtain ⟨arranged, perm, sublist⟩ := distinct
  rw [← distinct_map_declaration, ← distinct_map_declaration]
  exact ⟨arranged.map _, perm.map _, sublist.map _⟩

theorem mem_declarations_of_mem_options {s : Selection} {d : Declaration} (h : d ∈ s.options) :
    d ∈ s.declarations := by
  rw [← distinct_map_declaration] at h
  obtain ⟨e, member, rfl⟩ := List.mem_map.mp h
  exact List.mem_map_of_mem (mem_of_mem_distinctEntries member)

end Selection

/-- A request asks for no more than another one: every tag of it is a tag of the other or the
wildcard, which every request asks for. -/
def AsksNoMore (fewer tags : List String) : Prop := ∀ tag ∈ fewer, tag ∈ tags ∨ tag = wildcard

instance (fewer tags : List String) : Decidable (AsksNoMore fewer tags) :=
  inferInstanceAs (Decidable (∀ tag ∈ fewer, _))

theorem AsksNoMore.entries_subset {fewer tags : List String} (h : AsksNoMore fewer tags)
    (r : Registry) : (r.get fewer).entries ⊆ (r.get tags).entries := by
  intro e selected
  rcases List.mem_append.mp selected with always | requested
  · exact List.mem_append_left _ always
  · obtain ⟨tag, asked, filed⟩ := List.mem_flatMap.mp requested
    rcases h tag asked with also | rfl
    · exact List.mem_append_right _ (List.mem_flatMap.mpr ⟨tag, also, filed⟩)
    · exact List.mem_append_left _ filed

theorem AsksNoMore.options_subperm {fewer tags : List String} (h : AsksNoMore fewer tags)
    (ds : List Declaration) :
    ((Registry.empty.registerAll ds).get fewer).options.Subperm
      ((Registry.empty.registerAll ds).get tags).options :=
  Selection.options_subperm (Registry.serialsTell ds tags) (h.entries_subset _)

namespace Selection

/-- If a request without bare words gives a command, then every request that asks for no more gives
the same command with a part of the arguments; and if both ask for the same, the arguments are the
same up to their order. -/
theorem command_of_asksNoMore (ds : List Declaration) (tags fewer : List String) (name : String)
    (c : Command) (covered : AsksNoMore fewer tags)
    (flags : ∀ d ∈ ((Registry.empty.registerAll ds).get tags).declarations, ∀ s ∈ d.spellings,
      isBareWord s = false)
    (assembled : ((Registry.empty.registerAll ds).get tags).command name = .ok c) :
    ∃ arguments,
      ((Registry.empty.registerAll ds).get fewer).command name = .ok { c with arguments } ∧
      arguments ⊆ c.arguments ∧ (AsksNoMore tags fewer → arguments.Perm c.arguments) := by
  obtain ⟨admissible, rfl⟩ := admissible_of_command assembled
  have among := covered.options_subperm ds
  have wordless : ∀ d ∈ ((Registry.empty.registerAll ds).get fewer).options,
      d.isPositional = false := by
    intro d selected
    simp only [Declaration.isPositional, List.any_eq_false, Bool.not_eq_true]
    exact flags d (mem_declarations_of_mem_options (among.subset selected))
  refine ⟨_, command_of_admissible (admissible.of_subperm among wordless) name,
    List.map_subset _ among.subset, ?_⟩
  intro same
  exact (among.antisymm (same.options_subperm ds)).map _

/-- The request that names the stages in the other order, repeats one and asks for the wildcard
meets the option of both stages at another place. -/
theorem command_of_asksNoMore_reordered :
    let schema : Declaration := ⟨["--schema", "-s"], {}, .ofList ["schema"]⟩
    let jobs : Declaration := ⟨["--jobs", "-j"], {}, .ofList ["ql", "schema"]⟩
    let format : Declaration := ⟨["--format"], {}, .ofList ["ql"]⟩
    let r := Registry.empty.registerAll [format, schema, jobs]
    ∃ c arguments, (r.get ["schema", "ql"]).command "codegen" = .ok c ∧
      (r.get ["ql", "*", "schema", "ql"]).command "codegen" = .ok { c with arguments } ∧
      arguments.Perm c.arguments := by
  intro schema jobs format r
  have assembled : (r.get ["schema", "ql"]).command "codegen" =
      .ok { name := "codegen", arguments := [schema, jobs, format].map (·.argument) } := by
    decide +kernel
  obtain ⟨arguments, reassembled, _, same⟩ :=
    command_of_asksNoMore [format, schema, jobs] ["schema", "ql"] ["ql", "*", "schema", "ql"]
      "codegen" _ (by decide) (by decide +kernel) assembled
  exact ⟨_, arguments, assembled, reassembled, same (by decide)⟩

end Selection

end TaggedOptions
