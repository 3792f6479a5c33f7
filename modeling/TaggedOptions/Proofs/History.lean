import Mathlib
import TaggedOptions.Proofs.Filing

/-! # A registry and its history

A registration mentions tags, in one or several groups and with repetitions.  A registry keeps
shelves; its history is only the list of the registrations with the entries that they returned.
Every question that a registry answers is answered here from the history alone: which entries a tag
has, which tags there are and in which order, how many registrations there were, and how often an
entry stands in a selection.
-/

namespace TaggedOptions

/-! ## First mentions -/

section

variable {α : Type} [BEq α] [LawfulBEq α]

theorem eraseDups_concat (l : List α) (x : α) :
    (l ++ [x]).eraseDups = if x ∈ l then l.eraseDups else l.eraseDups ++ [x] := by
  rw [List.eraseDups_append]
  by_cases known : x ∈ l
  · simp [List.removeAll, known]
  · simp [List.removeAll, known, List.eraseDups_cons]

theorem nodup_eraseDups (l : List α) : l.eraseDups.Nodup := by
  induction l using List.reverseRecOn with
  | nil => exact List.nodup_nil
  | append_singleton l x ih =>
    rw [eraseDups_concat]
    by_cases known : x ∈ l
    · rw [if_pos known]
      exact ih
    · rw [if_neg known, ← List.concat_eq_append]
      exact ih.concat fun again => known (List.mem_eraseDups.mp again)

theorem eraseDups_append_eraseDups (past l : List α) :
    (past ++ l.eraseDups).eraseDups = (past ++ l).eraseDups := by
  induction l using List.reverseRecOn with
  | nil => rfl
  | append_singleton l x ih =>
    rw [eraseDups_concat, ← List.append_assoc, eraseDups_concat (past ++ l)]
    by_cases known : x ∈ l
    · rw [if_pos known, if_pos (List.mem_append_right past known), ih]
    · rw [if_neg known, ← List.append_assoc, eraseDups_concat, ih]
      simp only [List.mem_append, List.mem_eraseDups]

/-- Adding members one after the other, each at the end unless it is there already, keeps the first
occurrence of each. -/
theorem foldl_insert_eq_eraseDups {β : Type} (members : β → List α) {insert : β → α → β}
    (inserts : ∀ b x, members (insert b x) =
      if x ∈ members b then members b else members b ++ [x])
    {b : β} {past : List α} (start : members b = past.eraseDups) (more : List α) :
    members (more.foldl insert b) = (past ++ more).eraseDups := by
  induction more generalizing b past with
  | nil => simpa using start
  | cons x more ih =>
    have next : members (insert b x) = (past ++ [x]).eraseDups := by
      rw [inserts, start, eraseDups_concat]
      simp only [List.mem_eraseDups]
    rw [List.foldl_cons, ih next, List.append_assoc, List.singleton_append]

end

/-! ## Registrations -/

/-- A registration as it is asked for.  The tags come in the groups in which they are handed over. -/
structure Registration where
  spellings : List String
  directives : Directives
  groups : List (List String)
  deriving DecidableEq, Repr

namespace Registration

def declaration (g : Registration) : Declaration :=
  g.groups.foldl Declaration.withTags { spellings := g.spellings, directives := g.directives }

/-- The registration files its option under the tag: it mentions the tag, or it mentions none at all
and the tag is the wildcard. -/
def FiledUnder (g : Registration) (tag : String) : Prop :=
  tag ∈ g.groups.flatten ∨ tag = wildcard ∧ g.groups.flatten = []

instance (g : Registration) (tag : String) : Decidable (g.FiledUnder tag) :=
  inferInstanceAs (Decidable (_ ∨ _))

def uses (g : Registration) : List String :=
  if g.groups.flatten = [] then [wildcard] else g.groups.flatten

theorem mem_uses {g : Registration} {tag : String} : tag ∈ g.uses ↔ g.FiledUnder tag := by
  unfold uses FiledUnder
  by_cases none : g.groups.flatten = []
  · simp [none]
  · simp [none]

end Registration

theorem TagSet.toList_insert (tags : TagSet) (tag : String) :
    (tags.insert tag).toList =
      if tag ∈ tags.toList then tags.toList else tags.toList ++ [tag] := by
  unfold insert
  by_cases known : tag ∈ tags.toList <;> simp [known]

theorem Declaration.toList_withTags {d : Declaration} {past : List String}
    (start : d.tags.toList = past.eraseDups) (tags : List String) :
    (d.withTags tags).tags.toList = (past ++ tags).eraseDups :=
  foldl_insert_eq_eraseDups TagSet.toList TagSet.toList_insert start tags

namespace Registration

/-- The tags of the registered declaration are those that were mentioned, by first mention. -/
theorem toList_tags (g : Registration) :
    g.declaration.tags.toList = g.groups.flatten.eraseDups := by
  have groups (gs : List (List String)) (d : Declaration) (past : List String)
      (start : d.tags.toList = past.eraseDups) :
      (gs.foldl Declaration.withTags d).tags.toList = (past ++ gs.flatten).eraseDups := by
    induction gs generalizing d past with
    | nil => simpa using start
    | cons tags gs ih =>
      rw [List.foldl_cons, ih _ _ (Declaration.toList_withTags start tags), List.flatten_cons,
        List.append_assoc]
  exact groups g.groups _ [] rfl

theorem shelves_declaration (g : Registration) : g.declaration.shelves = g.uses.eraseDups := by
  unfold Declaration.shelves Declaration.isWildcard uses
  rw [toList_tags]
  cases mentioned : g.groups.flatten with
  | nil => rfl
  | cons tag tags => simp [List.eraseDups_cons]

theorem mem_shelves_declaration {g : Registration} {tag : String} :
    tag ∈ g.declaration.shelves ↔ g.FiledUnder tag := by
  rw [shelves_declaration, List.mem_eraseDups, mem_uses]

end Registration

namespace Registry

/-! ## Tags in use -/

theorem map_tag_file (e : Entry) (shelves : List Shelf) (tag : String) :
    (file e shelves tag).map (·.tag) =
      if tag ∈ shelves.map (·.tag) then shelves.map (·.tag) else shelves.map (·.tag) ++ [tag] := by
  induction shelves with
  | nil => rfl
  | cons shelf rest ih =>
    by_cases here : shelf.tag = tag
    · simp [file, here]
    · have elsewhere : ¬ tag = shelf.tag := fun same => here same.symm
      rw [file, if_neg here, List.map_cons, ih]
      by_cases known : tag ∈ rest.map (·.tag)
      · simp [known]
      · simp [known, elsewhere]

theorem tags_register {r : Registry} {past : List String} (start : r.tags = past.eraseDups)
    (d : Declaration) : (r.register d).tags = (past ++ d.shelves).eraseDups :=
  foldl_insert_eq_eraseDups (List.map Shelf.tag) (map_tag_file (r.nextEntry d)) start d.shelves

theorem tags_registerAll (gs : List Registration) :
    (empty.registerAll (gs.map (·.declaration))).tags =
      (gs.flatMap (·.uses)).eraseDups := by
  induction gs using List.reverseRecOn with
  | nil => rfl
  | append_singleton gs g ih =>
    rw [List.map_append, List.map_singleton, registerAll_append_singleton, tags_register ih,
      Registration.shelves_declaration, eraseDups_append_eraseDups, List.flatMap_append]
    simp

/-! ## Handles -/

def handles (r : Registry) : List Declaration → List Entry
  | [] => []
  | d :: ds => r.nextEntry d :: (r.register d).handles ds

theorem handles_append (r : Registry) (ds more : List Declaration) :
    r.handles (ds ++ more) = r.handles ds ++ (r.registerAll ds).handles more := by
  induction ds generalizing r with
  | nil => rfl
  | cons d ds ih => simp [handles, ih, registerAll]

theorem handles_empty (ds : List Declaration) : empty.handles ds = log ds := by
  induction ds using List.reverseRecOn with
  | nil => rfl
  | append_singleton ds d ih =>
    rw [handles_append, ih, log_append_singleton]
    simp [handles, nextEntry, count_registerAll]

end Registry

namespace Registration

/-- The registrations on an empty registry, each with the entry that it returned. -/
def history (gs : List Registration) : List (Entry × Registration) :=
  (Registry.empty.handles (gs.map (·.declaration))).zip gs

theorem history_append_singleton (gs : List Registration) (g : Registration) :
    history (gs ++ [g]) = history gs ++ [(⟨gs.length, g.declaration⟩, g)] := by
  unfold history
  rw [List.map_append, List.map_singleton, Registry.handles_empty, Registry.handles_empty,
    Registry.log_append_singleton, List.length_map, List.zip_append (by simp [Registry.log])]
  rfl

theorem map_fst_history (gs : List Registration) :
    (history gs).map Prod.fst = Registry.log (gs.map (·.declaration)) := by
  unfold history
  rw [Registry.handles_empty]
  exact List.map_fst_zip (by simp [Registry.log])

theorem map_snd_history (gs : List Registration) : (history gs).map Prod.snd = gs := by
  induction gs using List.reverseRecOn with
  | nil => rfl
  | append_singleton gs g ih => simp [history_append_singleton, ih]

theorem map_serial_history (gs : List Registration) :
    (history gs).map (·.1.serial) = List.range gs.length := by
  induction gs using List.reverseRecOn with
  | nil => rfl
  | append_singleton gs g ih => simp [history_append_singleton, ih, List.range_succ]

end Registration

/-! ## Questions answered from the history -/

namespace Registry

variable {gs : List Registration} {e : Entry} {g : Registration}

/-- The entries of a tag are those that the registrations filed under it returned. -/
theorem tagged_eq_filter_history (gs : List Registration) (tag : String) :
    (empty.registerAll (gs.map (·.declaration))).tagged tag =
      ((Registration.history gs).filter (·.2.FiledUnder tag)).map Prod.fst := by
  induction gs using List.reverseRecOn with
  | nil => rfl
  | append_singleton gs g ih =>
    rw [List.map_append, List.map_singleton, registerAll_append_singleton, tagged_register, ih,
      Registration.history_append_singleton, nextEntry, count_registerAll, List.length_map,
      List.filter_append]
    by_cases filed : g.FiledUnder tag
    · simp [filed, Registration.mem_shelves_declaration]
    · simp [filed, Registration.mem_shelves_declaration]

/-- A tag is in use exactly if something is filed under it. -/
theorem mem_tags_iff (gs : List Registration) (tag : String) :
    tag ∈ (empty.registerAll (gs.map (·.declaration))).tags ↔
      (empty.registerAll (gs.map (·.declaration))).tagged tag ≠ [] := by
  rw [tags_registerAll, List.mem_eraseDups, List.mem_flatMap, tagged_eq_filter_history, ne_eq,
    List.map_eq_nil_iff, List.filter_eq_nil_iff]
  simp only [decide_eq_true_eq, not_forall, not_not]
  constructor
  · rintro ⟨g, member, used⟩
    rw [← Registration.map_snd_history gs] at member
    obtain ⟨p, registered, rfl⟩ := List.mem_map.mp member
    exact ⟨p, registered, Registration.mem_uses.mp used⟩
  · rintro ⟨p, registered, filed⟩
    refine ⟨p.2, ?_, Registration.mem_uses.mpr filed⟩
    rw [← Registration.map_snd_history gs]
    exact List.mem_map_of_mem registered

theorem nodup_serials_history (gs : List Registration) :
    ((Registration.history gs).map (·.1.serial)).Nodup := by
  rw [Registration.map_serial_history]
  exact List.nodup_range

/-- The entry of a registration stands once among the entries of each tag that it is filed under. -/
theorem countP_tagged (registered : (e, g) ∈ Registration.history gs) (tag : String) :
    ((empty.registerAll (gs.map (·.declaration))).tagged tag).countP e.same =
      if g.FiledUnder tag then 1 else 0 := by
  have serials : e.same = (fun n => n == e.serial) ∘ Entry.serial := by
    funext x
    simp [Entry.same, eq_comm]
  have distinct : ((((Registration.history gs).filter (·.2.FiledUnder tag)).map
      Prod.fst).map Entry.serial).Nodup := by
    rw [List.map_map]
    exact (nodup_serials_history gs).sublist (List.filter_sublist.map _)
  rw [tagged_eq_filter_history, serials, ← List.countP_map]
  change List.count e.serial _ = _
  rw [distinct.count]
  refine if_congr ?_ rfl rfl
  rw [List.map_map, List.mem_map]
  constructor
  · rintro ⟨p, found, same⟩
    obtain ⟨member, filed⟩ := List.mem_filter.mp found
    have own : p = (e, g) :=
      List.inj_on_of_nodup_map (nodup_serials_history gs) member registered same
    simpa [own] using filed
  · intro filed
    exact ⟨(e, g), List.mem_filter.mpr ⟨registered, by simpa using filed⟩, rfl⟩

/-- In a selection an entry stands once for the wildcard, if it is filed there, and once for each
time that a tag of its own is requested. -/
theorem countP_entries (registered : (e, g) ∈ Registration.history gs) (requested : List String) :
    ((empty.registerAll (gs.map (·.declaration))).get requested).entries.countP e.same =
      (if g.FiledUnder wildcard then 1 else 0) + requested.countP (g.FiledUnder ·) := by
  have asked : (requested.flatMap
      (empty.registerAll (gs.map (·.declaration))).tagged).countP e.same =
        requested.countP (g.FiledUnder ·) := by
    induction requested with
    | nil => rfl
    | cons tag rest ih =>
      rw [List.flatMap_cons, List.countP_append, ih, countP_tagged registered, List.countP_cons,
        Nat.add_comm]
      simp only [decide_eq_true_eq]
  rw [Selection.entries, List.countP_append, get, countP_tagged registered, asked]

/-- What a registry answers after any registrations is what their history says. -/
theorem answers_eq_history (gs : List Registration) :
    let r := empty.registerAll (gs.map (·.declaration))
    let history := Registration.history gs
    (history.map (·.2) = gs ∧ history.map (·.1) = log (gs.map (·.declaration)) ∧
        (history.map (·.1.serial)).Nodup) ∧
      (∀ tag, r.tagged tag = (history.filter (·.2.FiledUnder tag)).map (·.1)) ∧
      (r.tags = (gs.flatMap (·.uses)).eraseDups ∧ r.tags.Nodup ∧
        ∀ tag, tag ∈ r.tags ↔ r.tagged tag ≠ []) ∧
      (r.count = gs.length ∧ (r.isEmpty = true ↔ gs = [])) ∧
      ∀ requested,
        (r.get requested).entries = r.tagged wildcard ++ requested.flatMap r.tagged ∧
        ∀ p ∈ history, (r.get requested).entries.countP p.1.same =
          (if p.2.FiledUnder wildcard then 1 else 0) + requested.countP (p.2.FiledUnder ·) := by
  intro r history
  have count : r.count = gs.length := by
    rw [count_registerAll, List.length_map]
  refine ⟨⟨Registration.map_snd_history gs, Registration.map_fst_history gs,
    nodup_serials_history gs⟩, tagged_eq_filter_history gs,
    ⟨tags_registerAll gs, ?_, mem_tags_iff gs⟩, ⟨count, ?_⟩, ?_⟩
  · rw [tags_registerAll]
    exact nodup_eraseDups _
  · rw [isEmpty, count, beq_iff_eq, List.length_eq_zero_iff]
  · intro requested
    exact ⟨rfl, fun p registered => countP_entries registered requested⟩

/-- An option that mentions the wildcard besides another tag, in two groups and with a repetition,
stands four times in a selection that asks for both and for one of them twice. -/
theorem answers_eq_history_explicit_wildcard :
    let jobs : Registration := ⟨["--jobs"], {}, [["ql", "*"], ["ql"]]⟩
    let verbose : Registration := ⟨["--verbose"], { action := .storeTrue }, [[]]⟩
    let r := empty.registerAll ([jobs, verbose].map (·.declaration))
    (⟨0, jobs.declaration⟩, jobs) ∈ Registration.history [jobs, verbose] ∧
      r.tags = ["ql", "*"] ∧
      (r.get ["ql", "trap", "*", "ql"]).entries.countP
        (Entry.same ⟨0, jobs.declaration⟩) = 4 := by
  intro jobs verbose r
  have registered : ((⟨0, jobs.declaration⟩ : Entry), jobs) ∈
      Registration.history [jobs, verbose] := by
    decide
  obtain ⟨_, _, ⟨tags, _⟩, _, selections⟩ := answers_eq_history [jobs, verbose]
  obtain ⟨_, counts⟩ := selections ["ql", "trap", "*", "ql"]
  exact ⟨registered, tags, counts _ registered⟩

end Registry

end TaggedOptions
