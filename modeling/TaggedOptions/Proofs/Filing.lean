import Mathlib
import TaggedOptions.Registry.Selection

/-! # The registry as a log

A registry that is filled by registrations is a log of declarations: the serial number of an entry
is its position in the log, and the entries filed under a tag are the entries of the log that belong
there, in order.  So entries are told apart by their serial numbers, and the distinct entries of a
selection can be taken by serial number or by equality alike.
-/

namespace TaggedOptions

namespace Registry

def log (ds : List Declaration) : List Entry := ds.zipIdx.map fun (d, serial) => ⟨serial, d⟩

theorem log_append_singleton (ds : List Declaration) (d : Declaration) :
    log (ds ++ [d]) = log ds ++ [⟨ds.length, d⟩] := by
  simp [log, List.zipIdx_append]

theorem getElem?_of_mem_log {ds : List Declaration} {e : Entry} (h : e ∈ log ds) :
    ds[e.serial]? = some e.declaration := by
  obtain ⟨⟨d, serial⟩, member, rfl⟩ := List.mem_map.mp h
  exact List.mem_zipIdx_iff_getElem?.mp member

/-! ## Filing one entry -/

/-- Filing an entry adds it to the shelf of its tag and leaves the other shelves alone. -/
theorem tagged_file (r : Registry) (e : Entry) (tag place : String) :
    ({ r with shelves := file e r.shelves place } : Registry).tagged tag =
      r.tagged tag ++ if tag = place then [e] else [] := by
  unfold tagged
  generalize r.shelves = shelves
  induction shelves with
  | nil => by_cases same : tag = place <;> simp [file, same, eq_comm]
  | cons shelf rest ih =>
    by_cases here : shelf.tag = place
    · subst here
      by_cases same : shelf.tag = tag
      · simp [file, same]
      · have other : tag ≠ shelf.tag := fun h => same h.symm
        simp [file, same, other]
    · by_cases same : shelf.tag = tag
      · subst same
        simp [file, here]
      · simp [file, here, same] at ih ⊢
        exact ih

/-- Filing an entry under distinct tags adds it once to the shelf of each. -/
theorem tagged_foldl_file (r : Registry) (e : Entry) (tag : String) {places : List String}
    (distinct : places.Nodup) :
    ({ r with shelves := places.foldl (file e) r.shelves } : Registry).tagged tag =
      r.tagged tag ++ if tag ∈ places then [e] else [] := by
  induction places generalizing r with
  | nil => simp
  | cons place rest ih =>
    obtain ⟨fresh, distinct⟩ := List.nodup_cons.mp distinct
    rw [List.foldl_cons, ih { r with shelves := file e r.shelves place } distinct, tagged_file]
    by_cases same : tag = place
    · subst same
      simp [fresh]
    · simp [same]

end Registry

theorem Declaration.shelves_nodup (d : Declaration) : d.shelves.Nodup := by
  unfold shelves
  split
  · exact List.nodup_singleton wildcard
  · exact d.tags.nodup

namespace Registry

/-! ## Whole registries -/

theorem tagged_register (r : Registry) (d : Declaration) (tag : String) :
    (r.register d).tagged tag = r.tagged tag ++ if tag ∈ d.shelves then [r.nextEntry d] else [] :=
  tagged_foldl_file r (r.nextEntry d) tag d.shelves_nodup

theorem registerAll_append_singleton (r : Registry) (ds : List Declaration) (d : Declaration) :
    r.registerAll (ds ++ [d]) = (r.registerAll ds).register d := by
  simp [registerAll]

theorem registerAll_cons (r : Registry) (d : Declaration) (ds : List Declaration) :
    r.registerAll (d :: ds) = (r.register d).registerAll ds := rfl

theorem count_registerAll_of (r : Registry) (ds : List Declaration) :
    (r.registerAll ds).count = r.count + ds.length := by
  induction ds generalizing r with
  | nil => rfl
  | cons d ds ih =>
    have first : (r.register d).count = r.count + 1 := rfl
    rw [registerAll_cons, ih, first, List.length_cons]
    omega

theorem count_registerAll (ds : List Declaration) : (empty.registerAll ds).count = ds.length := by
  rw [count_registerAll_of]
  exact Nat.zero_add ds.length

/-- The entries filed under a tag are those of the log that belong there. -/
theorem tagged_registerAll (ds : List Declaration) (tag : String) :
    (empty.registerAll ds).tagged tag =
      (log ds).filter fun e => tag ∈ e.declaration.shelves := by
  induction ds using List.reverseRecOn with
  | nil => rfl
  | append_singleton ds d ih =>
    rw [registerAll_append_singleton, tagged_register, ih, nextEntry, count_registerAll,
      log_append_singleton, List.filter_append]
    by_cases filed : tag ∈ d.shelves <;> simp [filed]

theorem mem_log_of_mem_entries {ds : List Declaration} {tags : List String} {e : Entry}
    (h : e ∈ ((empty.registerAll ds).get tags).entries) : e ∈ log ds := by
  simp only [Selection.entries, get, List.mem_append, List.mem_flatMap, tagged_registerAll] at h
  rcases h with always | ⟨tag, _, asked⟩
  · exact List.mem_of_mem_filter always
  · exact List.mem_of_mem_filter asked

end Registry

/-! ## Identity -/

/-- Entries that come from the same registration are equal. -/
def SerialsTell (es : List Entry) : Prop := ∀ a ∈ es, ∀ b ∈ es, a.serial = b.serial → a = b

theorem Registry.serialsTell (ds : List Declaration) (tags : List String) :
    SerialsTell ((empty.registerAll ds).get tags).entries := by
  intro a ha b hb same
  have first := getElem?_of_mem_log (mem_log_of_mem_entries ha)
  have second := getElem?_of_mem_log (mem_log_of_mem_entries hb)
  rw [same, second] at first
  obtain ⟨serial, declaration⟩ := a
  obtain ⟨serial', declaration'⟩ := b
  cases same
  cases first
  rfl

theorem foldl_distinct (es kept : List Entry) :
    es.foldl (fun kept e => if kept.any e.same then kept else kept ++ [e]) kept =
      kept ++ (es.filter fun e => !kept.any e.same).eraseDupsBy Entry.same := by
  induction es generalizing kept with
  | nil => simp
  | cons e rest ih =>
    rw [List.foldl_cons, ih]
    by_cases known : kept.any e.same = true
    · simp [known]
    · have later : (rest.filter fun x => !(kept ++ [e]).any x.same) =
          (rest.filter fun x => !kept.any x.same).filter fun x => x.same e = false := by
        rw [List.filter_filter]
        refine List.filter_congr fun x _ => ?_
        cases hx : x.same e <;> simp [hx]
      rw [if_neg known, later, List.filter_cons_of_pos (by simpa using known),
        List.eraseDupsBy_cons, List.append_assoc, List.singleton_append]

/-- Keeping the first occurrence of each entry drops every repetition of a serial number. -/
theorem distinctEntries_eq (es : List Entry) : distinctEntries es = es.eraseDupsBy Entry.same := by
  unfold distinctEntries
  rw [foldl_distinct]
  simp

namespace Selection

/-- The declarations of a selection in the order of first occurrence, once for each entry. -/
def options (s : Selection) : List Declaration :=
  (s.entries.eraseDupsBy Entry.same).map (·.declaration)

theorem distinct_map_declaration (s : Selection) : s.distinct.map (·.declaration) = s.options := by
  rw [options, ← distinctEntries_eq, distinct]

end Selection

end TaggedOptions
