import Mathlib
import TaggedOptions.Place.Path

/-! # Places and their texts

A place is written as the text of an absolute path.  As long as its names are plain, taking the text
apart gives back the names, so that a place can be told from its text.
-/

namespace TaggedOptions

structure PlainName (name : String) : Prop where
  nonempty : name ≠ ""
  noDot : name ≠ "."
  noDots : name ≠ ".."
  noSlash : '/' ∉ name.toList

instance (name : String) : Decidable (PlainName name) :=
  decidable_of_iff (name ≠ "" ∧ name ≠ "." ∧ name ≠ ".." ∧ '/' ∉ name.toList)
    ⟨fun ⟨nonempty, noDot, noDots, noSlash⟩ => ⟨nonempty, noDot, noDots, noSlash⟩,
      fun ⟨nonempty, noDot, noDots, noSlash⟩ => ⟨nonempty, noDot, noDots, noSlash⟩⟩

def Place.Plain (p : Place) : Prop := ∀ name ∈ p, PlainName name

instance (p : Place) : Decidable p.Plain := inferInstanceAs (Decidable (∀ name ∈ p, PlainName name))

def PlainRoute (route : List Step) : Prop := ∀ name, .down name ∈ route → PlainName name

theorem PlainRoute.tail {s : Step} {rest : List Step} (h : PlainRoute (s :: rest)) :
    PlainRoute rest :=
  fun name member => h name (List.mem_cons_of_mem s member)

theorem PlainRoute.append {before after : List Step} (first : PlainRoute before)
    (second : PlainRoute after) : PlainRoute (before ++ after) :=
  fun name member => (List.mem_append.mp member).elim (first name) (second name)

theorem Step.ofName_of_plain {name : String} (h : PlainName name) : ofName name = .down name := by
  rw [ofName, if_neg h.noDot, if_neg h.noDots]

namespace Path

theorem not_mem_of_mem_splitOn {chars part : List Char} (h : part ∈ chars.splitOn '/') :
    '/' ∉ part := by
  induction chars generalizing part with
  | nil =>
    rw [List.splitOn_nil, List.mem_singleton] at h
    simp [h]
  | cons c rest ih =>
    rw [List.splitOn_cons_eq_if_modifyHead] at h
    split at h
    · rcases List.mem_cons.mp h with rfl | later
      · exact List.not_mem_nil
      · exact ih later
    next other =>
      cases parts : rest.splitOn '/' with
      | nil =>
        rw [parts] at h
        cases h
      | cons first others =>
        rw [parts, List.modifyHead_cons, List.mem_cons] at h
        rcases h with rfl | later
        · have kept : '/' ∉ first := ih (by simp [parts])
          have differs : c ≠ '/' := by simpa using other
          simp [kept, differs.symm]
        · exact ih (by simp [parts, later])

theorem noSlash_of_mem_segments {path segment : String} (h : segment ∈ segments path) :
    '/' ∉ segment.toList := by
  obtain ⟨chars, member, rfl⟩ := List.mem_map.mp h
  rw [String.toList_ofList]
  exact not_mem_of_mem_splitOn member

/-- The steps of a path text go down by plain names only. -/
theorem plainRoute_steps (path : String) : PlainRoute (steps path) := by
  intro name h
  obtain ⟨segment, member, step⟩ := List.mem_map.mp h
  obtain ⟨member, nonempty⟩ := List.mem_filter.mp member
  unfold Step.ofName at step
  split at step
  · cases step
  next noDot =>
    split at step
    · cases step
    next noDots =>
      cases step
      exact ⟨by simpa using nonempty, noDot, noDots, noSlash_of_mem_segments member⟩

theorem names_append (before after : String) :
    names (before ++ "/" ++ after) = names before ++ names after := by
  have chars : (before ++ "/" ++ after).toList = before.toList ++ '/' :: after.toList := by simp
  rw [names, names, names, segments, segments, segments, chars, List.splitOn_append_cons_self,
    List.map_append, List.filter_append]

theorem exists_eq_append_slash {path : String} (ends : asksForDirectory path = true) :
    ∃ before, path = before ++ "/" := by
  have last : path.toList.getLast? = some '/' := by simpa [asksForDirectory] using ends
  obtain ⟨chars, split⟩ := List.getLast?_eq_some_iff.mp last
  exact ⟨String.ofList chars, String.toList_injective (by simp [split])⟩

theorem join_of_isAbsolute (root : String) {path : String} (absolute : isAbsolute path = true) :
    join root path = path := by
  rw [join, if_pos absolute]

/-- Below a root that has a text, and at an absolute path, there is always a slash. -/
theorem join_eq_iff {root path text : String} (noSlash : '/' ∉ text.toList) :
    join root path = text ↔ root = "" ∧ path = text := by
  unfold join
  split
  next absolute =>
    have apart : path ≠ text := by
      rintro rfl
      exact noSlash (List.mem_of_head? (by simpa [isAbsolute] using absolute))
    simp [apart]
  next =>
    split
    next own =>
      rcases (Bool.or_eq_true _ _).mp own with empty | slash
      · simp [of_decide_eq_true empty]
      · obtain ⟨before, rfl⟩ := exists_eq_append_slash slash
        have apart : before ++ "/" ++ path ≠ text := by
          rintro rfl
          simp at noSlash
        simp [apart]
    next other =>
      have apart : root ++ "/" ++ path ≠ text := by
        rintro rfl
        simp at noSlash
      have named : root ≠ "" := by
        rintro rfl
        simp at other
      simp [apart, named]

theorem join_eq_empty_iff {root path : String} : join root path = "" ↔ root = "" ∧ path = "" :=
  join_eq_iff (by simp)

theorem join_ne_empty {root : String} (named : root ≠ "") (path : String) :
    join root path ≠ "" :=
  fun empty => named (join_eq_empty_iff.mp empty).1

/-- The steps of a relative path below a root come behind those of the root. -/
theorem steps_join (root : String) {path : String} (relative : isAbsolute path = false) :
    steps (join root path) = steps root ++ steps path := by
  have parts : names (join root path) = names root ++ names path := by
    rw [join, if_neg (by simp [relative])]
    split
    next own =>
      rcases (Bool.or_eq_true _ _).mp own with empty | slash
      · rw [of_decide_eq_true empty, String.empty_append]
        rfl
      · obtain ⟨before, rfl⟩ := exists_eq_append_slash slash
        have nothing := names_append before ""
        rw [String.append_empty] at nothing
        rw [names_append, nothing, List.append_assoc]
        rfl
    · exact names_append root path
  rw [steps, parts, List.map_append]
  rfl

theorem isAbsolute_append {root : String} (named : root ≠ "") (path : String) :
    isAbsolute (root ++ path) = isAbsolute root := by
  have some : root.toList ≠ [] := by simpa using named
  rw [isAbsolute, String.toList_append, List.head?_append_of_ne_nil _ some]
  rfl

theorem isAbsolute_join {root path : String} (named : root ≠ "")
    (relative : isAbsolute path = false) : isAbsolute (join root path) = isAbsolute root := by
  rw [join, if_neg (by simp [relative])]
  split
  · exact isAbsolute_append named path
  · rw [String.append_assoc, isAbsolute_append named]

end Path

namespace Place

theorem plainRoute_map_down {p : Place} (h : p.Plain) : PlainRoute (p.map .down) := by
  intro name member
  obtain ⟨other, there, same⟩ := List.mem_map.mp member
  cases same
  exact h name there

theorem isAbsolute_toText (p : Place) : Path.isAbsolute p.toText = true := by
  simp [Path.isAbsolute, toText]

theorem toText_ne_empty (p : Place) : p.toText ≠ "" := by
  intro empty
  have slash := p.isAbsolute_toText
  rw [empty] at slash
  cases slash

theorem segments_toText {p : Place} (h : p.Plain) (nonempty : p ≠ []) :
    Path.segments p.toText = "" :: p := by
  have chars : p.toText.toList = ['/'].intercalate ([] :: p.map String.toList) := by
    cases p with
    | nil => exact absurd rfl nonempty
    | cons name rest => simp [toText, String.toList_intercalate, List.intercalate]
  have plain : ∀ l ∈ [] :: p.map String.toList, '/' ∉ l := by
    intro l member
    rcases List.mem_cons.mp member with rfl | named
    · exact List.not_mem_nil
    · obtain ⟨name, there, rfl⟩ := List.mem_map.mp named
      exact (h name there).noSlash
  rw [Path.segments, chars, List.splitOn_intercalate '/' plain (by simp), List.map_cons, List.map_map]
  simp [Function.comp_def]

/-- Taking the text of a place apart gives the way down to it. -/
theorem steps_toText {p : Place} (h : p.Plain) : Path.steps p.toText = p.map .down := by
  by_cases nonempty : p = []
  · subst nonempty
    decide
  · have kept : p.filter (· ≠ "") = p :=
      List.filter_eq_self.mpr fun name member => by simpa using (h name member).nonempty
    rw [Path.steps, Path.names, segments_toText h nonempty, List.filter_cons_of_neg (by simp), kept]
    exact List.map_congr_left fun name member => Step.ofName_of_plain (h name member)

theorem toText_injective {p q : Place} (hp : p.Plain) (hq : q.Plain) :
    p.toText = q.toText ↔ p = q := by
  constructor
  · intro same
    have steps : p.map Step.down = q.map Step.down := by
      rw [← steps_toText hp, ← steps_toText hq, same]
    exact List.map_injective_iff.mpr (fun _ _ h => Step.down.inj h) steps
  · exact congrArg toText

theorem Plain.left {p q : Place} (h : Place.Plain (p ++ q)) : p.Plain :=
  fun name member => h name (List.mem_append_left q member)

theorem Plain.append_singleton {p : Place} (h : p.Plain) {name : String} (plain : PlainName name) :
    Place.Plain (p ++ [name]) := by
  intro other member
  rcases List.mem_append.mp member with old | new
  · exact h other old
  · rw [List.mem_singleton.mp new]
    exact plain

theorem Plain.dropLast {p : Place} (h : p.Plain) : Place.Plain p.dropLast :=
  fun name member => h name (List.mem_of_mem_dropLast member)

end Place

end TaggedOptions
