import Mathlib
import TaggedOptions.Proofs.History
import TaggedOptions.Proofs.ReadBack
import TaggedOptions.Proofs.Stages

/-! # Reading back with another selection

The matches that one selection leads to can be read back with the options of another one.  Then
several options may share a destination, with each other or with an argument that keeps values of
another type; an option that does not read what is stored is passed over, and a later one may still
read it.  What is answered in the end is a matter of which options there are: their order decides
only where an answer stands.
-/

namespace TaggedOptions

theorem eraseDups_map {α β : Type} [BEq α] [LawfulBEq α] [BEq β] [LawfulBEq β] {f : α → β}
    {l : List α} (apart : ∀ x ∈ l, ∀ y ∈ l, f x = f y → x = y) :
    (l.map f).eraseDups = l.eraseDups.map f := by
  induction l using List.reverseRecOn with
  | nil => rfl
  | append_singleton l x ih =>
    have earlier : ∀ y ∈ l, y ∈ l ++ [x] := fun _ => List.mem_append_left [x]
    have known : f x ∈ l.map f ↔ x ∈ l := by
      constructor
      · intro member
        obtain ⟨y, old, same⟩ := List.mem_map.mp member
        rwa [← apart y (earlier y old) x (by simp) same]
      · exact List.mem_map_of_mem
    rw [List.map_append, List.map_singleton, eraseDups_concat, eraseDups_concat,
      ih fun y hy z hz => apart y (earlier y hy) z (earlier z hz)]
    by_cases repeated : x ∈ l
    · rw [if_pos repeated, if_pos (known.mpr repeated)]
    · rw [if_neg repeated, if_neg (mt known.mp repeated), List.map_append, List.map_singleton]

/-! ## What an option reads -/

/-- Only what an option stores is read back for it, and as the text that it is. -/
theorem Directives.readBack?_eq_some_iff {d : Directives} {v : Value} {text : String} :
    d.readBack? v = some text ↔ d.Stores v ∧ v.toText = text := by
  constructor
  · intro read
    have stores : d.Stores v := by
      unfold readBack? at read
      unfold Stores
      cases action : d.action with
      | storeTrue =>
        simp only [action, Option.map_eq_some_iff] at read
        obtain ⟨given, flag, _⟩ := read
        cases v with
        | flag given => exact ⟨given, rfl⟩
        | text _ | path _ => cases flag
      | store =>
        cases valueType : d.valueType with
        | text =>
          simp only [action, valueType] at read
          cases v with
          | text text => exact ⟨text, rfl⟩
          | flag _ | path _ => cases read
        | abspath =>
          simp only [action, valueType] at read
          cases v with
          | path path => exact ⟨path, rfl⟩
          | flag _ | text _ => cases read
    rw [readBack?_of_stores stores, Option.some.injEq] at read
    exact ⟨stores, read⟩
  · rintro ⟨stores, rfl⟩
    exact readBack?_of_stores stores

namespace Declaration

variable {m : Matches} {d : Declaration}

def ReadsFrom (m : Matches) (d : Declaration) : Prop :=
  ∃ v, m.first? d.dest = some v ∧ d.directives.Stores v

theorem answer?_eq_some_iff {a : Answer} :
    d.answer? m = some a ↔
      ∃ v, m.first? d.dest = some v ∧ d.directives.Stores v ∧ a = ⟨d.dest, v.toText⟩ := by
  unfold answer?
  cases m.first? d.dest with
  | none => simp
  | some v =>
    simp only [Option.map_eq_some_iff, Directives.readBack?_eq_some_iff, Option.some.injEq]
    constructor
    · rintro ⟨_, ⟨stores, rfl⟩, rfl⟩
      exact ⟨v, rfl, stores, rfl⟩
    · rintro ⟨_, rfl, stores, rfl⟩
      exact ⟨_, ⟨stores, rfl⟩, rfl⟩

theorem isSome_answer?_iff : (d.answer? m).isSome = true ↔ d.ReadsFrom m := by
  rw [Option.isSome_iff_exists]
  simp only [answer?_eq_some_iff]
  constructor
  · rintro ⟨_, v, found, stores, _⟩
    exact ⟨v, found, stores⟩
  · rintro ⟨v, found, stores⟩
    exact ⟨_, v, found, stores, rfl⟩

instance (m : Matches) (d : Declaration) : Decidable (d.ReadsFrom m) :=
  decidable_of_iff _ isSome_answer?_iff

/-- Options that answer for one destination give one answer. -/
theorem answer?_inj {e : Declaration} {a b : Answer} (first : d.answer? m = some a)
    (second : e.answer? m = some b) (same : a.dest = b.dest) : a = b := by
  obtain ⟨v, found, _, rfl⟩ := answer?_eq_some_iff.mp first
  obtain ⟨w, found', _, rfl⟩ := answer?_eq_some_iff.mp second
  have dest : d.dest = e.dest := same
  rw [dest, found'] at found
  cases found
  rw [dest]

/-- The destinations of the answers are those of the options that have one, in order. -/
theorem map_dest_filterMap_answer? (m : Matches) (ds : List Declaration) :
    (ds.filterMap (·.answer? m)).map (·.dest) =
      (ds.filter fun d => d.ReadsFrom m).map (·.dest) := by
  induction ds with
  | nil => rfl
  | cons d ds ih =>
    cases answer : d.answer? m with
    | none =>
      have nothing : ¬ d.ReadsFrom m := by simp [← isSome_answer?_iff, answer]
      rw [List.filterMap_cons_none answer, ih, List.filter_cons_of_neg (by simpa using nothing)]
    | some a =>
      have reads : d.ReadsFrom m := by simp [← isSome_answer?_iff, answer]
      rw [List.filterMap_cons_some answer, List.map_cons, ih, dest_of_answer? answer,
        List.filter_cons_of_pos (by simpa using reads), List.map_cons]

end Declaration

/-! ## Collecting answers from any entries -/

/-- The options of the entries that find an answer give the answers, each once and where it comes
first. -/
theorem foldl_addAnswer_eq_eraseDups (m : Matches) (es : List Entry) :
    es.foldl (addAnswer m) [] = (es.filterMap (·.answer? m)).eraseDups := by
  induction es using List.reverseRecOn with
  | nil => rfl
  | append_singleton es e ih =>
    rw [List.foldl_append, List.foldl_cons, List.foldl_nil, ih, List.filterMap_append, addAnswer]
    cases answer : e.answer? m with
    | none => simp [answer]
    | some a =>
      rw [List.filterMap_cons_some answer, List.filterMap_nil, eraseDups_concat]
      have known : (es.filterMap (·.answer? m)).eraseDups.any (·.dest = e.dest) = true ↔
          a ∈ es.filterMap (·.answer? m) := by
        simp only [List.any_eq_true, decide_eq_true_eq, List.mem_eraseDups]
        constructor
        · rintro ⟨b, member, same⟩
          obtain ⟨_, _, earlier⟩ := List.mem_filterMap.mp member
          have one : a = b :=
            Declaration.answer?_inj answer earlier ((Entry.dest_of_answer? answer).trans same.symm)
          rwa [one]
        · exact fun member => ⟨a, member, Entry.dest_of_answer? answer⟩
      by_cases answered : a ∈ es.filterMap (·.answer? m)
      · rw [if_pos answered, if_pos (known.mpr answered)]
      · rw [if_neg answered, if_neg (mt known.mp answered)]

namespace Selection

variable {s : Selection} {m : Matches}

theorem answers_eq_eraseDups (s : Selection) (m : Matches) :
    s.answers m = (s.declarations.filterMap (·.answer? m)).eraseDups := by
  rw [answers, foldl_addAnswer_eq_eraseDups, declarations, List.filterMap_map]
  rfl

theorem nodup_answers (s : Selection) (m : Matches) : (s.answers m).Nodup := by
  rw [answers_eq_eraseDups]
  exact nodup_eraseDups _

theorem mem_answers_iff {a : Answer} :
    a ∈ s.answers m ↔ ∃ v, m.first? a.dest = some v ∧ a.value = v.toText ∧
      ∃ d ∈ s.declarations, d.dest = a.dest ∧ d.directives.Stores v := by
  rw [answers_eq_eraseDups, List.mem_eraseDups, List.mem_filterMap]
  simp only [Declaration.answer?_eq_some_iff]
  constructor
  · rintro ⟨d, selected, v, found, stores, rfl⟩
    exact ⟨v, found, rfl, d, selected, rfl, stores⟩
  · rintro ⟨v, found, value, d, selected, dest, stores⟩
    obtain ⟨dest', value'⟩ := a
    cases dest
    cases value
    exact ⟨d, selected, v, found, stores, rfl⟩

/-- Each destination is answered where the first option stands that reads its value. -/
theorem map_dest_answers (s : Selection) (m : Matches) :
    (s.answers m).map (·.dest) =
      ((s.declarations.filter fun d => d.ReadsFrom m).map (·.dest)).eraseDups := by
  rw [answers_eq_eraseDups, ← Declaration.map_dest_filterMap_answer?, eraseDups_map]
  intro a answered b answered' same
  obtain ⟨_, _, first⟩ := List.mem_filterMap.mp answered
  obtain ⟨_, _, second⟩ := List.mem_filterMap.mp answered'
  exact Declaration.answer?_inj first second same

end Selection

/-! ## Matches of a selection -/

/-- Each destination holds one value at most, and it was stored for one of the options. -/
def Matches.SingleFor (m : Matches) (ds : List Declaration) : Prop :=
  ∀ dest values, m.get? dest = some values →
    ∃ v, values = [v] ∧ ∃ d ∈ ds, d.dest = dest ∧ d.directives.Stores v

theorem Admissible.singleFor_of_read {ds : List Declaration} (h : Admissible ds)
    {s : Surroundings} {name : String} {argv : List String} {m : Matches}
    (read : Command.read { name, arguments := ds.map (·.argument) } s argv = .ok m) :
    m.SingleFor ds := by
  intro dest values found
  obtain ⟨typed, _⟩ := Command.read_spec (h.singleValued name) read
  obtain ⟨a, member, same, v, only, keeps⟩ := typed _ (Matches.mem_of_get?_eq_some found)
  rcases Command.mem_allArguments_iff.mp member with ⟨d, declared, rfl⟩ | rfl
  · exact ⟨v, only, d, declared, same, Directives.stores_of_keeps keeps⟩
  · cases keeps

namespace Matches.SingleFor

variable {m : Matches} {ds : List Declaration} {dest : String}

theorem first?_eq_some_iff (h : m.SingleFor ds) {v : Value} :
    m.first? dest = some v ↔ m.get? dest = some [v] := by
  constructor
  · intro head
    obtain ⟨values, found, begins⟩ := Option.bind_eq_some_iff.mp head
    obtain ⟨w, rfl, _⟩ := h _ _ found
    cases begins
    exact found
  · intro found
    simp [first?, found]

theorem has_iff (h : m.SingleFor ds) : m.has dest = true ↔ ∃ v, m.get? dest = some [v] := by
  rw [← not_iff_not, Bool.not_eq_true, ← get?_eq_none_iff]
  constructor
  · rintro nothing ⟨v, found⟩
    simp [nothing] at found
  · intro empty
    by_contra something
    obtain ⟨values, found⟩ := Option.ne_none_iff_exists'.mp something
    obtain ⟨v, rfl, _⟩ := h _ _ found
    exact empty ⟨v, found⟩

theorem mem_map_dest_answers_iff (h : m.SingleFor ds) (s : Selection) :
    dest ∈ (s.answers m).map (·.dest) ↔ ∃ v, m.get? dest = some [v] ∧
      ∃ d ∈ s.declarations, d.dest = dest ∧ d.directives.Stores v := by
  simp only [List.mem_map, Selection.mem_answers_iff, h.first?_eq_some_iff]
  constructor
  · rintro ⟨a, ⟨v, found, _, reads⟩, rfl⟩
    exact ⟨v, found, reads⟩
  · rintro ⟨v, found, reads⟩
    exact ⟨⟨dest, v.toText⟩, ⟨v, found, rfl, reads⟩, rfl⟩

/-- Two selections that both read everything that is stored give the same answers. -/
theorem perm_answers (h : m.SingleFor ds) {s t : Selection} (first : ds ⊆ s.declarations)
    (second : ds ⊆ t.declarations) : (s.answers m).Perm (t.answers m) := by
  have reads {u v : Selection} (covered : ds ⊆ v.declarations) {a : Answer}
      (answered : a ∈ u.answers m) : a ∈ v.answers m := by
    obtain ⟨w, found, value, _⟩ := Selection.mem_answers_iff.mp answered
    obtain ⟨w', only, d, declared, stores⟩ := h _ _ (h.first?_eq_some_iff.mp found)
    cases only
    exact Selection.mem_answers_iff.mpr ⟨w, found, value, d, covered declared, stores⟩
  exact (List.perm_ext_iff_of_nodup (s.nodup_answers m) (t.nodup_answers m)).mpr fun a =>
    ⟨reads second, reads first⟩

end Matches.SingleFor

namespace Selection

/-- Reading the matches of one selection back with the options of another one, in the same registry,
answers a destination exactly if a value is stored under it and one of the options has this
destination and stores values of this type.  The answer is the text of the value, and the
destinations come in the order of the first such options.  If the other selection has all options of
the first one, then both give the same answers up to their order. -/
theorem answers_of_other (ds : List Declaration) (tags others : List String) (name : String)
    (s : Surroundings) (argv : List String) (m : Matches) :
    let selection := (Registry.empty.registerAll ds).get tags
    let other := (Registry.empty.registerAll ds).get others
    selection.matches? s name argv = .ok m →
    (∀ dest, m.has dest = true ↔ ∃ v, m.get? dest = some [v]) ∧
      (∀ dest, dest ∈ (other.answers m).map (·.dest) ↔ ∃ v, m.get? dest = some [v] ∧
        ∃ d ∈ other.declarations, d.dest = dest ∧ d.directives.Stores v) ∧
      (∀ a ∈ other.answers m, ∃ v, m.get? a.dest = some [v] ∧ a.value = v.toText) ∧
      (other.answers m).map (·.dest) =
        ((other.declarations.filter fun d => d.ReadsFrom m).map (·.dest)).eraseDups ∧
      (selection.entries ⊆ other.entries → (selection.answers m).Perm (other.answers m)) := by
  intro selection other matched
  obtain ⟨c, assembled, read⟩ := matches?_eq_ok_iff.mp matched
  obtain ⟨admissible, rfl⟩ := admissible_of_command assembled
  have single : m.SingleFor selection.options := admissible.singleFor_of_read read
  have own : selection.options ⊆ selection.declarations := fun d selected =>
    mem_declarations_of_mem_options selected
  refine ⟨fun dest => single.has_iff, fun dest => single.mem_map_dest_answers_iff other,
    fun a answered => ?_, map_dest_answers other m, fun among => ?_⟩
  · obtain ⟨v, found, value, _⟩ := mem_answers_iff.mp answered
    exact ⟨v, single.first?_eq_some_iff.mp found, value⟩
  · have shared : selection.declarations ⊆ other.declarations := List.map_subset _ among
    exact single.perm_answers own (List.Subset.trans own shared)

/-- The other stage has an option for the same destination that stores texts and is passed over, and
one that reads the path and stands before all others. -/
theorem answers_of_other_shared_destination :
    let format : Declaration :=
      ⟨["--format"], { default := some (.text "json") }, .ofList ["ql"]⟩
    let out : Declaration := ⟨["--out"], { valueType := .abspath }, .ofList ["ql"]⟩
    let outText : Declaration := ⟨["--out", "-o"], {}, .ofList ["trap"]⟩
    let outPath : Declaration :=
      ⟨["--target"], { valueType := .abspath, dest := some "out" }, .ofList ["trap"]⟩
    let r := Registry.empty.registerAll [format, out, outText, outPath]
    let m : Matches := [⟨"out", [.path "/w/gen"]⟩, ⟨"format", [.text "json"]⟩]
    (r.get ["ql"]).matches? (FileTree.bare.surroundings ["w"]) "codegen" ["--out=gen"] = .ok m ∧
      ((r.get ["trap", "ql"]).answers m).map (·.dest) = ["out", "format"] ∧
      ((r.get ["ql"]).answers m).Perm ((r.get ["trap", "ql"]).answers m) := by
  intro format out outText outPath r m
  have matched : (r.get ["ql"]).matches? (FileTree.bare.surroundings ["w"]) "codegen"
      ["--out=gen"] = .ok m := by
    decide +kernel
  obtain ⟨_, _, _, order, same⟩ := answers_of_other [format, out, outText, outPath] ["ql"]
    ["trap", "ql"] "codegen" (FileTree.bare.surroundings ["w"]) ["--out=gen"] m matched
  exact ⟨matched, order.trans (by decide +kernel), same (by decide)⟩

end Selection

end TaggedOptions
