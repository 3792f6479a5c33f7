import Mathlib
import TaggedOptions.Manifest.Load
import TaggedOptions.Proofs.Entries

/-! # Loading is all or nothing

A manifest declares one option for each entry of its list, in the order of the list; an entry that
is not in order keeps the whole manifest from declaring anything.  Loading a file registers exactly
the options that it declares behind those that are there, or leaves the registry alone.
-/

namespace TaggedOptions

/-! ## The entries of a document -/

namespace Document

/-- The fields of an entry: those of a table, or values without keys in the order of the keys. -/
inductive HasFields : Document → List (Option String × Document) → Prop
  | table (fields : List (Option String × Document)) (choice? : Option String) :
      HasFields (.table fields choice?) fields
  | keyless {items : List Document} {keyless : Keyless}
      (admitted : keyless.admits EntryKey.all.length items.length = true) :
      HasFields (.list items keyless) ((EntryKey.all.map (some ·.word)).zip items)

inductive Lists : Document → List Document → Prop
  | options {fields : List (Option String × Document)} {choice? : Option String}
      {options : Document} {items : List Document}
      (legible : ∀ f ∈ fields, f.1 ≠ none)
      (once : fields.filter (·.1 = some Manifest.optionKey) = [(some Manifest.optionKey, options)])
      (listed : options.items? = some items) :
      Lists (.table fields choice?) items
  | other {fields : List (Option String × Document)} {choice? : Option String}
      (legible : ∀ f ∈ fields, f.1 ≠ none)
      (unlisted : fields.filter (·.1 = some Manifest.optionKey) = []) :
      Lists (.table fields choice?) []
  | nothing : Lists (.list [] .exact) []
  | keyless {options : Document} {items : List Document} (listed : options.items? = some items) :
      Lists (.list [options] .exact) items
  | hollow {s : Scalar} (hollow : s.hollow = true) : Lists (.scalar s) []

/-- The document has the entry somewhere in its list, whatever else is in it. -/
inductive HasEntry : Document → Document → Prop
  | table {fields : List (Option String × Document)} {choice? : Option String}
      {options : Document} {items : List Document} {entry : Document}
      (field : (some Manifest.optionKey, options) ∈ fields) (listed : options.items? = some items)
      (member : entry ∈ items) : HasEntry (.table fields choice?) entry
  | keyless {options : Document} {items : List Document} {entry : Document}
      (listed : options.items? = some items) (member : entry ∈ items) :
      HasEntry (.list [options] .exact) entry

inductive Spoilt : Document → Prop
  | unknownKey {fields : List (Option String × Document)} {choice? : Option String}
      {word : String} {v : Document} (field : (some word, v) ∈ fields)
      (unknown : ∀ key : EntryKey, word ≠ key.word) : Spoilt (.table fields choice?)
  | unspelled {fields : List (Option String × Document)} {choice? : Option String}
      (missing : ∀ v, (some EntryKey.spellings.word, v) ∉ fields) : Spoilt (.table fields choice?)
  | illTyped {fields : List (Option String × Document)} {choice? : Option String}
      {key : EntryKey} {v : Document} (field : (some key.word, v) ∈ fields)
      (misfit : ¬ v.Fits key) : Spoilt (.table fields choice?)

def Declares (root : String) (entry : Document) (d : Declaration) : Prop :=
  ∃ fields : EntryFields, entry.HasFields fields.written ∧ fields.Describes root d

theorem HasEntry.mem_of_lists {document entry : Document} {items : List Document}
    (has : document.HasEntry entry) (lists : document.Lists items) : entry ∈ items := by
  cases has with
  | @table fields _ options _ _ field listed member =>
    have kept : (some Manifest.optionKey, options) ∈
        fields.filter (·.1 = some Manifest.optionKey) :=
      List.mem_filter.mpr ⟨field, decide_eq_true rfl⟩
    cases lists with
    | options _ once listed' =>
      rw [once, List.mem_singleton] at kept
      cases kept
      rw [listed] at listed'
      cases listed'
      exact member
    | other _ unlisted =>
      rw [unlisted] at kept
      cases kept
  | keyless listed member =>
    cases lists with
    | keyless listed' =>
      rw [listed] at listed'
      cases listed'
      exact member

end Document

namespace EntryFields

theorem mem_written_iff {fields : EntryFields} {word : String} {v : Document} :
    (some word, v) ∈ fields.written ↔ ∃ key : EntryKey, word = key.word ∧ (key, v) ∈ fields := by
  simp only [written, List.mem_map, Prod.mk.injEq, Option.some.injEq, Prod.exists]
  constructor
  · rintro ⟨key, _, member, rfl, rfl⟩
    exact ⟨key, rfl, member⟩
  · rintro ⟨key, rfl, member⟩
    exact ⟨key, v, member, rfl, rfl⟩

/-- Every value that describes a part of a declaration has the type of its key. -/
theorem Describes.fits {fields : EntryFields} {root : String} {d : Declaration}
    (h : fields.Describes root d) {key : EntryKey} {v : Document} (member : (key, v) ∈ fields) :
    v.Fits key := by
  obtain ⟨e, completes, _⟩ := describes_iff.mp h
  exact ((completes.parts key).present v member).fits

end EntryFields

/-- A table with an unknown key, without spellings or with a value of a wrong type declares
nothing. -/
theorem Document.Spoilt.not_declares {entry : Document} (h : entry.Spoilt) (root : String)
    (d : Declaration) : ¬ entry.Declares root d := by
  rintro ⟨fields, has, describes⟩
  cases h with
  | unknownKey field unknown =>
    cases has
    obtain ⟨key, named, _⟩ := EntryFields.mem_written_iff.mp field
    exact unknown key named
  | unspelled missing =>
    cases has
    refine describes.spellings.absent fun spelled => ?_
    obtain ⟨⟨_, v⟩, member, rfl⟩ := List.mem_map.mp spelled
    exact missing v (EntryFields.mem_written_iff.mpr ⟨_, rfl, member⟩)
  | illTyped field misfit =>
    cases has
    obtain ⟨key, named, member⟩ := EntryFields.mem_written_iff.mp field
    cases EntryKey.word_injective named
    exact misfit (describes.fits member)

/-! ## Reading entries -/

namespace ManifestEntry

theorem ofDocument_eq_ok_iff {entry : Document} {e : ManifestEntry} :
    ofDocument entry = .ok e ↔ ∃ fields : EntryFields,
      entry.HasFields fields.written ∧ Completes { spellings := [] } [] fields e := by
  cases entry with
  | scalar s =>
    have fieldless {texts : List (Option String × Document)} :
        ¬ Document.HasFields (.scalar s) texts := fun h => by cases h
    cases hollow : s.hollow <;> simp [ofDocument, fieldless, hollow]
  | list items keyless =>
    by_cases admitted : keyless.admits EntryKey.all.length items.length = true
    · have values {texts : List (Option String × Document)} :
          Document.HasFields (.list items keyless) texts ↔
            (EntryKey.all.map (some ·.word)).zip items = texts :=
        ⟨fun h => by cases h; rfl, fun h => h ▸ .keyless admitted⟩
      simp only [ofDocument, if_pos admitted, ofFields_eq_ok_iff, values]
    · have fieldless {texts : List (Option String × Document)} :
          ¬ Document.HasFields (.list items keyless) texts :=
        fun h => by cases h; contradiction
      simp [ofDocument, admitted, fieldless]
  | table texts choice? =>
    have values {texts' : List (Option String × Document)} :
        Document.HasFields (.table texts choice?) texts' ↔ texts = texts' :=
      ⟨fun h => by cases h; rfl, fun h => h ▸ .table texts choice?⟩
    simp only [ofDocument, ofFields_eq_ok_iff, values]
  | endless =>
    have fieldless {texts : List (Option String × Document)} :
        ¬ Document.HasFields .endless texts := fun h => by cases h
    simp [ofDocument, fieldless]

/-- An entry declares exactly the option of what is read from it. -/
theorem declares_iff {root : String} {entry : Document} {d : Declaration} :
    entry.Declares root d ↔ ∃ e, ofDocument entry = .ok e ∧ e.declaration root = d := by
  unfold Document.Declares
  simp only [ofDocument_eq_ok_iff, EntryFields.describes_iff]
  constructor
  · rintro ⟨fields, has, e, completes, declared⟩
    exact ⟨e, ⟨fields, has, completes⟩, declared⟩
  · rintro ⟨e, ⟨fields, has, completes⟩, declared⟩
    exact ⟨fields, has, e, completes, declared⟩

end ManifestEntry

namespace Manifest

theorem readEntries_eq_ok_iff {items : List Document} {entries : List ManifestEntry} :
    readEntries items = .ok entries ↔
      List.Forall₂ (fun item e => ManifestEntry.ofDocument item = .ok e) items entries := by
  induction items generalizing entries with
  | nil => simp [readEntries, eq_comm]
  | cons item items ih =>
    rw [List.forall₂_cons_left_iff]
    cases first : ManifestEntry.ofDocument item with
    | error e => simp [readEntries, first]
    | ok e =>
      simp only [← ih]
      cases rest : readEntries items <;> simp [readEntries, first, rest, eq_comm]

theorem ofOptions_eq_ok_iff {options : Document} {m : Manifest} :
    ofOptions options = .ok m ↔
      ∃ items, options.items? = some items ∧ readEntries items = .ok m.entries := by
  unfold ofOptions
  cases options.items? with
  | none => simp
  | some items =>
    obtain ⟨entries⟩ := m
    cases read : readEntries items <;> simp [read]

/-- Once the list of entries is read, the other fields only have to be about other things. -/
theorem ofFields_some_eq_ok_iff {m m' : Manifest} {fields : List (Option String × Document)} :
    ofFields (some m) fields = .ok m' ↔
      (∀ f ∈ fields, f.1 ≠ none) ∧ fields.filter (·.1 = some optionKey) = [] ∧ m = m' := by
  induction fields with
  | nil => simp [ofFields]
  | cons field fields ih =>
    obtain ⟨text, value⟩ := field
    cases text with
    | none => simp [ofFields]
    | some word => by_cases named : word = optionKey <;> simp [ofFields, named, ih]

theorem ofFields_none_eq_ok_iff {m : Manifest} {fields : List (Option String × Document)} :
    ofFields none fields = .ok m ↔ (∀ f ∈ fields, f.1 ≠ none) ∧
      (fields.filter (·.1 = some optionKey) = [] ∧ m = {} ∨
        ∃ options, fields.filter (·.1 = some optionKey) = [(some optionKey, options)] ∧
          ofOptions options = .ok m) := by
  induction fields with
  | nil => simp [ofFields, eq_comm]
  | cons field fields ih =>
    obtain ⟨text, value⟩ := field
    cases text with
    | none => simp [ofFields]
    | some word =>
      by_cases named : word = optionKey
      · subst named
        cases read : ofOptions value with
        | error e => simp [ofFields, read]
        | ok m' => simp [ofFields, read, ofFields_some_eq_ok_iff]
      · simp [ofFields, named, ih]

/-- A document is read as a manifest exactly if it lists entries that can all be read. -/
theorem ofDocument_eq_ok_iff {document : Document} {m : Manifest} :
    ofDocument document = .ok m ↔
      ∃ items, document.Lists items ∧ readEntries items = .ok m.entries := by
  have empty : readEntries [] = .ok m.entries ↔ m = {} := by
    obtain ⟨entries⟩ := m
    simp [readEntries, eq_comm]
  constructor
  · intro read
    unfold ofDocument at read
    split at read
    next fields choice? =>
      obtain ⟨legible, ⟨unlisted, rfl⟩ | ⟨options, once, read⟩⟩ := ofFields_none_eq_ok_iff.mp read
      · exact ⟨[], .other legible unlisted, rfl⟩
      · obtain ⟨items, listed, read⟩ := ofOptions_eq_ok_iff.mp read
        exact ⟨items, .options legible once listed, read⟩
    next =>
      cases read
      exact ⟨[], .nothing, rfl⟩
    next options =>
      obtain ⟨items, listed, read⟩ := ofOptions_eq_ok_iff.mp read
      exact ⟨items, .keyless listed, read⟩
    next s =>
      split at read
      next hollow =>
        cases read
        exact ⟨[], .hollow hollow, rfl⟩
      next => cases read
    next => cases read
  · rintro ⟨items, lists, read⟩
    cases lists with
    | options legible once listed =>
      exact ofFields_none_eq_ok_iff.mpr
        ⟨legible, .inr ⟨_, once, ofOptions_eq_ok_iff.mpr ⟨items, listed, read⟩⟩⟩
    | other legible unlisted =>
      exact ofFields_none_eq_ok_iff.mpr ⟨legible, .inl ⟨unlisted, empty.mp read⟩⟩
    | nothing => rw [empty.mp read]; rfl
    | keyless listed => exact ofOptions_eq_ok_iff.mpr ⟨items, listed, read⟩
    | hollow hollow => rw [empty.mp read, ofDocument, if_pos hollow]

def DeclaredBy (root : String) (document : Document) (ds : List Declaration) : Prop :=
  ∃ items, document.Lists items ∧ List.Forall₂ (Document.Declares root) items ds

theorem declaredBy_iff {root : String} {document : Document} {ds : List Declaration} :
    DeclaredBy root document ds ↔
      ∃ m, ofDocument document = .ok m ∧ m.declarations root = ds := by
  have each {items : List Document} : List.Forall₂ (Document.Declares root) items ds ↔
      ∃ entries, readEntries items = .ok entries ∧
        entries.map (·.declaration root) = ds := by
    simp only [readEntries_eq_ok_iff]
    induction items generalizing ds with
    | nil => cases ds <;> simp
    | cons item items ih =>
      simp only [List.forall₂_cons_left_iff, ManifestEntry.declares_iff, ih]
      constructor
      · rintro ⟨d, ds, ⟨e, read, rfl⟩, ⟨entries, others, rfl⟩, rfl⟩
        exact ⟨e :: entries, ⟨e, entries, read, others, rfl⟩, rfl⟩
      · rintro ⟨_, ⟨e, entries, read, others, rfl⟩, rfl⟩
        exact ⟨_, _, ⟨e, read, rfl⟩, ⟨entries, others, rfl⟩, rfl⟩
  unfold DeclaredBy
  simp only [ofDocument_eq_ok_iff, each]
  constructor
  · rintro ⟨items, lists, entries, read, declared⟩
    exact ⟨⟨entries⟩, ⟨items, lists, read⟩, declared⟩
  · rintro ⟨m, ⟨items, lists, read⟩, declared⟩
    exact ⟨items, lists, m.entries, read, declared⟩

def DeclaredIn (s : Surroundings) (path root : String) (ds : List Declaration) : Prop :=
  ∃ format text document, ManifestFormat.ofPath? path = some format ∧ s.readText path = .ok text ∧
    format.read? text = some document ∧ DeclaredBy root document ds

theorem ofFile_of_read {s : Surroundings} {path text : String} {format : ManifestFormat}
    {document : Document} (named : ManifestFormat.ofPath? path = some format)
    (opened : s.readText path = .ok text) (read : format.read? text = some document) :
    ofFile s path = (ofDocument document).mapError (.parse path) := by
  simp only [ofFile, ofText, named, opened, read]
  cases ofDocument document <;> rfl

theorem declaredIn_iff {s : Surroundings} {path root : String} {ds : List Declaration} :
    DeclaredIn s path root ds ↔ ∃ m, ofFile s path = .ok m ∧ m.declarations root = ds := by
  constructor
  · rintro ⟨format, text, document, named, opened, read, declared⟩
    obtain ⟨m, made, declared⟩ := declaredBy_iff.mp declared
    exact ⟨m, by rw [ofFile_of_read named opened read, made]; rfl, declared⟩
  · rintro ⟨m, made, declared⟩
    unfold ofFile at made
    split at made
    next => cases made
    next format named =>
      split at made
      next => cases made
      next text opened =>
        cases read : format.read? text with
        | none => simp [ofText, read] at made
        | some document =>
          refine ⟨format, text, document, named, opened, read, declaredBy_iff.mpr ⟨m, ?_, declared⟩⟩
          simp only [ofText, read] at made
          cases parsed : ofDocument document with
          | error fault => simp [parsed] at made
          | ok m' => simpa [parsed] using made

end Manifest

/-! ## What loading leaves behind -/

namespace Registry

/-- Filing an entry keeps the shelves that are there and puts new ones behind them. -/
theorem map_tag_prefix_foldl_file (e : Entry) (shelves : List Shelf) (places : List String) :
    shelves.map (·.tag) <+: (places.foldl (file e) shelves).map (·.tag) := by
  induction places generalizing shelves with
  | nil => exact List.prefix_rfl
  | cons place places ih =>
    have first : shelves.map (·.tag) <+: (file e shelves place).map (·.tag) := by
      rw [map_tag_file]
      split
      · exact List.prefix_rfl
      · exact List.prefix_append _ _
    exact first.trans (ih (file e shelves place))

theorem tags_prefix_registerAll (r : Registry) (ds : List Declaration) :
    r.tags <+: (r.registerAll ds).tags := by
  induction ds generalizing r with
  | nil => exact List.prefix_rfl
  | cons d ds ih =>
    have first : r.tags <+: (r.register d).tags :=
      map_tag_prefix_foldl_file (r.nextEntry d) r.shelves d.shelves
    exact first.trans (ih (r.register d))

theorem tagged_registerAll_of (r : Registry) (ds : List Declaration) (tag : String) :
    (r.registerAll ds).tagged tag =
      r.tagged tag ++ (r.handles ds).filter fun e => tag ∈ e.declaration.shelves := by
  induction ds generalizing r with
  | nil => simp [registerAll, handles]
  | cons d ds ih =>
    rw [registerAll_cons, ih, tagged_register, handles, List.append_assoc]
    by_cases filed : tag ∈ d.shelves <;> simp [filed, nextEntry]

/-- Loading succeeds exactly for the files that declare options, and registers these. -/
theorem load_eq_ok_iff {r after : Registry} {s : Surroundings} {path root : String} {n : Nat} :
    r.load s path root = (.ok n, after) ↔
      ∃ ds, Manifest.DeclaredIn s path root ds ∧ n = ds.length ∧ after = r.registerAll ds := by
  simp only [Manifest.declaredIn_iff]
  unfold load
  cases Manifest.ofFile s path with
  | error e => simp
  | ok m => simp [Manifest.declarations, eq_comm]

theorem load_eq_error {r after : Registry} {s : Surroundings} {path root : String}
    {e : ManifestError} (h : r.load s path root = (.error e, after)) : after = r := by
  unfold load at h
  split at h
  · cases h
    rfl
  · cases h

theorem load_of_spoilt (r : Registry) {s : Surroundings} {path text : String} (root : String)
    {format : ManifestFormat} {document entry : Document}
    (named : ManifestFormat.ofPath? path = some format) (opened : s.readText path = .ok text)
    (read : format.read? text = some document) (has : document.HasEntry entry)
    (spoilt : entry.Spoilt) : ∃ fault, r.load s path root = (.error (.parse path fault), r) := by
  unfold load
  rw [Manifest.ofFile_of_read named opened read]
  cases made : Manifest.ofDocument document with
  | error fault => exact ⟨fault, rfl⟩
  | ok m =>
    have declares : Manifest.DeclaredBy root document (m.declarations root) :=
      Manifest.declaredBy_iff.mpr ⟨m, made, rfl⟩
    obtain ⟨items, lists, declared⟩ := declares
    obtain ⟨i, bound, rfl⟩ := List.getElem_of_mem (has.mem_of_lists lists)
    exact absurd (declared.get bound (declared.length_eq ▸ bound)) (spoilt.not_declares root _)

/-- Loading a manifest either fails and leaves the registry as it was, or registers exactly the
options that the file declares, one for each entry and in order, behind everything that was there
before.  A table among the entries with an unknown key, without spellings or with a value of a wrong
type makes it fail, wherever it stands. -/
theorem load_all_or_nothing (r : Registry) (s : Surroundings) (path root : String) :
    (∀ e after, r.load s path root = (.error e, after) → after = r) ∧
      (∀ n after, r.load s path root = (.ok n, after) ↔
        ∃ ds, Manifest.DeclaredIn s path root ds ∧ n = ds.length ∧ after = r.registerAll ds) ∧
      (∀ ds, (r.registerAll ds).count = r.count + ds.length ∧
        r.tags <+: (r.registerAll ds).tags ∧
        ∀ tag, (r.registerAll ds).tagged tag =
          r.tagged tag ++ (r.handles ds).filter fun e => tag ∈ e.declaration.shelves) ∧
      ∀ format text document entry, ManifestFormat.ofPath? path = some format →
        s.readText path = .ok text → format.read? text = some document →
        document.HasEntry entry → entry.Spoilt →
        ∃ fault, r.load s path root = (.error (.parse path fault), r) := by
  refine ⟨fun e after h => load_eq_error h, fun n after => load_eq_ok_iff, fun ds => ?_, ?_⟩
  · exact ⟨r.count_registerAll_of ds, r.tags_prefix_registerAll ds, r.tagged_registerAll_of ds⟩
  · intro format text document entry named opened read has spoilt
    exact r.load_of_spoilt root named opened read has spoilt

set_option maxRecDepth 2000 in
/-- A key that entries do not have, in the second of two entries. -/
theorem load_all_or_nothing_second_entry :
    let r := empty.registerAll [⟨["--verbose"], {}, .empty⟩]
    let text := "\x7b\"option\":[\x7b\"spellings\":[\"-a\"]\x7d," ++
      "\x7b\"spellings\":[\"-b\"],\"nargs\":2\x7d]\x7d"
    let s : Surroundings :=
      { workingDirectory := [], realPath? := fun _ => none, readText := fun _ => .ok text }
    ∃ fault, r.load s "more.JSON" "/project" = (.error (.parse "more.JSON" fault), r) := by
  intro r text s
  let spoilt : Document :=
    .table [(some "spellings", .list [.scalar (.ofText "-b")] .exact),
      (some "nargs", .scalar .foreign)] none
  let entries : List Document :=
    [.table [(some "spellings", .list [.scalar (.ofText "-a")] .exact)] none, spoilt]
  have named : ManifestFormat.ofPath? "more.JSON" = some .json := by decide
  have read : ManifestFormat.json.read? text =
      some (.table [(some "option", .list entries .exact)] none) := by
    cbv
  have has : Document.HasEntry (.table [(some "option", .list entries .exact)] none) spoilt :=
    .table List.mem_cons_self rfl (List.mem_cons_of_mem _ List.mem_cons_self)
  have unknown (key : EntryKey) : "nargs" ≠ key.word := by cases key <;> decide
  exact (load_all_or_nothing r s "more.JSON" "/project").2.2.2 .json text _ spoilt named rfl read
    has (.unknownKey (List.mem_cons_of_mem _ List.mem_cons_self) unknown)

end Registry

end TaggedOptions
