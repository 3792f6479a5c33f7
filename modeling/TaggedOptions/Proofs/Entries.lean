import Mathlib
import TaggedOptions.Manifest.Schema
import TaggedOptions.Proofs.History

/-! # What an entry of a manifest declares

`Describes` says field by field what a table declares: a field that is there gives its part of the
declaration, and a part without a field is left at what stands for nothing.  The reader goes through
the fields in the order of the text and changes one part of an entry at each.  It reads exactly the
tables whose fields are known, not repeated and of the right type, with spellings among them; and
the entry that it makes declares what the table describes.
-/

namespace TaggedOptions

/-! ## Values -/

/-- A word among some choices with words of their own is the word of the choice that it finds. -/
theorem find?_word_eq_some_iff {α : Type} {word : α → String} (apart : Function.Injective word)
    {choices : List α} (complete : ∀ a, a ∈ choices) {w : String} {a : α} :
    choices.find? (word · = w) = some a ↔ w = word a := by
  constructor
  · intro found
    have same : word a = w := by simpa using List.find?_some found
    exact same.symm
  · rintro rfl
    have isSome : (choices.find? (word · = word a)).isSome := by
      rw [List.find?_isSome]
      exact ⟨a, complete a, by simp⟩
    obtain ⟨b, found⟩ := Option.isSome_iff_exists.mp isSome
    have same : word b = word a := by simpa using List.find?_some found
    rw [found, apart same]

theorem EntryKey.word_injective : Function.Injective EntryKey.word := by
  intro a b
  cases a <;> cases b <;> decide

theorem Action.word_injective : Function.Injective Action.word := by
  intro a b
  cases a <;> cases b <;> decide

theorem ValueType.word_injective : Function.Injective ValueType.word := by
  intro a b
  cases a <;> cases b <;> decide

theorem EntryKey.ofWord?_eq_some_iff {w : String} {key : EntryKey} :
    EntryKey.ofWord? w = some key ↔ w = key.word :=
  find?_word_eq_some_iff EntryKey.word_injective fun key => by cases key <;> decide

theorem mapM_eq_some_iff {α β : Type} {read : α → Option β} {xs : List α} {ys : List β} :
    xs.mapM read = some ys ↔ List.Forall₂ (fun x y => read x = some y) xs ys := by
  induction xs generalizing ys with
  | nil => cases ys <;> simp
  | cons x xs ih =>
    simp only [List.mapM_cons, Option.bind_eq_bind, Option.bind_eq_some_iff, Option.pure_def,
      Option.some.injEq, ih, List.forall₂_cons_left_iff]
    constructor
    · rintro ⟨y, first, rest, others, rfl⟩
      exact ⟨y, rest, first, others, rfl⟩
    · rintro ⟨y, rest, first, others, rfl⟩
      exact ⟨y, first, rest, others, rfl⟩

namespace Document

def IsTexts (v : Document) (ts : List String) : Prop :=
  ∃ items, v.items? = some items ∧ List.Forall₂ (fun item t => item.text? = some t) items ts

def IsOptional {α : Type} (read : Document → Option α) (v : Document) : Option α → Prop
  | none => v.presence = .absent
  | some x => v.presence = .present ∧ read v = some x

/-- The value has the type of the key.  What a scalar can be read as depends on the format; here
only matters whether it has a reading of the kind that is asked for. -/
def Fits (v : Document) : EntryKey → Prop
  | .spellings => ∃ ts, v.IsTexts ts
  | .tags => ∃ ts, v.IsTexts ts
  | .action => ∃ a : Action, v.choice? = some a.word
  | .type => ∃ t : ValueType, v.choice? = some t.word
  | .default => ∃ l, v.IsOptional loose? l
  | .required => ∃ b, v.flag? = some b
  | .dest => ∃ t, v.IsOptional text? t
  | .help => ∃ t, v.IsOptional text? t

theorem texts?_eq_some_iff {v : Document} {ts : List String} :
    v.texts? = some ts ↔ v.IsTexts ts := by
  unfold texts? IsTexts
  cases v.items? with
  | none => simp
  | some items => simp [mapM_eq_some_iff]

theorem optional?_eq_some_iff {α : Type} {read : Document → Option α} {v : Document}
    {x : Option α} : v.optional? read = some x ↔ v.IsOptional read x := by
  unfold optional? IsOptional
  cases v.presence <;> cases x <;> simp

theorem action?_eq_some_iff {v : Document} {a : Action} :
    v.action? = some a ↔ v.choice? = some a.word := by
  unfold action?
  cases v.choice? with
  | none => simp
  | some w =>
    rw [Option.some.injEq]
    exact find?_word_eq_some_iff Action.word_injective fun a => by cases a <;> decide

theorem valueType?_eq_some_iff {v : Document} {t : ValueType} :
    v.valueType? = some t ↔ v.choice? = some t.word := by
  unfold valueType?
  cases v.choice? with
  | none => simp
  | some w =>
    rw [Option.some.injEq]
    exact find?_word_eq_some_iff ValueType.word_injective fun t => by cases t <;> decide

end Document

/-! ## One field -/

namespace ManifestEntry

def Holds (e : ManifestEntry) (v : Document) : EntryKey → Prop
  | .spellings => v.IsTexts e.spellings
  | .tags => v.IsTexts e.tags
  | .action => v.choice? = some e.action.word
  | .type => v.choice? = some e.valueType.word
  | .default => v.IsOptional Document.loose? e.default
  | .required => v.flag? = some e.required
  | .dest => v.IsOptional Document.text? e.dest
  | .help => v.IsOptional Document.text? e.help

def SameAt (e e' : ManifestEntry) : EntryKey → Prop
  | .spellings => e.spellings = e'.spellings
  | .tags => e.tags = e'.tags
  | .action => e.action = e'.action
  | .type => e.valueType = e'.valueType
  | .default => e.default = e'.default
  | .required => e.required = e'.required
  | .dest => e.dest = e'.dest
  | .help => e.help = e'.help

theorem eq_of_sameAt {e e' : ManifestEntry} (same : ∀ key, e.SameAt e' key) : e = e' := by
  obtain ⟨spellings, tags, action, valueType, default, required, dest, help⟩ := e
  obtain ⟨spellings', tags', action', valueType', default', required', dest', help'⟩ := e'
  cases (same .spellings : spellings = spellings')
  cases (same .tags : tags = tags')
  cases (same .action : action = action')
  cases (same .type : valueType = valueType')
  cases (same .default : default = default')
  cases (same .required : required = required')
  cases (same .dest : dest = dest')
  cases (same .help : help = help')
  rfl

theorem SameAt.refl (e : ManifestEntry) (key : EntryKey) : e.SameAt e key := by
  cases key <;> rfl

theorem SameAt.symm {e e' : ManifestEntry} {key : EntryKey} (h : e.SameAt e' key) :
    e'.SameAt e key := by
  cases key <;> exact Eq.symm h

theorem SameAt.trans {e e' e'' : ManifestEntry} {key : EntryKey} (h : e.SameAt e' key)
    (h' : e'.SameAt e'' key) : e.SameAt e'' key := by
  cases key <;> exact Eq.trans h h'

theorem Holds.congr {e e' : ManifestEntry} {v : Document} {key : EntryKey} (h : e.Holds v key)
    (same : e.SameAt e' key) : e'.Holds v key := by
  cases key <;> simp only [SameAt] at same <;> simp only [Holds] at h ⊢ <;> rwa [← same]

/-- Setting the value of a key changes the part of the key and no other. -/
theorem set?_eq_some_iff {e e' : ManifestEntry} {v : Document} {key : EntryKey} :
    e.set? v key = some e' ↔ e'.Holds v key ∧ ∀ other, other ≠ key → e.SameAt e' other := by
  cases key
  all_goals
    simp only [set?, Option.map_eq_some_iff, Document.texts?_eq_some_iff,
      Document.action?_eq_some_iff, Document.valueType?_eq_some_iff,
      Document.optional?_eq_some_iff]
    constructor
    · rintro ⟨x, read, rfl⟩
      refine ⟨read, fun other apart => ?_⟩
      cases other <;> first | rfl | exact absurd rfl apart
    · rintro ⟨holds, same⟩
      refine ⟨_, holds, eq_of_sameAt fun other => ?_⟩
      have elsewhere := same other
      cases other <;> first | rfl | exact elsewhere (by decide)

/-- A key can be set to the values that have its type. -/
theorem exists_set?_iff {e : ManifestEntry} {v : Document} {key : EntryKey} :
    (∃ e', e.set? v key = some e') ↔ v.Fits key := by
  cases key <;>
    simp only [set?, Document.Fits, ← Document.texts?_eq_some_iff,
      ← Document.action?_eq_some_iff, ← Document.valueType?_eq_some_iff,
      ← Document.optional?_eq_some_iff, ← Option.isSome_iff_exists, Option.isSome_map]

theorem Holds.fits {e : ManifestEntry} {v : Document} {key : EntryKey} (h : e.Holds v key) :
    v.Fits key := by
  cases key <;> exact ⟨_, h⟩

/-- A value stands for one part only. -/
theorem Holds.sameAt {e e' : ManifestEntry} {v : Document} {key : EntryKey} (h : e.Holds v key)
    (h' : e'.Holds v key) : e.SameAt e' key := by
  cases key <;>
    simp only [Holds, ← Document.texts?_eq_some_iff, ← Document.action?_eq_some_iff,
      ← Document.valueType?_eq_some_iff, ← Document.optional?_eq_some_iff] at h h' <;>
    exact Option.some.inj (h.symm.trans h')

end ManifestEntry

/-! ## All fields -/

abbrev EntryFields := List (EntryKey × Document)

namespace EntryFields

def written (fields : EntryFields) : List (Option String × Document) :=
  fields.map fun f => (some f.1.word, f.2)

def keys (fields : EntryFields) : List EntryKey := fields.map Prod.fst

/-- What the fields say about a key: each value that they give to it, or that they give it none. -/
structure Gives (fields : EntryFields) (key : EntryKey) (present : Document → Prop)
    (absent : Prop) : Prop where
  present : ∀ v, (key, v) ∈ fields → present v
  absent : key ∉ fields.keys → absent

theorem mem_keys_of_mem {fields : EntryFields} {key : EntryKey} {v : Document}
    (h : (key, v) ∈ fields) : key ∈ fields.keys :=
  List.mem_map_of_mem h

theorem cons_eq_written_iff {text : Option String} {v : Document}
    {texts : List (Option String × Document)} {fields : EntryFields} :
    (text, v) :: texts = fields.written ↔
      ∃ key others, text = some key.word ∧ fields = (key, v) :: others ∧
        texts = written others := by
  constructor
  · intro same
    obtain ⟨f, others, rfl, first, rest⟩ := List.map_eq_cons_iff.mp same.symm
    cases first
    exact ⟨f.1, others, rfl, rfl, rest.symm⟩
  · rintro ⟨key, others, rfl, rfl, rfl⟩
    rfl

theorem Gives.congr {fields : EntryFields} {key : EntryKey} {present : Document → Prop}
    {absent absent' : Prop} (h : fields.Gives key present absent) (same : absent → absent') :
    fields.Gives key present absent' :=
  ⟨h.present, fun missing => same (h.absent missing)⟩

theorem gives_of_not_mem {fields : EntryFields} {key : EntryKey} {present : Document → Prop}
    {absent : Prop} (missing : key ∉ fields.keys) :
    fields.Gives key present absent ↔ absent :=
  ⟨fun gives => gives.absent missing,
    fun holds => ⟨fun _ member => absurd (mem_keys_of_mem member) missing, fun _ => holds⟩⟩

theorem gives_cons_self {fields : EntryFields} {key : EntryKey} (fresh : key ∉ fields.keys)
    {value : Document} {present : Document → Prop} {absent : Prop} :
    Gives ((key, value) :: fields) key present absent ↔ present value := by
  constructor
  · intro gives
    exact gives.present value List.mem_cons_self
  · intro here
    refine ⟨fun v member => ?_, fun missing => absurd List.mem_cons_self missing⟩
    rcases List.mem_cons.mp member with same | later
    · cases same
      exact here
    · exact absurd (mem_keys_of_mem later) fresh

theorem gives_cons_of_ne {fields : EntryFields} {first key : EntryKey} (apart : key ≠ first)
    {value : Document} {present : Document → Prop} {absent : Prop} :
    Gives ((first, value) :: fields) key present absent ↔ Gives fields key present absent := by
  have elsewhere {v : Document} : (key, v) ∈ (first, value) :: fields ↔ (key, v) ∈ fields := by
    simp [apart]
  have absence : key ∈ keys ((first, value) :: fields) ↔ key ∈ fields.keys := by
    simp [keys, apart]
  constructor
  · intro gives
    exact ⟨fun v member => gives.present v (elsewhere.mpr member),
      fun missing => gives.absent (mt absence.mp missing)⟩
  · intro gives
    exact ⟨fun v member => gives.present v (elsewhere.mp member),
      fun missing => gives.absent (mt absence.mpr missing)⟩

end EntryFields

namespace ManifestEntry

open EntryFields

/-- The fields make one entry out of another, of which some keys are read already: none of them
comes twice, the spellings are there, and each key has what its field gives or what it had
before. -/
structure Completes (e : ManifestEntry) (seen : List EntryKey) (fields : EntryFields)
    (e' : ManifestEntry) : Prop where
  once : fields.keys.Nodup
  fresh : ∀ key ∈ fields.keys, key ∉ seen
  spelled : .spellings ∈ seen ∨ .spellings ∈ fields.keys
  parts : ∀ key, fields.Gives key (e'.Holds · key) (e.SameAt e' key)

theorem completes_nil_iff {e e' : ManifestEntry} {seen : List EntryKey} :
    Completes e seen [] e' ↔ .spellings ∈ seen ∧ e = e' := by
  constructor
  · intro h
    refine ⟨h.spelled.resolve_right List.not_mem_nil, ?_⟩
    exact eq_of_sameAt fun key => (h.parts key).absent List.not_mem_nil
  · rintro ⟨spelled, rfl⟩
    exact ⟨List.nodup_nil, by simp [keys], .inl spelled,
      fun key => (gives_of_not_mem List.not_mem_nil).mpr (SameAt.refl e key)⟩

/-- The first field has a new key, and the others go on from the entry in which it is set. -/
theorem completes_cons_iff {e e' : ManifestEntry} {seen : List EntryKey} {fields : EntryFields}
    {key : EntryKey} {v : Document} :
    Completes e seen ((key, v) :: fields) e' ↔
      key ∉ seen ∧ ∃ next, e.set? v key = some next ∧ Completes next (key :: seen) fields e' := by
  constructor
  · rintro ⟨once, fresh, spelled, parts⟩
    obtain ⟨new, once⟩ := List.nodup_cons.mp once
    have holds : e'.Holds v key := (gives_cons_self new).mp (parts key)
    obtain ⟨next, set⟩ := exists_set?_iff.mpr holds.fits
    obtain ⟨here, elsewhere⟩ := set?_eq_some_iff.mp set
    refine ⟨fresh key List.mem_cons_self, next, set, once, ?_, ?_, ?_⟩
    · intro other member
      rw [List.mem_cons, not_or]
      exact ⟨fun same => new (same ▸ member), fresh other (List.mem_cons_of_mem _ member)⟩
    · simpa [keys, or_comm, or_left_comm, or_assoc] using spelled
    · intro other
      by_cases same : other = key
      · subst same
        exact (gives_of_not_mem new).mpr (here.sameAt holds)
      · exact ((gives_cons_of_ne same).mp (parts other)).congr
          ((elsewhere other same).symm.trans ·)
  · rintro ⟨unseen, next, set, once, fresh, spelled, parts⟩
    obtain ⟨here, elsewhere⟩ := set?_eq_some_iff.mp set
    have new : key ∉ fields.keys := fun member => fresh key member List.mem_cons_self
    refine ⟨List.nodup_cons.mpr ⟨new, once⟩, ?_, ?_, ?_⟩
    · intro other member
      rcases List.mem_cons.mp member with rfl | later
      · exact unseen
      · exact fun known => fresh other later (List.mem_cons_of_mem _ known)
    · simpa [keys, or_comm, or_left_comm, or_assoc] using spelled
    · intro other
      by_cases same : other = key
      · subst same
        exact (gives_cons_self new).mpr (here.congr ((parts other).absent new))
      · exact (gives_cons_of_ne same).mpr ((parts other).congr ((elsewhere other same).trans ·))

/-- Reading fields succeeds exactly if their keys are known and they make an entry, and reads it. -/
theorem ofFields_eq_ok_iff {e e' : ManifestEntry} {seen : List EntryKey}
    {texts : List (Option String × Document)} :
    ofFields e seen texts = .ok e' ↔
      ∃ fields : EntryFields, texts = fields.written ∧ Completes e seen fields e' := by
  induction texts generalizing e seen with
  | nil =>
    have none {fields : EntryFields} : [] = fields.written ↔ fields = [] := by
      rw [eq_comm, written, List.map_eq_nil_iff]
    simp only [none, exists_eq_left, completes_nil_iff]
    by_cases spelled : .spellings ∈ seen <;> simp [ofFields, spelled]
  | cons field texts ih =>
    obtain ⟨text, v⟩ := field
    have first : (∃ fields : EntryFields, (text, v) :: texts = fields.written ∧
        Completes e seen fields e') ↔ ∃ key, text = some key.word ∧ key ∉ seen ∧
          ∃ next, e.set? v key = some next ∧ ofFields next (key :: seen) texts = .ok e' := by
      simp only [cons_eq_written_iff, ih]
      constructor
      · rintro ⟨_, ⟨key, others, named, rfl, rest⟩, completes⟩
        obtain ⟨unseen, next, set, completes⟩ := completes_cons_iff.mp completes
        exact ⟨key, named, unseen, next, set, others, rest, completes⟩
      · rintro ⟨key, named, unseen, next, set, others, rest, completes⟩
        exact ⟨_, ⟨key, others, named, rfl, rest⟩,
          completes_cons_iff.mpr ⟨unseen, next, set, completes⟩⟩
    rw [first]
    cases text with
    | none => simp [ofFields]
    | some word =>
      cases found : EntryKey.ofWord? word with
      | none =>
        have unknown (key : EntryKey) : word ≠ key.word := by
          intro named
          rw [EntryKey.ofWord?_eq_some_iff.mpr named] at found
          cases found
        simp [ofFields, found, unknown]
      | some key =>
        have named := EntryKey.ofWord?_eq_some_iff.mp found
        subst named
        by_cases known : key ∈ seen
        · simp [ofFields, found, known, EntryKey.word_injective.eq_iff]
        · cases set : e.set? v key <;>
            simp [ofFields, found, known, set, EntryKey.word_injective.eq_iff]

end ManifestEntry

/-! ## The declaration of an entry -/

/-- What a default stands for: a text for a path means the path under the project root. -/
inductive StandsFor (root : String) (type : ValueType) : Option Loose → Option DefaultValue → Prop
  | nothing : StandsFor root type none none
  | flag (b : Bool) : StandsFor root type (some (.flag b)) (some (.flag b))
  | text (s : String) (textual : type = .text) :
      StandsFor root type (some (.text s)) (some (.text s))
  | path (s : String) (located : type = .abspath) :
      StandsFor root type (some (.text s)) (some (.path (Path.join root s)))

structure EntryFields.Describes (fields : EntryFields) (root : String) (d : Declaration) :
    Prop where
  once : fields.keys.Nodup
  spellings : fields.Gives .spellings (·.IsTexts d.spellings) False
  tags : ∃ tags, fields.Gives .tags (·.IsTexts tags) (tags = []) ∧ d.tags.toList = tags.eraseDups
  action : fields.Gives .action (·.choice? = some d.directives.action.word)
    (d.directives.action = .store)
  valueType : fields.Gives .type (·.choice? = some d.directives.valueType.word)
    (d.directives.valueType = .text)
  default : ∃ value, fields.Gives .default (·.IsOptional Document.loose? value) (value = none) ∧
    StandsFor root d.directives.valueType value d.directives.default
  required : fields.Gives .required (·.flag? = some d.directives.required)
    (d.directives.required = false)
  dest : fields.Gives .dest (·.IsOptional Document.text? d.directives.dest)
    (d.directives.dest = none)
  help : fields.Gives .help (·.IsOptional Document.text? d.directives.help)
    (d.directives.help = none)

theorem ManifestEntry.standsFor_iff {e : ManifestEntry} {root : String}
    {value : Option DefaultValue} :
    StandsFor root e.valueType e.default value ↔ e.defaultValue root = value := by
  obtain ⟨_, _, _, type, default, _, _, _⟩ := e
  constructor
  · intro h
    cases h with
    | nothing => rfl
    | flag b => rfl
    | text s textual => cases textual; rfl
    | path s located => cases located; rfl
  · rintro rfl
    cases default with
    | none => exact .nothing
    | some loose =>
      cases loose with
      | flag b => exact .flag b
      | text s =>
        cases type with
        | text => exact .text s rfl
        | abspath => exact .path s rfl

theorem TagSet.toList_ofList (tags : List String) :
    (TagSet.ofList tags).toList = tags.eraseDups := by
  have start : TagSet.empty.toList = ([] : List String).eraseDups := rfl
  exact foldl_insert_eq_eraseDups TagSet.toList TagSet.toList_insert start tags

theorem TagSet.eq_of_toList_eq {tags tags' : TagSet} (same : tags.toList = tags'.toList) :
    tags = tags' := by
  cases tags
  cases tags'
  cases same
  rfl

/-- The fields describe a declaration exactly if they make an entry that declares it. -/
theorem EntryFields.describes_iff {fields : EntryFields} {root : String} {d : Declaration} :
    fields.Describes root d ↔
      ∃ e, ManifestEntry.Completes { spellings := [] } [] fields e ∧ e.declaration root = d := by
  constructor
  · rintro ⟨once, spellings, ⟨tags, tagged, distinct⟩, action, valueType,
      ⟨value, defaulted, stands⟩, required, dest, help⟩
    let e : ManifestEntry :=
      { spellings := d.spellings, tags, action := d.directives.action
        valueType := d.directives.valueType, default := value
        required := d.directives.required, dest := d.directives.dest, help := d.directives.help }
    refine ⟨e, ⟨once, by simp, .inr ?_, ?_⟩, ?_⟩
    · by_contra unspelled
      exact spellings.absent unspelled
    · intro key
      cases key with
      | spellings => exact spellings.congr False.elim
      | tags => exact tagged.congr Eq.symm
      | action => exact action.congr Eq.symm
      | type => exact valueType.congr Eq.symm
      | default => exact defaulted.congr Eq.symm
      | required => exact required.congr Eq.symm
      | dest => exact dest.congr Eq.symm
      | help => exact help.congr Eq.symm
    · have sameTags : TagSet.ofList tags = d.tags :=
        TagSet.eq_of_toList_eq ((TagSet.toList_ofList tags).trans distinct.symm)
      have sameDefault : e.defaultValue root = d.directives.default :=
        ManifestEntry.standsFor_iff.mp stands
      simp only [ManifestEntry.declaration, sameDefault]
      change (⟨d.spellings, _, TagSet.ofList tags⟩ : Declaration) = d
      rw [sameTags]
  · rintro ⟨e, completes, rfl⟩
    have part := completes.parts
    refine ⟨completes.once, ?_, ⟨e.tags, (part .tags).congr Eq.symm, TagSet.toList_ofList e.tags⟩,
      (part .action).congr Eq.symm, (part .type).congr Eq.symm,
      ⟨e.default, (part .default).congr Eq.symm, ManifestEntry.standsFor_iff.mpr rfl⟩,
      (part .required).congr Eq.symm, (part .dest).congr Eq.symm, (part .help).congr Eq.symm⟩
    have spelled := completes.spelled.resolve_left List.not_mem_nil
    exact ⟨(part .spellings).present, fun unspelled => unspelled spelled⟩

end TaggedOptions
