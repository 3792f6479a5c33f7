import Mathlib
import TaggedOptions.Proofs.Unambiguous
import TaggedOptions.Proofs.Values

/-! # Reading what was written

The reading of an argument vector is followed here from element to element, for a command whose
arguments come from declarations.  As long as every option is given once, each element adds one
value under the destination of its option; words behind the separator fill the positional options
in order, and what is left gets the text that stands in for it.
-/

namespace TaggedOptions

/-! ## Matches with one value each -/

namespace Matches

def single (l : List (String × Value)) : Matches := l.map fun (id, v) => ⟨id, [v]⟩

@[simp] theorem single_cons (id : String) (v : Value) (l : List (String × Value)) :
    single ((id, v) :: l) = ⟨id, [v]⟩ :: single l := rfl

theorem has_cons (x : Match) (m : Matches) (id : String) :
    has (x :: m) id = (decide (x.id = id) || has m id) := rfl

theorem first?_cons (x : Match) (m : Matches) (id : String) :
    first? (x :: m) id = if x.id = id then x.values.head? else first? m id := by
  by_cases same : x.id = id <;> simp [first?, get?, same]

theorem has_single (l : List (String × Value)) (id : String) :
    (single l).has id = (l.lookup id).isSome := by
  induction l with
  | nil => rfl
  | cons p l ih =>
    obtain ⟨key, v⟩ := p
    rw [single_cons, has_cons, ih, List.lookup_cons]
    by_cases same : id = key
    · simp [same]
    · have other : key ≠ id := fun h => same h.symm
      simp [beq_false_of_ne same, other]

theorem has_single_of_fresh {l : List (String × Value)} {id : String} (fresh : l.lookup id = none) :
    (single l).has id = false := by
  rw [has_single, fresh, Option.isSome_none]

theorem first?_single (l : List (String × Value)) (id : String) :
    (single l).first? id = l.lookup id := by
  induction l with
  | nil => rfl
  | cons p l ih =>
    obtain ⟨key, v⟩ := p
    rw [single_cons, first?_cons, ih, List.lookup_cons]
    by_cases same : id = key
    · simp [same]
    · have other : key ≠ id := fun h => same h.symm
      simp [beq_false_of_ne same, other]

theorem lookup_snoc_of_ne {id other : String} (different : id ≠ other) (l : List (String × Value))
    (v : Value) : (l ++ [(other, v)]).lookup id = l.lookup id := by
  simp [List.lookup_append, List.lookup_cons, beq_false_of_ne different]

theorem append_single {l : List (String × Value)} {id : String} (fresh : l.lookup id = none)
    (v : Value) : (single l).append id [v] = single (l ++ [(id, v)]) := by
  rw [append, has_single_of_fresh fresh]
  simp [single]

end Matches

/-! ## Tokens -/

namespace Token

theorem splitAtEquals_append {name : List Char} (plain : '=' ∉ name) (rest : List Char) :
    splitAtEquals (name ++ '=' :: rest) = (name, some rest) := by
  have before : ∀ c ∈ name, (decide (c ≠ '=')) = true := fun c member => by
    simpa using fun same : c = '=' => plain (same ▸ member)
  rw [splitAtEquals, List.span_eq_takeWhile_dropWhile, List.takeWhile_append_of_pos before,
    List.dropWhile_append_of_pos before]
  simp

theorem splitAtEquals_plain {name : List Char} (plain : '=' ∉ name) :
    splitAtEquals name = (name, none) := by
  have before : ∀ c ∈ name, (decide (c ≠ '=')) = true := fun c member => by
    simpa using fun same : c = '=' => plain (same ▸ member)
  rw [splitAtEquals, List.span_eq_takeWhile_dropWhile, List.takeWhile_eq_self_iff.mpr before,
    List.dropWhile_eq_nil_iff.mpr before]

theorem ofChars_long {rest : List Char} (more : rest ≠ []) :
    ofChars ('-' :: '-' :: rest) =
      .long (String.ofList (splitAtEquals rest).1) ((splitAtEquals rest).2.map String.ofList) := by
  cases rest with
  | nil => exact absurd rfl more
  | cons c cs => rfl

theorem ofString_assign {name : String} (plain : '=' ∉ name.toList) (value : String) :
    ofString ("--" ++ name ++ "=" ++ value) = .long name (some value) := by
  have chars : ("--" ++ name ++ "=" ++ value).toList =
      '-' :: '-' :: (name.toList ++ '=' :: value.toList) := by simp
  rw [ofString, chars, ofChars_long (by simp), splitAtEquals_append plain]
  simp

theorem ofString_flag {name : String} (plain : '=' ∉ name.toList) (named : name.toList ≠ []) :
    ofString ("--" ++ name) = .long name none := by
  have chars : ("--" ++ name).toList = '-' :: '-' :: name.toList := by simp
  rw [ofString, chars, ofChars_long named, splitAtEquals_plain plain]
  simp

theorem ofChars_cluster {letter : Char} (noDash : letter ≠ '-') (rest : List Char) :
    ofChars ('-' :: letter :: rest) = .cluster letter rest := by
  unfold ofChars
  split
  next two => cases two; exact absurd rfl noDash
  next two => cases two; exact absurd rfl noDash
  next one => cases one; rfl
  next none => exact absurd rfl (none letter rest)

end Token

/-! ## Looking up names -/

/-- Where every name belongs to one argument only, it leads to the argument that has it. -/
theorem find?_eq_of_nodup_names {α : Type} [DecidableEq α] {names : Argument → List α}
    {args : List Argument} (distinct : (args.flatMap names).Nodup) {a : Argument} {x : α}
    (member : a ∈ args) (named : x ∈ names a) : args.find? (x ∈ names ·) = some a := by
  have apart := (List.nodup_flatMap.mp distinct).2
  have : Std.Symm (Function.onFun List.Disjoint names) := ⟨fun _ _ h => h.symm⟩
  have alone : ∀ b ∈ args, x ∈ names b → b = a := by
    intro b hb hname
    by_contra different
    exact apart.forall hb member different hname named
  cases hfind : args.find? (x ∈ names ·) with
  | none =>
    have absent := List.find?_eq_none.mp hfind a member
    simp [named] at absent
  | some b =>
    have hname : x ∈ names b := by simpa using List.find?_some hfind
    rw [alone b (List.mem_of_find?_eq_some hfind) hname]

namespace Command.WellFormed

variable {c : Command} {a : Argument}

/-- In a well formed command every long name leads to the argument that has it. -/
theorem byLong?_eq (h : c.WellFormed) {name : String} (member : a ∈ c.arguments)
    (named : name ∈ a.longs) : c.byLong? name = some a := by
  have found := find?_eq_of_nodup_names (List.nodup_cons.mp h.longs).2 member named
  rw [byLong?, allArguments, List.append_assoc, List.find?_append, found]
  rfl

/-- In a well formed command every short name leads to the argument that has it. -/
theorem byShort?_eq (h : c.WellFormed) {letter : Char} (member : a ∈ c.arguments)
    (named : letter ∈ a.shorts) : c.byShort? letter = some a := by
  have found := find?_eq_of_nodup_names (List.nodup_cons.mp h.shorts).2 member named
  rw [byShort?, allArguments, List.append_assoc, List.find?_append, found]
  rfl

end Command.WellFormed

/-- A command whose arguments come from declarations has these arguments and the help flag. -/
theorem Command.mem_allArguments_iff {name : String} {ds : List Declaration} {a : Argument} :
    a ∈ Command.allArguments { name, arguments := ds.map (·.argument) } ↔
      (∃ d ∈ ds, d.argument = a) ∨ a = helpFlag := by
  simp [allArguments]

/-! ## Flags and options -/

/-- A flag or option given by one of its long names: a flag alone, an option with its value behind
an equals sign. -/
structure Given where
  option : Declaration
  name : String
  value : Option String
  deriving DecidableEq, Repr

namespace Given

def token (g : Given) : String :=
  match g.value with
  | some value => "--" ++ g.name ++ "=" ++ value
  | none => "--" ++ g.name

def text (g : Given) : String := g.value.getD "true"

structure Fits (g : Given) : Prop where
  named : g.name ∈ g.option.longNames
  valued : g.value.isSome = true ↔ g.option.directives.action = .store

end Given

instance (g : Given) : Decidable g.Fits :=
  decidable_of_iff (g.name ∈ g.option.longNames ∧
    (g.value.isSome = true ↔ g.option.directives.action = .store))
    ⟨fun h => ⟨h.1, h.2⟩, fun h => ⟨h.named, h.valued⟩⟩

def kept (s : Surroundings) (p : Declaration × String) : String × Value :=
  (p.1.dest, p.1.directives.value s p.2)

namespace Progress

/-- Everything read so far is stored, one value for each option. -/
def settled (l : List (String × Value)) (positionals : List Argument) (separated : Bool) :
    Progress :=
  { found := .single l, positionals, separated }

variable {s : Surroundings} {c : Command}

/-- A complete occurrence adds what its storing adds. -/
theorem occur_settled {l l' : List (String × Value)} {a : Argument} {raws : List String}
    (stored : store s (.single l) a raws = .ok (.single l')) (ps : List Argument) (b : Bool) :
    (settled l ps b).occur s a raws = .ok (settled l' ps b) := by
  simp [occur, settle, settled, stored]

theorem step_separator (l : List (String × Value)) (ps : List Argument) :
    (settled l ps false).step s c "--" = .ok (settled l ps true) := by
  have token : Token.ofString "--" = .separator := rfl
  have unseparated : (settled l ps false).separated = false := rfl
  simp only [step, unseparated, token]
  rfl

theorem step_option (wellFormed : c.WellFormed) {d : Declaration} (wellSpelled : d.WellSpelled)
    (member : d.argument ∈ c.arguments) (takes : d.directives.action = .store) {name : String}
    (named : name ∈ d.longNames) {value : String} (accepts : d.directives.Accepts value)
    {l : List (String × Value)} (fresh : l.lookup d.dest = none) (ps : List Argument) :
    (settled l ps false).step s c ("--" ++ name ++ "=" ++ value) =
      .ok (settled (l ++ [kept s (d, value)]) ps false) := by
  have token := Token.ofString_assign (wellSpelled.longName_plain named).2 value
  have known : c.byLong? name = some d.argument := wellFormed.byLong?_eq member (by simpa using named)
  have takesValue : d.argument.reaction.takesValue = true := by
    obtain ⟨kind, reaction⟩ := Directives.exists_reaction_of_store takes
    exact congrArg Reaction.takesValue reaction
  have stored := Declaration.store_value (s := s) takes accepts (Matches.has_single_of_fresh fresh)
  rw [Matches.append_single fresh] at stored
  have unseparated : (settled l ps false).separated = false := rfl
  simp only [step, unseparated, token, readLong, known, takesValue]
  exact occur_settled stored ps false

theorem step_flag (wellFormed : c.WellFormed) {d : Declaration} (wellSpelled : d.WellSpelled)
    (member : d.argument ∈ c.arguments) (flag : d.directives.action = .storeTrue) {name : String}
    (named : name ∈ d.longNames) {l : List (String × Value)} (fresh : l.lookup d.dest = none)
    (ps : List Argument) :
    (settled l ps false).step s c ("--" ++ name) =
      .ok (settled (l ++ [kept s (d, "true")]) ps false) := by
  obtain ⟨nonempty, plain⟩ := wellSpelled.longName_plain named
  have token := Token.ofString_flag plain nonempty
  have known : c.byLong? name = some d.argument := wellFormed.byLong?_eq member (by simpa using named)
  have takesNone : d.argument.reaction.takesValue = false :=
    congrArg Reaction.takesValue (Directives.reaction_of_storeTrue flag)
  have stored := Declaration.store_flag (s := s) flag (Matches.has_single_of_fresh fresh)
  rw [Matches.append_single fresh] at stored
  have unseparated : (settled l ps false).separated = false := rfl
  simp only [step, unseparated, token, readLong, known, takesNone]
  exact occur_settled stored ps false

/-- A given flag or option adds what it keeps. -/
theorem step_given (wellFormed : c.WellFormed) {g : Given} (fits : g.Fits)
    (wellSpelled : g.option.WellSpelled) (member : g.option.argument ∈ c.arguments)
    (accepts : g.option.directives.Accepts g.text) {l : List (String × Value)}
    (fresh : l.lookup g.option.dest = none) (ps : List Argument) :
    (settled l ps false).step s c g.token =
      .ok (settled (l ++ [kept s (g.option, g.text)]) ps false) := by
  obtain ⟨option, name, given⟩ := g
  obtain ⟨named, valued⟩ := fits
  cases given with
  | some value => exact step_option wellFormed wellSpelled member (valued.mp rfl) named accepts fresh ps
  | none =>
    have flag : option.directives.action = .storeTrue := by
      cases action : option.directives.action with
      | store => cases valued.mpr action
      | storeTrue => rfl
    exact step_flag wellFormed wellSpelled member flag named fresh ps

/-- Given flags and options, each for another destination, add what they keep, in order. -/
theorem run_given (wellFormed : c.WellFormed) {gs : List Given} (fits : ∀ g ∈ gs, g.Fits)
    (wellSpelled : ∀ g ∈ gs, g.option.WellSpelled)
    (member : ∀ g ∈ gs, g.option.argument ∈ c.arguments)
    (accepts : ∀ g ∈ gs, g.option.directives.Accepts g.text)
    (once : (gs.map (·.option.dest)).Nodup) {l : List (String × Value)}
    (fresh : ∀ g ∈ gs, l.lookup g.option.dest = none) (ps : List Argument) (rest : List String) :
    run s c (settled l ps false) (gs.map (·.token) ++ rest) =
      run s c (settled (l ++ gs.map fun g => kept s (g.option, g.text)) ps false) rest := by
  induction gs generalizing l with
  | nil => simp
  | cons g gs ih =>
    simp only [List.forall_mem_cons, List.map_cons, List.nodup_cons] at *
    rw [List.cons_append, run, step_given wellFormed fits.1 wellSpelled.1 member.1 accepts.1 fresh.1]
    simp only
    rw [ih fits.2 wellSpelled.2 member.2 accepts.2 once.2, List.append_assoc, List.singleton_append]
    intro h hmem
    have other : h.option.dest ≠ g.option.dest := fun same =>
      once.1 (List.mem_map.mpr ⟨h, hmem, same⟩)
    rw [kept, Matches.lookup_snoc_of_ne other, fresh.2 h hmem]

/-! ## Words -/

/-- A word behind the separator is kept back for the next positional option, once what was kept
back before is stored. -/
theorem step_word {p : Progress} (separated : p.separated = true) {d : Declaration}
    (takes : d.directives.action = .store) {l : List (String × Value)} {rest : List Argument}
    (next : p.positionals = d.argument :: rest)
    (settles : p.settle s = .ok (settled l (d.argument :: rest) true)) (word : String) :
    p.step s c word = .ok { settled l rest true with
      pending := some ⟨d.argument, [word], false⟩ } := by
  obtain ⟨kind, reaction⟩ := Directives.exists_reaction_of_store takes
  have single : d.argument.reaction.isMany = false := congrArg Reaction.isMany reaction
  have untrailing : d.argument.trailing = false := rfl
  simp [step, separated, takeWord, next, untrailing, single, settles, settled]

/-- Words behind the separator fill the positional options in order.  The last of them is still kept
back at the end, so the statement is about what is stored once everything is settled. -/
theorem run_words {words : List String} {ds : List Declaration}
    (enough : words.length ≤ ds.length) (takes : ∀ d ∈ ds, d.directives.action = .store)
    (accepts : ∀ p ∈ ds.zip words, p.1.directives.Accepts p.2)
    (distinct : (ds.map (·.dest)).Nodup) {l : List (String × Value)}
    (fresh : ∀ d ∈ ds, l.lookup d.dest = none) {p : Progress} (separated : p.separated = true)
    (next : p.positionals = ds.map (·.argument))
    (settles : p.settle s = .ok (settled l (ds.map (·.argument)) true)) :
    ∃ q, run s c p words = .ok q ∧
      q.settle s = .ok (settled (l ++ (ds.zip words).map (kept s))
        ((ds.drop words.length).map (·.argument)) true) := by
  -- `settles` is the invariant: `p` may hold a word back, but settling it stores just `l`
  induction words generalizing ds l p with
  | nil => exact ⟨p, rfl, by simpa using settles⟩
  | cons word words ih =>
    cases ds with
    | nil => simp at enough
    | cons d ds =>
      simp only [List.length_cons, Nat.add_le_add_iff_right, List.forall_mem_cons, List.zip_cons_cons,
        List.map_cons, List.nodup_cons] at *
      rw [run, step_word separated takes.1 next settles word]
      have stored := Declaration.store_value (s := s) takes.1 accepts.1
        (Matches.has_single_of_fresh fresh.1)
      rw [Matches.append_single fresh.1] at stored
      have freshLater : ∀ e ∈ ds, (l ++ [kept s (d, word)]).lookup e.dest = none := by
        intro e member
        have other : e.dest ≠ d.dest := fun same =>
          distinct.1 (List.mem_map.mpr ⟨e, member, same⟩)
        rw [kept, Matches.lookup_snoc_of_ne other, fresh.2 e member]
      obtain ⟨q, ran, settled⟩ := ih enough takes.2 accepts.2 distinct.2 freshLater
        (p := { settled l (ds.map (·.argument)) true with
          pending := some ⟨d.argument, [word], false⟩ }) rfl rfl
        (by simp [settle, settled, stored, kept])
      exact ⟨q, ran, by rw [settled, List.append_assoc, List.singleton_append, List.drop_succ_cons]⟩

end Progress

/-! ## What stands in -/

/-- What is stored in the end for an option that is not stored yet, if some text stands in for it. -/
def fallback (s : Surroundings) (l : List (String × Value)) (d : Declaration) :
    Option (String × Value) :=
  if (l.lookup d.dest).isSome then none else d.directives.standIn.map fun text => kept s (d, text)

/-- The options that are not stored yet get what stands in for them. -/
theorem fillDefaults_arguments {s : Surroundings} {ds : List Declaration}
    (accepted : ∀ d ∈ ds, d.directives.AcceptsDefault)
    (distinct : (ds.map (·.dest)).Nodup) (l : List (String × Value)) :
    fillDefaults s (ds.map (·.argument)) (.single l) =
      .ok (.single (l ++ ds.filterMap (fallback s l))) := by
  induction ds generalizing l with
  | nil => simp [fillDefaults]
  | cons d ds ih =>
    simp only [List.forall_mem_cons, List.map_cons, List.nodup_cons] at accepted distinct
    rw [List.map_cons, fillDefaults, Declaration.argument_id, Matches.has_single,
      Declaration.defaultValues_argument accepted.1]
    by_cases stored : (l.lookup d.dest).isSome = true
    · have nothing : fallback s l d = none := by rw [fallback, if_pos stored]
      rw [if_pos stored, ih accepted.2 distinct.2, List.filterMap_cons_none nothing]
    · have fresh : l.lookup d.dest = none := Option.not_isSome_iff_eq_none.mp stored
      rw [if_neg stored]
      cases stands : d.directives.standIn with
      | none =>
        have nothing : fallback s l d = none := by simp [fallback, stands]
        simp only [Option.map_none, Option.toList_none]
        rw [ih accepted.2 distinct.2, List.filterMap_cons_none nothing]
      | some text =>
        have added : fallback s l d = some (kept s (d, text)) := by
          simp [fallback, fresh, stands]
        have others : ∀ e ∈ ds, fallback s (l ++ [kept s (d, text)]) e = fallback s l e := by
          intro e member
          have other : e.dest ≠ d.dest := fun same =>
            distinct.1 (List.mem_map.mpr ⟨e, member, same⟩)
          rw [fallback, fallback, kept, Matches.lookup_snoc_of_ne other]
        simp only [Option.map_some, Option.toList_some]
        rw [Matches.append_single fresh]
        change fillDefaults s _ (.single (l ++ [kept s (d, text)])) = _
        rw [ih accepted.2 distinct.2, List.filterMap_congr others, List.filterMap_cons_some added,
          List.append_assoc, List.singleton_append]

end TaggedOptions
