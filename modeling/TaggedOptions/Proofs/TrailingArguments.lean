import Mathlib
import TaggedOptions.Invocation.Arguments
import TaggedOptions.Proofs.TrailingWords

/-! # Arguments that are passed on

What stands behind the separator of the program's command line is for the parser that the selection
assembles.  It is passed on as it is, and has no influence on anything that stands in front; without
a separator nothing is passed on.
-/

namespace TaggedOptions

/-! ## What stands in -/

section

variable {s : Surroundings} {args : List Argument} {m filled : Matches}

def standIn? (s : Surroundings) (args : List Argument) (id : String) : Option (List Value) :=
  args.findSome? fun a =>
    if a.id = id then
      match defaultValues s a with
      | .ok (v :: more) => some (v :: more)
      | _ => none
    else none

/-- Under each id what is given stays, and what stands in comes where nothing is given. -/
theorem fillDefaults_get? (h : fillDefaults s args m = .ok filled) (id : String) :
    filled.get? id = (m.get? id).or (standIn? s args id) := by
  induction args generalizing m with
  | nil =>
    cases h
    simp [standIn?]
  | cons a rest ih =>
    obtain ⟨next, later, step⟩ := fillDefaults_cons_eq_ok_iff.mp h
    rw [ih later]
    by_cases own : a.id = id
    · subst own
      rcases step with ⟨known, rfl⟩ | ⟨_, nothing, rfl⟩ | ⟨fresh, v, more, values, rfl⟩
      · obtain ⟨given, found⟩ : ∃ given, next.get? a.id = some given := by
          rw [← Option.isSome_iff_exists, Option.isSome_iff_ne_none]
          simp [Matches.get?_eq_none_iff, known]
        simp [found]
      · simp [standIn?, nothing]
      · simp [standIn?, values, Matches.get?_append, Matches.get?_eq_none_iff.mpr fresh]
    · have same : next.get? id = m.get? id := by
        rcases step with ⟨_, rfl⟩ | ⟨_, _, rfl⟩ | ⟨_, v, more, _, rfl⟩
        · rfl
        · rfl
        · rw [Matches.get?_append, if_neg own]
      simp [standIn?, own, same]

theorem exists_fillDefaults (defaults : ∀ a ∈ args, ∃ values, defaultValues s a = .ok values) :
    ∃ filled, fillDefaults s args m = .ok filled := by
  induction args generalizing m with
  | nil => exact ⟨m, rfl⟩
  | cons a rest ih =>
    rw [List.forall_mem_cons] at defaults
    obtain ⟨⟨values, default⟩, later⟩ := defaults
    rw [fillDefaults, default]
    cases m.has a.id with
    | true => exact ih later
    | false => cases values <;> exact ih later

end

namespace Invocation

variable {s : Surroundings} {m n : Matches} {os : List Occurrence}

/-! ## The program's command -/

theorem wordsLast : command.WordsLast argvArgument where
  positionals := rfl
  trailing := rfl
  many := rfl
  unnamed := by
    rintro (⟨name, found⟩ | ⟨letter, found⟩)
    · have named := List.find?_some found
      simp [Argument.longs, argvArgument] at named
    · have named := List.find?_some found
      simp [Argument.shorts, argvArgument] at named

theorem mem_allArguments_of_names {a : Argument} (h : command.Names a) :
    a ∈ command.allArguments := by
  rcases h with ⟨name, found⟩ | ⟨letter, found⟩
  · exact List.mem_of_find?_eq_some found
  · exact List.mem_of_find?_eq_some found

/-- Each id belongs to one argument. -/
theorem eq_of_id_eq {a b : Argument} (ha : a ∈ command.allArguments)
    (hb : b ∈ command.allArguments) (same : a.id = b.id) : a = b := by
  have distinct : (command.allArguments.map (·.id)).Nodup := by decide
  exact List.inj_on_of_nodup_map distinct ha hb same

theorem defaultValues_command :
    ∀ a ∈ command.arguments, ∃ values, defaultValues s a = .ok values := by
  simp [command, defaultValues, tagArgument, manifestArgument, rootArgument, noBuiltinArgument,
    progArgument, quietArgument, argvArgument, ValueKind.readAll, ValueKind.read]

theorem read_eq_ok_iff {args : List String} {i : Invocation} :
    read s args = .ok i ↔ ∃ m filled, command.given s args = .ok m ∧
      fillDefaults s command.arguments m = .ok filled ∧ ofMatches filled = i := by
  have optional : ∀ a ∈ command.arguments, a.required = false := by decide
  have complete (m : Matches) : ∀ a ∈ command.arguments, a.required = true → m.has a.id = true :=
    fun a member required => by simp [optional a member] at required
  have opened : read s args = .ok i ↔
      ∃ filled, command.read s args = .ok filled ∧ ofMatches filled = i := by
    unfold read
    cases command.read s args <;> simp
  rw [opened]
  simp only [Command.read_eq_ok_iff]
  constructor
  · rintro ⟨filled, ⟨m, given, ends, _⟩, rfl⟩
    exact ⟨m, filled, given, ends, rfl⟩
  · rintro ⟨m, filled, given, ends, rfl⟩
    exact ⟨filled, ⟨m, given, ends, complete m⟩, rfl⟩

theorem texts_congr {id : String} (same : m.get? id = n.get? id) : texts m id = texts n id := by
  rw [texts, texts, same]

theorem given_congr {id : String} (same : m.get? id = n.get? id) : given m id = given n id := by
  rw [given, given, Matches.first?, Matches.first?, same]

/-- If nothing else is given than other tags and other arguments to pass on, then nothing else is
read. -/
theorem read_of_given {args args' : List String} {i : Invocation} (h : read s args = .ok i)
    (before : command.given s args = .ok m) (now : command.given s args' = .ok n)
    (same : ∀ id, id ≠ tagArgument.id → id ≠ argvArgument.id → n.get? id = m.get? id) :
    read s args' =
      .ok { i with tags := texts n tagArgument.id, argv := texts n argvArgument.id } := by
  obtain ⟨m', filled, given, ends, rfl⟩ := read_eq_ok_iff.mp h
  cases before.symm.trans given
  obtain ⟨filled', ends'⟩ := exists_fillDefaults (m := n) (s := s) defaultValues_command
  refine read_eq_ok_iff.mpr ⟨n, filled', now, ends', ?_⟩
  have others (id : String) (noTag : id ≠ tagArgument.id) (noArgv : id ≠ argvArgument.id) :
      filled'.get? id = filled.get? id := by
    rw [fillDefaults_get? ends, fillDefaults_get? ends', same id noTag noArgv]
  have kept (id : String) (none : standIn? s command.arguments id = none) :
      filled'.get? id = n.get? id := by
    rw [fillDefaults_get? ends', none, Option.or_none]
  have root := texts_congr (others rootArgument.id (by decide) (by decide))
  have prog := texts_congr (others progArgument.id (by decide) (by decide))
  simp only [ofMatches, root, prog, Invocation.mk.injEq, true_and]
  exact ⟨texts_congr (kept _ rfl), texts_congr (others _ (by decide) (by decide)),
    given_congr (others _ (by decide) (by decide)), given_congr (others _ (by decide) (by decide)),
    texts_congr (kept _ rfl)⟩

theorem read_given {args : List String} {i : Invocation} (h : read s args = .ok i)
    (given : command.given s args = .ok m) :
    i.tags = texts m tagArgument.id ∧ i.argv = texts m argvArgument.id := by
  have again := read_of_given h given given fun _ _ _ => rfl
  rw [h, Except.ok.injEq] at again
  constructor
  · exact congrArg Invocation.tags again
  · exact congrArg Invocation.argv again

/-! ## Arguments that collect texts -/

section

variable {a : Argument} {delimiter : Option Char}

theorem readAll_text (arg : String) (raws : List String) :
    ValueKind.text.readAll s arg raws = .ok (raws.map .text) := by
  induction raws with
  | nil => rfl
  | cons raw raws ih => simp [ValueKind.readAll, ValueKind.read, ih]

theorem store_collected (collects : a.reaction = .many .text delimiter) {raws : List String}
    (some : raws ≠ []) :
    store s m a raws = .ok (m.append a.id ((raws.flatMap (splitRaw delimiter)).map .text)) := by
  cases raws with
  | nil => exact absurd rfl some
  | cons raw raws => simp [store, collects, readAll_text]

theorem raws_ne_nil (collects : a.reaction = .many .text delimiter) {raws : List String}
    (stored : store s m a raws = .ok n) : raws ≠ [] := by
  rintro rfl
  exact store_nil_ne_ok (by rw [collects]; rfl) stored

theorem texts_append (m : Matches) (id : String) (values : List String) :
    texts (m.append id (values.map .text)) id = texts m id ++ values := by
  have each : (values.map Value.text).filterMap (fun v => v.text?.or v.path?) = values := by
    rw [List.filterMap_map]
    exact List.filterMap_some
  simp [texts, Matches.get?_append, List.filterMap_append, each]

/-- An argument that collects texts has in the end all that its occurrences bring, in order. -/
theorem texts_storeAll (collects : a.reaction = .many .text delimiter)
    (alone : ∀ o ∈ os, o.argument.id = a.id → o.argument = a)
    (h : Occurrence.storeAll s m os = .ok n) :
    texts n a.id = texts m a.id ++
      (Occurrence.under a.id os).flatMap fun o => o.raws.flatMap (splitRaw delimiter) := by
  induction os generalizing m with
  | nil =>
    cases h
    simp [Occurrence.under]
  | cons o os ih =>
    rw [List.forall_mem_cons] at alone
    obtain ⟨next, stored, later⟩ := Occurrence.storeAll_cons_eq_ok_iff.mp h
    rw [ih alone.2 later]
    by_cases own : o.argument.id = a.id
    · rw [alone.1 own] at stored
      have brought := store_collected (s := s) (m := m) collects (raws_ne_nil collects stored)
      rw [stored, Except.ok.injEq] at brought
      rw [← own, Occurrence.under_cons_self, own, brought, texts_append, List.flatMap_cons,
        List.append_assoc]
    · rw [Occurrence.under_cons_of_ne own, texts_congr (store_get?_of_ne stored own)]

theorem exists_storeAll_collected (collects : a.reaction = .many .text delimiter)
    (each : ∀ o ∈ os, o.argument = a ∧ o.raws ≠ []) :
    ∃ n, Occurrence.storeAll s m os = .ok n := by
  induction os generalizing m with
  | nil => exact ⟨m, rfl⟩
  | cons o os ih =>
    rw [List.forall_mem_cons] at each
    obtain ⟨⟨rfl, some⟩, later⟩ := each
    obtain ⟨n, stored⟩ := ih later
    exact ⟨n, Occurrence.storeAll_cons_eq_ok_iff.mpr ⟨_, store_collected collects some, stored⟩⟩

end

/-! ## Behind the separator -/

theorem id_ne_argv {a : Argument} (named : command.Names a) : a.id ≠ argvArgument.id := by
  have known : argvArgument ∈ command.allArguments := by simp [Command.allArguments, command]
  exact mt (eq_of_id_eq (mem_allArguments_of_names named) known) (wordsLast.ne_of_names named)

/-- Words behind the separator are found as they are, and change nothing else. -/
theorem storeAll_separated (named : ∀ o ∈ os, command.Names o.argument)
    (h : Occurrence.storeAll s [] os = .ok m) (behind : Option (List String)) :
    ∃ n, Occurrence.storeAll s [] (os ++ Occurrence.separated argvArgument behind) = .ok n ∧
      texts n argvArgument.id = behind.getD [] ∧
      ∀ id, id ≠ argvArgument.id → n.get? id = m.get? id := by
  have own : Occurrence.under argvArgument.id (os ++ Occurrence.separated argvArgument behind) =
      Occurrence.separated argvArgument behind :=
    Occurrence.under_append_separated fun o member => id_ne_argv (named o member)
  have alone : ∀ o ∈ os ++ Occurrence.separated argvArgument behind,
      o.argument.id = argvArgument.id → o.argument = argvArgument := by
    intro o member same
    rcases List.mem_append.mp member with front | back
    · exact absurd same (id_ne_argv (named o front))
    · exact (Occurrence.separated_spec back).1
  have collects : argvArgument.reaction = .many .text none := rfl
  obtain ⟨n, stored, same⟩ := Occurrence.storeAll_of_under_eq h
    (fun _ other => Occurrence.under_append_separated_of_ne other os)
    (own ▸ exists_storeAll_collected collects fun o member => Occurrence.separated_spec member)
  refine ⟨n, stored, ?_, same⟩
  have whole (raws : List String) : raws.flatMap (splitRaw none) = raws :=
    List.flatMap_singleton' raws
  rw [texts_storeAll collects alone stored, own]
  simp only [whole, Occurrence.flatMap_raws_separated]
  rfl

/-- Whatever stands behind the separator is passed on as it is, and all else is read as if it were
not there; without a separator nothing is passed on. -/
theorem read_separated (s : Surroundings) {args : List String} (unseparated : "--" ∉ args)
    {i : Invocation} (accepted : read s args = .ok i) (words : List String) :
    i.argv = [] ∧ read s (args ++ "--" :: words) = .ok { i with argv := words } := by
  obtain ⟨m, _, given, _⟩ := read_eq_ok_iff.mp accepted
  obtain ⟨os, complete, named, stored⟩ := wordsLast.exists_of_given unseparated given
  obtain ⟨tags, argv⟩ := read_given accepted given
  constructor
  · obtain ⟨n, stored', none, _⟩ := storeAll_separated named stored none
    simp only [Occurrence.separated, Option.getD_none, if_true, List.append_nil] at stored'
    cases stored.symm.trans stored'
    rw [argv, none, Option.getD_none]
  · obtain ⟨n, stored', found, same⟩ := storeAll_separated named stored (some words)
    have now : command.given s (args ++ "--" :: words) = .ok n :=
      (wordsLast.given_append_separated unseparated complete (some words)).trans stored'
    have sameTags : texts n tagArgument.id = i.tags := by
      rw [tags, texts_congr (same _ (by decide))]
    rw [read_of_given accepted given now fun id _ other => same id other, sameTags, found,
      Option.getD_some]

/-- A second separator, a request for help, another tag, an empty text and a comma are passed on. -/
theorem read_separated_flags :
    let s := FileTree.bare.surroundings ["w"]
    let args := ["-t", "ql,trap", "-qm", "x.toml"]
    let words := ["--", "-h", "--tag=x", "", "a,b"]
    let i : Invocation := ⟨["ql", "trap"], ["x.toml"], ".", false, "codegen", true, []⟩
    "--" ∉ args ∧ read s args = .ok i ∧
      read s (args ++ "--" :: words) = .ok { i with argv := words } := by
  intro s args words i
  have accepted : read s args = .ok i := by decide +kernel
  exact ⟨by decide, accepted, (read_separated s (by decide) accepted words).2⟩

end Invocation

end TaggedOptions
