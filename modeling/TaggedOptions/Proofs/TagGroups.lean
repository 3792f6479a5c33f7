import Mathlib
import TaggedOptions.Invocation.Program
import TaggedOptions.Proofs.TrailingArguments

/-! # Tags in groups

Tags can be given one by one or several at a time, separated by commas, with other options between
them.  Only the sequence of all tags counts: it is what the program selects by, and every other way
to write the same sequence makes the program do the same.
-/

namespace TaggedOptions

namespace Invocation

/-- A part of a command line: a group of tags, or other options. -/
inductive Part where
  | tags (group : List String)
  | others (args : List String)

namespace Part

def args : Part → List String
  | .tags group => ["--tag=" ++ ",".intercalate group]
  | .others args => args

def requested : Part → List String
  | .tags group => group
  | .others _ => []

def rest : Part → List String
  | .tags _ => []
  | .others args => args

/-- A group has members, none with a comma in it.  Other options are accepted by themselves and ask
for no tag. -/
def Fits (s : Surroundings) : Part → Prop
  | .tags group => group ≠ [] ∧ ∀ tag ∈ group, ',' ∉ tag.toList
  | .others args => "--" ∉ args ∧ ∃ i, read s args = .ok i ∧ i.tags = []

def occurrences : Part → List Occurrence
  | .tags group => [⟨tagArgument, [",".intercalate group]⟩]
  | .others _ => []

variable {s : Surroundings} {p : Part}

/-! ## One part -/

theorem splitRaw_intercalate {group : List String} (members : group ≠ [])
    (plain : ∀ tag ∈ group, ',' ∉ tag.toList) :
    splitRaw (some ',') (",".intercalate group) = group := by
  have chars : (",".intercalate group).toList = [','].intercalate (group.map String.toList) := by
    simp [String.toList_intercalate]
  have parts : ([','].intercalate (group.map String.toList)).splitOn ',' =
      group.map String.toList :=
    List.splitOn_intercalate ',' (by simpa using plain) (by simpa using members)
  simp only [splitRaw, chars, parts, List.map_map]
  simp [Function.comp_def]

theorem elementEvents_group (value : String) :
    command.elementEvents ("--tag=" ++ value) = [.occur tagArgument [value]] := by
  have token : Token.ofString ("--tag=" ++ value) = .long "tag" (some value) :=
    Token.ofString_assign (show '=' ∉ "tag".toList by decide) value
  have known : command.byLong? "tag" = some tagArgument := rfl
  simp only [Command.elementEvents, token, Command.longEvent, known]
  rfl

theorem Fits.unseparated (fits : p.Fits s) : "--" ∉ p.args := by
  cases p with
  | tags group =>
    intro member
    have meaning := elementEvents_group (",".intercalate group)
    rw [← List.mem_singleton.mp member] at meaning
    have separates : command.elementEvents "--" = [.separator] := rfl
    rw [separates] at meaning
    cases meaning
  | others args => exact fits.1

theorem Fits.unseparated_rest (fits : p.Fits s) : "--" ∉ p.rest := by
  cases p with
  | tags group => simp [rest]
  | others args => exact fits.1

theorem eq_tagArgument {a : Argument} (named : command.Names a) (same : a.id = tagArgument.id) :
    a = tagArgument :=
  eq_of_id_eq (mem_allArguments_of_names named) (by decide) same

/-- The tags of occurrences without a fault are what the values are split into. -/
theorem texts_tag {os : List Occurrence} (named : ∀ o ∈ os, command.Names o.argument) {m : Matches}
    (stored : Occurrence.storeAll s [] os = .ok m) :
    texts m tagArgument.id = (Occurrence.under tagArgument.id os).flatMap fun o =>
      o.raws.flatMap (splitRaw (some ',')) := by
  have collects : tagArgument.reaction = .many .text (some ',') := rfl
  exact texts_storeAll collects (fun o member => eq_tagArgument (named o member)) stored

theorem under_tag_eq_nil {args : List String} {i : Invocation} (accepted : read s args = .ok i)
    (none : i.tags = []) {m : Matches} (given : command.given s args = .ok m)
    {os : List Occurrence} (named : ∀ o ∈ os, command.Names o.argument)
    (stored : Occurrence.storeAll s [] os = .ok m) :
    Occurrence.under tagArgument.id os = [] := by
  have found := texts_tag named stored
  rw [← (read_given accepted given).1, none] at found
  rw [List.eq_nil_iff_forall_not_mem]
  intro o member
  obtain ⟨there, own⟩ := List.mem_filter.mp member
  have own : o.argument = tagArgument := eq_tagArgument (named o there) (by simpa using own)
  obtain ⟨_, _, occurred⟩ := Occurrence.exists_store_of_mem stored there
  rw [own] at occurred
  have collects : tagArgument.reaction = .many .text (some ',') := rfl
  obtain ⟨raw, raws, given⟩ := List.exists_cons_of_ne_nil (raws_ne_nil collects occurred)
  have nothing : o.raws.flatMap (splitRaw (some ',')) = [] :=
    List.flatMap_eq_nil_iff.mp found.symm o member
  have split : splitRaw (some ',') raw = [] :=
    List.flatMap_eq_nil_iff.mp nothing raw (by simp [given])
  simp [splitRaw, List.splitOn_ne_nil] at split

/-- A part consists of complete occurrences: a group is one of the tag argument, and other options
are such of other arguments. -/
theorem Fits.exists_occurrences (fits : p.Fits s) :
    ∃ os others, Event.Complete (command.events p.args) os ∧
      Event.Complete (command.events p.rest) others ∧
      Occurrence.under tagArgument.id os = p.occurrences ∧
      ∀ id, id ≠ tagArgument.id → Occurrence.under id os = Occurrence.under id others := by
  cases p with
  | tags group =>
    have means : command.events (Part.tags group).args =
        [.occur tagArgument [",".intercalate group]] := by
      rw [Command.events_eq_flatMap fits.unseparated]
      simp only [args, List.flatMap_singleton, elementEvents_group]
    rw [means]
    refine ⟨_, [], .occur _ _ .nil, .nil, rfl, fun id other => ?_⟩
    rw [Occurrence.under_cons_of_ne other.symm]
  | others args =>
    obtain ⟨unseparated, i, accepted, none⟩ := fits
    obtain ⟨m, _, given, _⟩ := read_eq_ok_iff.mp accepted
    obtain ⟨os, complete, named, stored⟩ := wordsLast.exists_of_given unseparated given
    exact ⟨os, os, complete, complete, under_tag_eq_nil accepted none given named stored,
      fun _ _ => rfl⟩

/-! ## All parts -/

theorem exists_storeAll_occurrences (parts : List Part) :
    ∃ n, Occurrence.storeAll s [] (parts.flatMap occurrences) = .ok n := by
  have collects : tagArgument.reaction = .many .text (some ',') := rfl
  refine exists_storeAll_collected collects fun o member => ?_
  obtain ⟨p, _, there⟩ := List.mem_flatMap.mp member
  cases p with
  | tags group =>
    rw [List.mem_singleton.mp there]
    exact ⟨rfl, by simp⟩
  | others args => cases there

section

variable {parts : List Part} (fits : ∀ p ∈ parts, p.Fits s)
include fits

theorem unseparated_args : "--" ∉ parts.flatMap args := by
  rw [List.mem_flatMap]
  rintro ⟨p, member, there⟩
  exact (fits p member).unseparated there

theorem unseparated_rest : "--" ∉ parts.flatMap rest := by
  rw [List.mem_flatMap]
  rintro ⟨p, member, there⟩
  exact (fits p member).unseparated_rest there

/-- The groups are the occurrences of the tag argument, and all other occurrences are there without
the groups. -/
theorem exists_occurrences :
    ∃ os others, Event.Complete (command.events (parts.flatMap args)) os ∧
      Event.Complete (command.events (parts.flatMap rest)) others ∧
      Occurrence.under tagArgument.id os = parts.flatMap occurrences ∧
      ∀ id, id ≠ tagArgument.id → Occurrence.under id os = Occurrence.under id others := by
  induction parts with
  | nil => exact ⟨[], [], .nil, .nil, rfl, fun _ _ => rfl⟩
  | cons p parts ih =>
    rw [List.forall_mem_cons] at fits
    obtain ⟨os, others, complete, completeOthers, tags, same⟩ := fits.1.exists_occurrences
    obtain ⟨os', others', complete', completeOthers', tags', same'⟩ := ih fits.2
    refine ⟨os ++ os', others ++ others', ?_, ?_, ?_, ?_⟩
    · rw [List.flatMap_cons, Command.events_append_of_unseparated fits.1.unseparated]
      exact complete.append complete'
    · rw [List.flatMap_cons, Command.events_append_of_unseparated fits.1.unseparated_rest]
      exact completeOthers.append completeOthers'
    · rw [Occurrence.under_append, tags, tags', List.flatMap_cons]
    · intro id other
      rw [Occurrence.under_append, Occurrence.under_append, same id other, same' id other]

/-- The occurrences of the tag argument bring the tags of all groups, in order. -/
theorem flatMap_occurrences :
    ((parts.flatMap occurrences).flatMap fun o => o.raws.flatMap (splitRaw (some ','))) =
      parts.flatMap requested := by
  rw [List.flatMap_assoc]
  refine List.flatMap_congr fun p member => ?_
  cases p with
  | tags group =>
    obtain ⟨members, plain⟩ := fits _ member
    simp [occurrences, requested, splitRaw_intercalate members plain]
  | others args => rfl

end

end Part

variable {s : Surroundings}

/-- The tags of a command line in parts are those of its groups in order; all else is read as if the
groups were not there. -/
theorem read_parts {parts : List Part} (fits : ∀ p ∈ parts, p.Fits s) {i : Invocation}
    (accepted : read s (parts.flatMap Part.rest) = .ok i) (behind : Option (List String)) :
    read s (parts.flatMap Part.args ++ separated behind) =
      .ok { i with tags := parts.flatMap Part.requested, argv := behind.getD [] } := by
  obtain ⟨os, others, complete, completeOthers, tags, same⟩ := Part.exists_occurrences fits
  have unseparated := Part.unseparated_args fits
  have named := complete.names fun _ => Command.early_of_mem_events unseparated
  obtain ⟨m, _, given, _⟩ := read_eq_ok_iff.mp accepted
  have before : Occurrence.storeAll s [] others = .ok m :=
    (wordsLast.given_eq_storeAll (Part.unseparated_rest fits) completeOthers).symm.trans given
  obtain ⟨front, stored, sameFront⟩ := Occurrence.storeAll_of_under_eq before same
    (tags ▸ Part.exists_storeAll_occurrences parts)
  have requested : texts front tagArgument.id = parts.flatMap Part.requested := by
    rw [Part.texts_tag named stored, tags, Part.flatMap_occurrences fits]
  obtain ⟨n, ends, passed, sameEnd⟩ := storeAll_separated named stored behind
  have now : command.given s (parts.flatMap Part.args ++ separated behind) = .ok n :=
    (wordsLast.given_append_separated unseparated complete behind).trans ends
  have found : texts n tagArgument.id = parts.flatMap Part.requested := by
    rw [texts_congr (sameEnd _ (by decide)), requested]
  rw [read_of_given accepted given now fun id noTag noArgv =>
    (sameEnd id noArgv).trans (sameFront id noTag), found, passed]

/-- The tags are those of the groups in order, and the call selects by them.  Other parts with the
same tags, whatever their groups and wherever the other options stand, make the same call, and so
the program ends in the same way. -/
theorem grouping_irrelevant (s : Surroundings) {parts : List Part} (fits : ∀ p ∈ parts, p.Fits s)
    {i : Invocation} (accepted : read s (parts.flatMap Part.rest) = .ok i)
    (behind : Option (List String)) :
    let requested := parts.flatMap Part.requested
    let call : Invocation := { i with tags := requested, argv := behind.getD [] }
    read s (parts.flatMap Part.args ++ separated behind) = .ok call ∧
      call.selection s = (i.registry s).map (·.get requested) ∧
      ∀ others : List Part, (∀ p ∈ others, p.Fits s) → others.flatMap Part.requested = requested →
        read s (others.flatMap Part.rest) = .ok i →
        read s (others.flatMap Part.args ++ separated behind) = .ok call ∧
          Program.run s (others.flatMap Part.args ++ separated behind) =
            Program.run s (parts.flatMap Part.args ++ separated behind) := by
  intro requested call
  have made := read_parts fits accepted behind
  have sameRegistry : call.registry s = i.registry s := rfl
  refine ⟨made, ?_, fun others fitsToo sameTags acceptedToo => ?_⟩
  · rw [selection, sameRegistry]
    cases i.registry s <;> rfl
  · have again := read_parts fitsToo acceptedToo behind
    rw [sameTags] at again
    refine ⟨again, ?_⟩
    rw [Program.run, Program.run, again, made]

/-- Other options in two places, an empty tag and a repeated one, in groups of two or one by one. -/
theorem grouping_irrelevant_empty_tag :
    let s := FileTree.bare.surroundings ["w"]
    let parts : List Part :=
      [.others ["-m", "x.toml"], .tags ["ql", "trap"], .others ["--root=/p", "-q"], .tags ["", "ql"]]
    let others : List Part :=
      [.tags ["ql"], .others ["-m", "x.toml", "--root=/p"], .tags ["trap"], .tags [""],
        .tags ["ql"], .others ["-q"]]
    let behind := some ["--tag=x"]
    let call : Invocation :=
      ⟨["ql", "trap", "", "ql"], ["x.toml"], "/p", false, "codegen", true, ["--tag=x"]⟩
    read s (parts.flatMap Part.args ++ separated behind) = .ok call ∧
      read s (others.flatMap Part.args ++ separated behind) = .ok call := by
  intro s parts others behind call
  have fits : ∀ p ∈ parts, p.Fits s := by
    simp only [parts, List.forall_mem_cons]
    refine ⟨⟨by decide, ⟨[], ["x.toml"], ".", false, "codegen", false, []⟩, by decide +kernel, rfl⟩,
      ⟨by decide, by decide⟩,
      ⟨by decide, ⟨[], [], "/p", false, "codegen", true, []⟩, by decide +kernel, rfl⟩,
      ⟨by decide, by decide⟩, by simp⟩
  have fitsToo : ∀ p ∈ others, p.Fits s := by
    simp only [others, List.forall_mem_cons]
    refine ⟨⟨by decide, by decide⟩,
      ⟨by decide, ⟨[], ["x.toml"], "/p", false, "codegen", false, []⟩, by decide +kernel, rfl⟩,
      ⟨by decide, by decide⟩, ⟨by decide, by decide⟩, ⟨by decide, by decide⟩,
      ⟨by decide, ⟨[], [], ".", false, "codegen", true, []⟩, by decide +kernel, rfl⟩, by simp⟩
  let i : Invocation := ⟨[], ["x.toml"], "/p", false, "codegen", true, []⟩
  have accepted : read s (parts.flatMap Part.rest) = .ok i := by decide +kernel
  have acceptedToo : read s (others.flatMap Part.rest) = .ok i := by decide +kernel
  obtain ⟨made, _, same⟩ := grouping_irrelevant s fits accepted behind
  exact ⟨made, (same others fitsToo rfl acceptedToo).1⟩

end Invocation

end TaggedOptions
