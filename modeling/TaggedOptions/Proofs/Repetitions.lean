import Mathlib
import TaggedOptions.Proofs.Answering
import TaggedOptions.Proofs.Assembling

/-! # Repeated options

A selection names an option once for each tag that asks for it.  Assembling its command skips the
repetitions; applying the selection to an assembly as it stands adds them again, and each is refused,
since at least its destination is taken by then.  So the two ways give the same command as long as no
option is repeated, and otherwise the second one fails.
-/

namespace TaggedOptions

/-- Without repetitions all entries are distinct ones. -/
theorem distinctEntries_of_nodup {es : List Entry} (once : (es.map (·.serial)).Nodup) :
    distinctEntries es = es := by
  induction es using List.reverseRecOn with
  | nil => rfl
  | append_singleton es e ih =>
    rw [List.map_append, List.map_singleton, ← List.concat_eq_append, List.nodup_concat] at once
    have fresh : ¬ es.any e.same = true := by
      intro known
      obtain ⟨twin, member, same⟩ := List.any_eq_true.mp known
      have serial : e.serial = twin.serial := by simpa [Entry.same] using same
      exact once.1 (List.mem_map.mpr ⟨twin, member, serial.symm⟩)
    rw [distinctEntries_append_singleton, ih once.2, if_neg fresh]

/-- Where entries have different destinations, none of them is repeated. -/
theorem SerialsTell.nodup_serials {es : List Entry} (tells : SerialsTell es)
    (apart : (es.map (·.dest)).Nodup) : (es.map (·.serial)).Nodup := by
  rw [List.Nodup, List.pairwise_map] at apart ⊢
  exact apart.imp_of_mem fun {a b} ha hb different same =>
    different (congrArg Entry.dest (tells a ha b hb same))

namespace Selection

def Unrepeated (s : Selection) : Prop := (s.entries.map (·.serial)).Nodup

instance (s : Selection) : Decidable s.Unrepeated := inferInstanceAs (Decidable (List.Nodup _))

theorem Unrepeated.options_eq {s : Selection} (once : s.Unrepeated) :
    s.options = s.declarations := by
  rw [← distinct_map_declaration, distinct, distinctEntries_of_nodup once]
  rfl

/-- The declarations of a selection can be admitted together only if none of them is repeated. -/
theorem unrepeated_of_admissible {s : Selection} (tells : SerialsTell s.entries)
    (admissible : Admissible s.declarations) : s.Unrepeated := by
  have apart := (List.nodup_cons.mp admissible.dests).2
  rw [declarations, List.map_map] at apart
  exact tells.nodup_serials apart

/-- Applying a selection to an empty assembly gives a command exactly if the selection has one and
repeats no option, and then it is the same one.  If an option is repeated there is an error. -/
theorem applied_eq_ok_iff (ds : List Declaration) (tags : List String) (name : String) :
    let selection := (Registry.empty.registerAll ds).get tags
    let applied := (Assembly.new name).addAll selection.declarations
    (∀ c, applied.finish = .ok c ↔ selection.command name = .ok c ∧ selection.Unrepeated) ∧
      (¬ selection.Unrepeated → ∃ e, applied.finish = .error e) := by
  intro selection applied
  have tells : SerialsTell selection.entries := Registry.serialsTell ds tags
  have agree (c : Command) :
      applied.finish = .ok c ↔ selection.command name = .ok c ∧ selection.Unrepeated := by
    rw [Assembly.finish_addAll_eq_ok_iff, command, assembly_eq, Assembly.finish_addAll_eq_ok_iff]
    change _ ↔ (Admissible selection.options ∧
      c = { name, arguments := selection.options.map (·.argument) }) ∧ _
    constructor
    · rintro ⟨admissible, rfl⟩
      have once := unrepeated_of_admissible tells admissible
      rw [once.options_eq]
      exact ⟨⟨admissible, rfl⟩, once⟩
    · rintro ⟨assembled, once⟩
      rwa [once.options_eq] at assembled
  refine ⟨agree, fun repeated => ?_⟩
  cases finished : applied.finish with
  | error e => exact ⟨e, rfl⟩
  | ok c => exact absurd ((agree c).mp finished).2 repeated

/-- A word of two stages that are both requested: the command holds it once, and applying the
selection fails. -/
theorem applied_eq_ok_iff_two_stages :
    let target : Declaration := ⟨["target"], { required := true }, .ofList ["ql", "trap"]⟩
    let selection := (Registry.empty.registerAll [target]).get ["ql", "trap"]
    let applied := (Assembly.new "codegen").addAll selection.declarations
    (∃ c, selection.command "codegen" = .ok c) ∧ ¬ selection.Unrepeated ∧
      ∃ e, applied.finish = .error e := by
  intro target selection applied
  have repeated : ¬ selection.Unrepeated := by decide +kernel
  have assembled : selection.command "codegen" =
      .ok { name := "codegen", arguments := [target.argument] } := by
    decide +kernel
  exact ⟨⟨_, assembled⟩, repeated,
    (applied_eq_ok_iff [target] ["ql", "trap"] "codegen").2 repeated⟩

end Selection

end TaggedOptions
