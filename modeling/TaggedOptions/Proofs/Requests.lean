import Mathlib
import TaggedOptions.Proofs.Answering
import TaggedOptions.Proofs.History

/-! # Redundant requests

A selection repeats an entry for each tag that asks for it.  Collecting the distinct entries and
collecting the answers are both folds that an entry changes at most once, so only the first request
for a tag counts, and asking for the wildcard adds nothing.
-/

namespace TaggedOptions

/-! ## Folds that take each member once -/

/-- A step takes each member once: a member that changes nothing now changes nothing later on, and
after a member was taken it changes nothing. -/
structure TakesOnce {α β : Type} (step : β → α → β) : Prop where
  again : ∀ b x, step (step b x) x = step b x
  stays : ∀ b x y, step b x = b → step (step b y) x = step b y

namespace TakesOnce

variable {α β : Type} {step : β → α → β}

theorem foldl_stays (once : TakesOnce step) {b : β} {x : α} (idle : step b x = b) (xs : List α) :
    step (xs.foldl step b) x = xs.foldl step b := by
  induction xs generalizing b with
  | nil => exact idle
  | cons y xs ih => exact ih (once.stays b x y idle)

theorem foldl_of_mem (once : TakesOnce step) (b : β) {x : α} {xs : List α} (member : x ∈ xs) :
    step (xs.foldl step b) x = xs.foldl step b := by
  induction xs generalizing b with
  | nil => cases member
  | cons y xs ih =>
    rcases List.mem_cons.mp member with rfl | later
    · exact once.foldl_stays (once.again b x) xs
    · exact ih (step b y) later

/-- Members that were all taken before change nothing. -/
theorem foldl_append_of_subset (once : TakesOnce step) (b : β) {xs more : List α}
    (known : more ⊆ xs) : (xs ++ more).foldl step b = xs.foldl step b := by
  rw [List.foldl_append]
  induction more with
  | nil => rfl
  | cons x more ih =>
    obtain ⟨here, rest⟩ := List.cons_subset.mp known
    rw [List.foldl_cons, once.foldl_of_mem b here]
    exact ih rest

end TakesOnce

theorem takesOnce_keep :
    TakesOnce fun (kept : List Entry) e => if kept.any e.same then kept else kept ++ [e] where
  again kept e := by
    by_cases known : kept.any e.same = true
    · simp [known]
    · simp [known, Entry.same]
  stays kept e other idle := by
    -- an entry is left out only where it is known, and what is known stays known
    have known : kept.any e.same = true := by
      by_contra unknown
      simp [unknown] at idle
    by_cases same : kept.any other.same = true
    · simp [same, known]
    · simp [same, known]

theorem takesOnce_addAnswer (m : Matches) : TakesOnce (addAnswer m) where
  again answers e := by
    unfold addAnswer
    by_cases answered : answers.any (·.dest = e.dest) = true
    · simp [answered]
    · rw [if_neg answered]
      cases answer : e.answer? m with
      | none => simp [answered]
      | some a => simp [Entry.dest_of_answer? answer]
  stays answers e other idle := by
    have settled : answers.any (·.dest = e.dest) = true ∨ e.answer? m = none := by
      by_contra unsettled
      rw [not_or] at unsettled
      obtain ⟨a, answer⟩ := Option.ne_none_iff_exists'.mp unsettled.2
      simp [addAnswer, unsettled.1, answer] at idle
    rcases settled with answered | unanswerable
    · have stillAnswered : (addAnswer m answers other).any (·.dest = e.dest) = true := by
        unfold addAnswer
        split
        · exact answered
        · split
          · rw [List.any_append, answered, Bool.true_or]
          · exact answered
      exact if_pos stillAnswered
    · unfold addAnswer
      simp [unanswerable]

/-! ## What a request comes down to -/

def essentialTags (tags : List String) : List String :=
  tags.eraseDups.filter (· ≠ wildcard)

theorem essentialTags_concat (tags : List String) (tag : String) :
    essentialTags (tags ++ [tag]) =
      if tag ∈ wildcard :: tags then essentialTags tags else essentialTags tags ++ [tag] := by
  unfold essentialTags
  rw [eraseDups_concat]
  by_cases repeated : tag ∈ tags
  · simp [repeated]
  · rw [if_neg repeated, List.filter_append]
    by_cases wild : tag = wildcard
    · simp [wild]
    · simp [repeated, wild]

example : essentialTags ["ql", "*", "trap", "ql"] = ["ql", "trap"] := by decide

namespace Registry

theorem entries_concat (r : Registry) (tags : List String) (tag : String) :
    (r.get (tags ++ [tag])).entries = (r.get tags).entries ++ r.tagged tag := by
  simp [Selection.entries, get]

/-- Everything that is filed under a requested tag or under the wildcard is selected. -/
theorem tagged_subset_entries (r : Registry) {tags : List String} {tag : String}
    (asked : tag ∈ wildcard :: tags) : r.tagged tag ⊆ (r.get tags).entries := by
  intro e filed
  rcases List.mem_cons.mp asked with rfl | requested
  · exact List.mem_append_left _ filed
  · exact List.mem_append_right _ (List.mem_flatMap.mpr ⟨tag, requested, filed⟩)

/-- A fold that takes each entry once gives the same over a selection as over what its request comes
down to. -/
theorem foldl_entries_essentialTags {β : Type} {step : β → Entry → β} (once : TakesOnce step)
    (b : β) (r : Registry) (tags : List String) :
    (r.get tags).entries.foldl step b = (r.get (essentialTags tags)).entries.foldl step b := by
  induction tags using List.reverseRecOn with
  | nil => rfl
  | append_singleton tags tag ih =>
    rw [entries_concat, essentialTags_concat]
    by_cases asked : tag ∈ wildcard :: tags
    · rw [if_pos asked, once.foldl_append_of_subset b (r.tagged_subset_entries asked), ih]
    · rw [if_neg asked, entries_concat, List.foldl_append, List.foldl_append, ih]

end Registry

namespace Selection

theorem command_essentialTags (r : Registry) (tags : List String) (name : String) :
    (r.get tags).command name = (r.get (essentialTags tags)).command name := by
  have distinct : (r.get tags).distinct = (r.get (essentialTags tags)).distinct :=
    r.foldl_entries_essentialTags takesOnce_keep [] tags
  rw [command, command, assembly, assembly, distinct]

theorem answers_essentialTags (r : Registry) (tags : List String) (m : Matches) :
    (r.get tags).answers m = (r.get (essentialTags tags)).answers m :=
  r.foldl_entries_essentialTags (takesOnce_addAnswer m) [] tags

/-- Leaving out repeated tags and the wildcard from a request changes neither the command nor its
fault, and neither the answers to any argument vector nor the fault found in it. -/
theorem redundant_requests (r : Registry) (tags : List String) (name : String) (s : Surroundings)
    (argv : List String) :
    (r.get tags).command name = (r.get (essentialTags tags)).command name ∧
      (r.get tags).parse s name argv = (r.get (essentialTags tags)).parse s name argv := by
  have matched : (r.get tags).matches? s name argv =
      (r.get (essentialTags tags)).matches? s name argv := by
    unfold matches?
    rw [command_essentialTags]
  refine ⟨command_essentialTags r tags name, ?_⟩
  unfold parse
  rw [matched]
  cases (r.get (essentialTags tags)).matches? s name argv with
  | error e => rfl
  | ok m => exact congrArg Except.ok (answers_essentialTags r tags m)

end Selection

end TaggedOptions
