import Mathlib
import TaggedOptions.Command.Answers
import TaggedOptions.Proofs.Filing

/-! # The answers of a selection

A selection names an entry once for each match, and its answers are collected over all of them.
Where entries are told apart by their serial numbers and by their destinations, repetitions change
nothing: the answers are those of the distinct entries, in order.
-/

namespace TaggedOptions

def Declaration.answer? (m : Matches) (d : Declaration) : Option Answer :=
  match m.first? d.dest with
  | none => none
  | some value => (d.directives.readBack? value).map (⟨d.dest, ·⟩)

theorem Entry.dest_of_answer? {m : Matches} {e : Entry} {a : Answer} (h : e.answer? m = some a) :
    a.dest = e.dest := by
  unfold answer? at h
  cases found : m.first? e.dest with
  | none => simp [found] at h
  | some value =>
    simp only [found, Option.map_eq_some_iff] at h
    obtain ⟨_, _, rfl⟩ := h
    rfl

/-! ## Distinct entries -/

theorem distinctEntries_append_singleton (es : List Entry) (e : Entry) :
    distinctEntries (es ++ [e]) =
      if (distinctEntries es).any e.same then distinctEntries es else distinctEntries es ++ [e] := by
  simp [distinctEntries, List.foldl_append]

theorem mem_of_mem_distinctEntries {es : List Entry} {e : Entry} (h : e ∈ distinctEntries es) :
    e ∈ es := by
  induction es using List.reverseRecOn with
  | nil => simp [distinctEntries] at h
  | append_singleton es last ih =>
    rw [distinctEntries_append_singleton] at h
    by_cases known : (distinctEntries es).any last.same = true
    · rw [if_pos known] at h
      exact List.mem_append_left _ (ih h)
    · rw [if_neg known] at h
      rcases List.mem_append.mp h with old | new
      · exact List.mem_append_left _ (ih old)
      · exact List.mem_append_right _ new

theorem SerialsTell.of_append {es more : List Entry} (h : SerialsTell (es ++ more)) :
    SerialsTell es :=
  fun a ha b hb => h a (List.mem_append_left _ ha) b (List.mem_append_left _ hb)

/-- Where serial numbers tell entries apart, every entry is among the distinct ones. -/
theorem SerialsTell.mem_distinctEntries {es : List Entry} (tells : SerialsTell es) {e : Entry}
    (h : e ∈ es) : e ∈ distinctEntries es := by
  induction es using List.reverseRecOn with
  | nil => simp at h
  | append_singleton es last ih =>
    rw [distinctEntries_append_singleton]
    by_cases known : (distinctEntries es).any last.same = true
    · rw [if_pos known]
      rcases List.mem_append.mp h with old | new
      · exact ih tells.of_append old
      · obtain ⟨twin, member, same⟩ := List.any_eq_true.mp known
        have twinMember := List.mem_append_left [last] (mem_of_mem_distinctEntries member)
        have : last = twin := tells last (by simp) twin twinMember (by simpa [Entry.same] using same)
        rwa [List.mem_singleton.mp new, this]
    · rw [if_neg known]
      rcases List.mem_append.mp h with old | new
      · exact List.mem_append_left _ (ih tells.of_append old)
      · exact List.mem_append_right _ new

/-! ## Collecting answers -/

/-- Collecting answers over all entries answers the distinct ones, in order. -/
theorem foldl_addAnswer (m : Matches) {es : List Entry} (tells : SerialsTell es)
    (apart : ∀ a ∈ es, ∀ b ∈ es, a.dest = b.dest → a = b) :
    es.foldl (addAnswer m) [] = (distinctEntries es).filterMap (·.answer? m) := by
  induction es using List.reverseRecOn with
  | nil => rfl
  | append_singleton es last ih =>
    have earlier {e : Entry} (h : e ∈ distinctEntries es) : e ∈ es ++ [last] :=
      List.mem_append_left _ (mem_of_mem_distinctEntries h)
    rw [List.foldl_append, List.foldl_cons, List.foldl_nil,
      ih tells.of_append fun a ha b hb =>
        apart a (List.mem_append_left _ ha) b (List.mem_append_left _ hb),
      distinctEntries_append_singleton]
    unfold addAnswer
    by_cases known : (distinctEntries es).any last.same = true
    · -- a repetition: either it is answered already, or it has no answer at all
      obtain ⟨twin, member, same⟩ := List.any_eq_true.mp known
      have repeated : last = twin :=
        tells last (by simp) twin (earlier member) (by simpa [Entry.same] using same)
      rw [if_pos known]
      cases answer : last.answer? m with
      | none => simp
      | some a =>
        have answered : a ∈ (distinctEntries es).filterMap (·.answer? m) :=
          List.mem_filterMap.mpr ⟨twin, member, repeated ▸ answer⟩
        rw [if_pos]
        exact List.any_eq_true.mpr ⟨a, answered, by simp [Entry.dest_of_answer? answer]⟩
    · -- a new entry: nothing is answered under its destination yet
      have unanswered : ¬ ((distinctEntries es).filterMap (·.answer? m)).any
          (·.dest = last.dest) = true := by
        intro answered
        obtain ⟨a, member, dest⟩ := List.any_eq_true.mp answered
        obtain ⟨e, known', answer⟩ := List.mem_filterMap.mp member
        have twin : e = last := apart e (earlier known') last (by simp)
          ((Entry.dest_of_answer? answer).symm.trans (by simpa using dest))
        exact known (List.any_eq_true.mpr ⟨e, known', by simp [twin, Entry.same]⟩)
      rw [if_neg known, if_neg unanswered, List.filterMap_append]
      cases answer : last.answer? m <;> simp [answer]

theorem Selection.matches?_eq_ok_iff {selection : Selection} {s : Surroundings} {name : String}
    {argv : List String} {m : Matches} :
    selection.matches? s name argv = .ok m ↔
      ∃ c, selection.command name = .ok c ∧ c.read s argv = .ok m := by
  unfold matches?
  cases selection.command name with
  | error e => simp
  | ok c => cases read : c.read s argv <;> simp [read]

/-- A parse answers exactly if the command can be assembled and the vector read. -/
theorem Selection.parse_eq_ok_iff {selection : Selection} {s : Surroundings} {name : String}
    {argv : List String} {answers : List Answer} :
    selection.parse s name argv = .ok answers ↔
      ∃ c m, selection.command name = .ok c ∧ c.read s argv = .ok m ∧
        selection.answers m = answers := by
  unfold parse matches?
  cases selection.command name with
  | error e => simp
  | ok c => cases read : c.read s argv <;> simp [read]

theorem Selection.parse_of_interruption {selection : Selection} {s : Surroundings} {name : String}
    {argv : List String} {c : Command} {stop : Interruption}
    (assembled : selection.command name = .ok c) (stopped : c.read s argv = .error stop) :
    selection.parse s name argv = .error (.ofInterruption c (Path.baseName name) stop) := by
  simp only [parse, matches?, assembled, stopped]

/-- The answers of a selection whose distinct entries have different destinations. -/
theorem Selection.answers_eq (m : Matches) {s : Selection} (tells : SerialsTell s.entries)
    (apart : (s.options.map (·.dest)).Nodup) :
    s.answers m = s.options.filterMap (·.answer? m) := by
  rw [← distinct_map_declaration] at apart ⊢
  rw [List.map_map] at apart
  rw [List.filterMap_map]
  refine foldl_addAnswer m tells fun a ha b hb same => ?_
  exact List.inj_on_of_nodup_map apart (tells.mem_distinctEntries ha) (tells.mem_distinctEntries hb)
    same

end TaggedOptions
