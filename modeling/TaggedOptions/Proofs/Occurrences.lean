import Mathlib
import TaggedOptions.Proofs.GivenDefaults

/-! # Storing occurrences

An occurrence is an argument with all the values that it gets at one place.  Storing it looks at
nothing but what is there under the id of its argument, and changes nothing else; so what is found
under an id, after any occurrences, is decided by those under this id.
-/

namespace TaggedOptions

structure Occurrence where
  argument : Argument
  raws : List String

namespace Occurrence

def storeAll (s : Surroundings) : Matches → List Occurrence → Except Interruption Matches
  | m, [] => .ok m
  | m, o :: os =>
    match store s m o.argument o.raws with
    | .error e => .error e
    | .ok m => storeAll s m os

def under (id : String) (os : List Occurrence) : List Occurrence :=
  os.filter fun o => o.argument.id = id

end Occurrence

/-! ## Occurrences under different ids -/

section

variable {s : Surroundings} {m m' n : Matches} {a : Argument} {raws : List String} {id : String}
  {os : List Occurrence}

theorem store_get?_of_ne (h : store s m a raws = .ok n) (other : a.id ≠ id) :
    n.get? id = m.get? id := by
  obtain ⟨values, rfl, _⟩ := store_ok h
  rw [Matches.get?_append, if_neg other]

theorem store_congr (same : m.get? a.id = m'.get? a.id) (h : store s m a raws = .ok n) :
    ∃ n', store s m' a raws = .ok n' ∧ n'.get? a.id = n.get? a.id := by
  -- a repetition is noticed by `has`, and all else is read from `raws` alone
  have has := Matches.has_eq_of_get?_eq same
  have appended (values : List Value) :
      (m'.append a.id values).get? a.id = (m.append a.id values).get? a.id := by
    rw [Matches.get?_append, Matches.get?_append, same]
  unfold store at h ⊢
  rw [← has]
  split at h
  · split at h
    · cases h
    next fresh =>
      cases h
      simpa [fresh] using appended _
  · split at h
    · cases h
    · split at h
      · cases h
      next fresh =>
        split at h
        · cases h
        next read =>
          cases h
          simpa [fresh, read] using appended _
  · split at h
    · cases h
    · split at h
      · cases h
      next read =>
        cases h
        simpa [read] using appended _
  · cases h
  · cases h

namespace Occurrence

theorem storeAll_cons_eq_ok_iff {o : Occurrence} :
    storeAll s m (o :: os) = .ok n ↔
      ∃ next, store s m o.argument o.raws = .ok next ∧ storeAll s next os = .ok n := by
  rw [storeAll]
  cases store s m o.argument o.raws <;> simp

theorem exists_store_of_mem (h : storeAll s m os = .ok n) {o : Occurrence} (member : o ∈ os) :
    ∃ before behind, store s before o.argument o.raws = .ok behind := by
  induction os generalizing m with
  | nil => cases member
  | cons first os ih =>
    obtain ⟨next, stored, later⟩ := storeAll_cons_eq_ok_iff.mp h
    rcases List.mem_cons.mp member with rfl | behind
    · exact ⟨m, next, stored⟩
    · exact ih later behind

theorem under_cons_self (o : Occurrence) (os : List Occurrence) :
    under o.argument.id (o :: os) = o :: under o.argument.id os := by simp [under]

theorem under_cons_of_ne {o : Occurrence} (other : o.argument.id ≠ id) (os : List Occurrence) :
    under id (o :: os) = under id os := by simp [under, other]

@[simp] theorem under_append (os os' : List Occurrence) :
    under id (os ++ os') = under id os ++ under id os' := by simp [under]

@[simp] theorem under_under : under id (under id os) = under id os := by simp [under]

/-- What is found under an id in the end comes from the occurrences under this id. -/
theorem storeAll_under (same : m.get? id = m'.get? id) (h : storeAll s m os = .ok n) :
    ∃ n', storeAll s m' (under id os) = .ok n' ∧ n'.get? id = n.get? id := by
  induction os generalizing m m' with
  | nil =>
    cases h
    exact ⟨m', rfl, same.symm⟩
  | cons o os ih =>
    obtain ⟨next, stored, later⟩ := storeAll_cons_eq_ok_iff.mp h
    by_cases own : o.argument.id = id
    · subst own
      obtain ⟨next', stored', sameNext⟩ := store_congr same stored
      obtain ⟨n', ends, found⟩ := ih sameNext.symm later
      rw [under_cons_self]
      exact ⟨n', storeAll_cons_eq_ok_iff.mpr ⟨next', stored', ends⟩, found⟩
    · rw [under_cons_of_ne own]
      exact ih ((store_get?_of_ne stored own).trans same) later

/-- Occurrences can be stored if those under each id can be. -/
theorem exists_storeAll (each : ∀ id, ∃ n, storeAll s m (under id os) = .ok n) :
    ∃ n, storeAll s m os = .ok n := by
  induction os generalizing m with
  | nil => exact ⟨m, rfl⟩
  | cons o os ih =>
    obtain ⟨n, own⟩ := each o.argument.id
    rw [under_cons_self] at own
    obtain ⟨next, stored, later⟩ := storeAll_cons_eq_ok_iff.mp own
    have rest : ∃ n, storeAll s next os = .ok n := by
      refine ih fun id => ?_
      by_cases other : o.argument.id = id
      · subst other
        exact ⟨n, later⟩
      · obtain ⟨n', ends⟩ := each id
        rw [under_cons_of_ne other] at ends
        obtain ⟨final, again, _⟩ := storeAll_under (store_get?_of_ne stored other).symm ends
        rw [under_under] at again
        exact ⟨final, again⟩
    obtain ⟨final, ends⟩ := rest
    exact ⟨final, storeAll_cons_eq_ok_iff.mpr ⟨next, stored, ends⟩⟩

/-- Other occurrences under one id change what is found under this id only. -/
theorem storeAll_of_under_eq {os' : List Occurrence} (h : storeAll s m os = .ok n)
    (others : ∀ other, other ≠ id → under other os' = under other os)
    (own : ∃ n', storeAll s m (under id os') = .ok n') :
    ∃ n', storeAll s m os' = .ok n' ∧ ∀ other, other ≠ id → n'.get? other = n.get? other := by
  have start (other : String) : m.get? other = m.get? other := rfl
  obtain ⟨n', stored⟩ : ∃ n', storeAll s m os' = .ok n' := by
    refine exists_storeAll fun other => ?_
    by_cases here : other = id
    · subst here
      exact own
    · obtain ⟨final, ends, _⟩ := storeAll_under (start other) h
      exact ⟨final, others other here ▸ ends⟩
  refine ⟨n', stored, fun other different => ?_⟩
  obtain ⟨final, ends, found⟩ := storeAll_under (start other) h
  obtain ⟨final', ends', found'⟩ := storeAll_under (start other) stored
  rw [others other different, ends] at ends'
  cases ends'
  rw [← found, ← found']

end Occurrence

end

end TaggedOptions
