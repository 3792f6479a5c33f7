import Mathlib
import TaggedOptions.Place.FileTree
import TaggedOptions.Proofs.PlaceTexts

/-! # Real places

A place is real if the way to it enters directories only and it is no link itself.  Following a path
always ends at a real place, and the path to a real place ends where it says.
-/

namespace TaggedOptions

namespace FileTree

def isLink (t : FileTree) (place : Place) : Bool :=
  match t.node? place with
  | some (.link _) => true
  | _ => false

structure HasEntry (t : FileTree) (place : Place) (name : String) : Prop where
  directory : t.isDirectory place = true
  fits : name.utf8ByteSize ≤ maxName
  present : (t.node? (place ++ [name])).isSome
  noLink : t.isLink (place ++ [name]) = false

/-- The way to a place leads through directories and ends at an entry that is no link. -/
inductive Real (t : FileTree) : Place → Prop where
  | root : Real t []
  | entry {parent : Place} {name : String} (above : Real t parent)
      (there : t.HasEntry parent name) (plain : PlainName name) : Real t (parent ++ [name])

/-! ## One step of a walk -/

section
variable {t : FileTree} {jump : Place → List Step → Except FileFault Place}
variable {here r : Place} {name : String} {rest : List Step}

theorem HasEntry.walk (there : t.HasEntry here name) :
    t.walk jump here (.down name :: rest) = t.walk jump (here ++ [name]) rest := by
  have short : ¬ maxName < name.utf8ByteSize := Nat.not_lt.mpr there.fits
  obtain ⟨node, found⟩ := Option.isSome_iff_exists.mp there.present
  have noLink := there.noLink
  cases node with
  | link target => simp [isLink, found] at noLink
  | directory => simp [FileTree.walk, there.directory, short, found]
  | file content => simp [FileTree.walk, there.directory, short, found]

theorem walk_link {target : String} (directory : t.isDirectory here = true)
    (fits : name.utf8ByteSize ≤ maxName) (there : t.node? (here ++ [name]) = some (.link target)) :
    t.walk jump here (.down name :: rest) =
      jump (linkRoute here target).1 ((linkRoute here target).2 ++ rest) := by
  have short : ¬ maxName < name.utf8ByteSize := Nat.not_lt.mpr fits
  simp [FileTree.walk, directory, short, there]

theorem walk_down_ok (ok : t.walk jump here (.down name :: rest) = .ok r) :
    (∃ target, t.isDirectory here = true ∧ name.utf8ByteSize ≤ maxName ∧
      t.node? (here ++ [name]) = some (.link target)) ∨ t.HasEntry here name := by
  simp only [FileTree.walk] at ok
  split at ok
  next directory =>
    split at ok
    · cases ok
    next short =>
      have fits := Nat.not_lt.mp short
      cases found : t.node? (here ++ [name]) with
      | none => simp [found] at ok
      | some node =>
        cases node with
        | link target => exact .inl ⟨target, directory, fits, rfl⟩
        | directory => exact .inr ⟨directory, fits, by simp [found], by simp [isLink, found]⟩
        | file content => exact .inr ⟨directory, fits, by simp [found], by simp [isLink, found]⟩
  · cases ok

theorem walk_cons_ok {step : Step} (ok : t.walk jump here (step :: rest) = .ok r) :
    t.isDirectory here = true := by
  unfold walk at ok
  split at ok
  next directory => exact directory
  · cases ok

theorem walk_stay (directory : t.isDirectory here = true) :
    t.walk jump here (.stay :: rest) = t.walk jump here rest := by
  rw [FileTree.walk, if_pos directory]

theorem walk_up (directory : t.isDirectory here = true) :
    t.walk jump here (.up :: rest) = t.walk jump here.dropLast rest := by
  rw [FileTree.walk, if_pos directory]

/-- A walk that arrives: a step stays, goes up, meets a link that takes over, or goes down to an
entry that is none. -/
inductive Arrives (t : FileTree) (jump : Place → List Step → Except FileFault Place) (r : Place) :
    Place → List Step → Prop where
  | there : Arrives t jump r r []
  | stay {here : Place} {rest : List Step} (directory : t.isDirectory here = true)
      (further : Arrives t jump r here rest) : Arrives t jump r here (.stay :: rest)
  | up {here : Place} {rest : List Step} (directory : t.isDirectory here = true)
      (further : Arrives t jump r here.dropLast rest) : Arrives t jump r here (.up :: rest)
  | link {here : Place} {name target : String} {rest : List Step}
      (directory : t.isDirectory here = true) (fits : name.utf8ByteSize ≤ maxName)
      (found : t.node? (here ++ [name]) = some (.link target))
      (jumped : jump (linkRoute here target).1 ((linkRoute here target).2 ++ rest) = .ok r) :
      Arrives t jump r here (.down name :: rest)
  | entry {here : Place} {name : String} {rest : List Step} (found : t.HasEntry here name)
      (further : Arrives t jump r (here ++ [name]) rest) : Arrives t jump r here (.down name :: rest)

theorem arrives_of_walk {route : List Step} (ok : t.walk jump here route = .ok r) :
    Arrives t jump r here route := by
  induction route generalizing here with
  | nil =>
    cases ok
    exact .there
  | cons step rest ih =>
    have directory := walk_cons_ok ok
    cases step with
    | stay => exact .stay directory (ih (by rwa [walk_stay directory] at ok))
    | up => exact .up directory (ih (by rwa [walk_up directory] at ok))
    | down name =>
      rcases walk_down_ok ok with ⟨target, -, fits, found⟩ | found
      · exact .link directory fits found (by rwa [walk_link directory fits found] at ok)
      · exact .entry found (ih (by rwa [found.walk] at ok))

end

/-! ## The way to a real place -/

namespace Real

variable {t : FileTree} {p : Place}

theorem not_link (real : t.Real p) : t.isLink p = false := by
  cases real with
  | root => simp [isLink, t.root_directory]
  | entry above there plain => exact there.noLink

theorem of_prefix {q : Place} (real : t.Real p) (below : q <+: p) : t.Real q := by
  induction real with
  | root =>
    rw [List.prefix_nil.mp below]
    exact .root
  | entry above there plain ih =>
    rcases List.prefix_concat_iff.mp below with rfl | further
    · exact .entry above there plain
    · exact ih further

theorem dropLast (real : t.Real p) : t.Real p.dropLast :=
  real.of_prefix (List.dropLast_prefix p)

theorem plain (real : t.Real p) : p.Plain := by
  induction real with
  | root =>
    intro name member
    cases member
  | entry above there plain ih => exact ih.append_singleton plain

theorem walk (real : t.Real p) (jump : Place → List Step → Except FileFault Place)
    (rest : List Step) : t.walk jump [] (p.map .down ++ rest) = t.walk jump p rest := by
  induction real generalizing rest with
  | root => rfl
  | entry above there plain ih =>
    rw [List.map_append, List.append_assoc, ih]
    exact there.walk

end Real

/-! ## Where a way ends -/

section
variable {t : FileTree} {jump : Place → List Step → Except FileFault Place}
variable {here r : Place}

theorem linkRoute_real (real : t.Real here) (target : String) :
    t.Real (linkRoute here target).1 ∧ PlainRoute (linkRoute here target).2 := by
  constructor
  · dsimp only [linkRoute]
    split
    · exact .root
    · exact real
  · refine (Path.plainRoute_steps target).append ?_
    intro name slash
    split at slash <;> simp at slash

theorem walk_real (jumps : ∀ {start route r}, t.Real start → PlainRoute route →
      jump start route = .ok r → t.Real r)
    {route : List Step} (real : t.Real here) (plain : PlainRoute route)
    (ok : t.walk jump here route = .ok r) : t.Real r := by
  replace ok := arrives_of_walk ok
  induction ok with
  | there => exact real
  | stay _ _ ih => exact ih real plain.tail
  | up _ _ ih => exact ih real.dropLast plain.tail
  | link _ _ _ jumped =>
    -- the link's own route is put in front of the rest and starts at a real place again
    obtain ⟨startReal, targetPlain⟩ := linkRoute_real real _
    exact jumps startReal (targetPlain.append plain.tail) jumped
  | entry found _ ih => exact ih (.entry real found (plain _ List.mem_cons_self)) plain.tail

theorem follow_real (links : Nat) {route : List Step} (real : t.Real here)
    (plain : PlainRoute route) (ok : t.follow links here route = .ok r) : t.Real r := by
  induction links generalizing here route r with
  | zero =>
    refine walk_real ?_ real plain ok
    intro _ _ _ _ _ refused
    cases refused
  | succ links ih => exact walk_real ih real plain ok

/-- A way that leads somewhere still does so if more links can be followed. -/
theorem walk_mono {further : Place → List Step → Except FileFault Place} {route : List Step}
    (goes : ∀ {start route r}, jump start route = .ok r → further start route = .ok r)
    (ok : t.walk jump here route = .ok r) : t.walk further here route = .ok r := by
  replace ok := arrives_of_walk ok
  induction ok with
  | there => rfl
  | stay directory _ ih => rwa [walk_stay directory]
  | up directory _ ih => rwa [walk_up directory]
  | link directory fits found jumped =>
    rw [walk_link directory fits found]
    exact goes jumped
  | entry found _ ih => rwa [found.walk]

theorem follow_succ {links : Nat} {route : List Step} (ok : t.follow links here route = .ok r) :
    t.follow (links + 1) here route = .ok r := by
  induction links generalizing here route r with
  | zero =>
    refine walk_mono ?_ ok
    intro _ _ _ refused
    cases refused
  | succ links ih => exact walk_mono ih ok

theorem follow_mono {links more : Nat} (enough : links ≤ more) {route : List Step}
    (ok : t.follow links here route = .ok r) : t.follow more here route = .ok r := by
  induction enough with
  | refl => exact ok
  | step _ ih => exact follow_succ ih

/-- A way that leads somewhere leads there by way of the place where its first part ends. -/
theorem walk_append {before after : List Step}
    (jumps : ∀ {start route r}, jump start (route ++ after) = .ok r →
      ∃ middle, jump start route = .ok middle ∧ t.walk jump middle after = .ok r)
    (ok : t.walk jump here (before ++ after) = .ok r) :
    ∃ middle, t.walk jump here before = .ok middle ∧ t.walk jump middle after = .ok r := by
  induction before generalizing here with
  | nil => exact ⟨here, rfl, ok⟩
  | cons step rest ih =>
    rw [List.cons_append] at ok
    have directory := walk_cons_ok ok
    cases step with
    | stay =>
      rw [walk_stay directory] at ok ⊢
      exact ih ok
    | up =>
      rw [walk_up directory] at ok ⊢
      exact ih ok
    | down name =>
      rcases walk_down_ok ok with ⟨target, -, fits, there⟩ | there
      · rw [walk_link directory fits there] at ok ⊢
        exact jumps (by rwa [List.append_assoc])
      · rw [there.walk] at ok ⊢
        exact ih ok

theorem follow_append (links : Nat) {before after : List Step}
    (ok : t.follow links here (before ++ after) = .ok r) :
    ∃ middle, t.follow links here before = .ok middle ∧ t.follow links middle after = .ok r := by
  induction links generalizing here before r with
  | zero =>
    refine walk_append ?_ ok
    intro _ _ _ refused
    cases refused
  | succ links ih =>
    refine walk_append ?_ ok
    intro _ _ _ ok
    obtain ⟨middle, first, second⟩ := ih ok
    exact ⟨middle, first, follow_succ second⟩

end

/-! ## The real path of a place -/

section
variable {t : FileTree} {p r : Place}

theorem realPath?_eq_some :
    t.realPath? p = some r ↔ t.follow maxLinks [] (p.map .down) = .ok r := by
  unfold realPath?
  split <;> simp_all

theorem realPath?_real (plain : p.Plain) (found : t.realPath? p = some r) : t.Real r :=
  follow_real maxLinks .root (Place.plainRoute_map_down plain) (realPath?_eq_some.mp found)

theorem realPath?_prefix {q : Place} (below : q <+: p) (found : t.realPath? p = some r) :
    ∃ middle, t.realPath? q = some middle := by
  obtain ⟨rest, rfl⟩ := below
  rw [realPath?_eq_some, List.map_append] at found
  obtain ⟨middle, ok, -⟩ := follow_append maxLinks found
  exact ⟨middle, realPath?_eq_some.mpr ok⟩

theorem Real.follow (real : t.Real p) (links : Nat) (rest : List Step) :
    t.follow links [] (p.map .down ++ rest) = t.follow links p rest := by
  cases links with
  | zero => exact real.walk _ rest
  | succ links => exact real.walk _ rest

theorem Real.realPath? (real : t.Real p) : t.realPath? p = some p := by
  have way := real.follow maxLinks []
  rw [List.append_nil] at way
  rw [realPath?_eq_some, way]
  rfl

/-- An entry of a real place means itself, unless it is a link. -/
theorem Real.realPath?_entry (real : t.Real p) {name : String}
    (found : t.realPath? (p ++ [name]) = some r) (noLink : t.isLink (p ++ [name]) = false) :
    r = p ++ [name] := by
  rw [realPath?_eq_some, List.map_append, real.follow] at found
  change t.walk _ p [.down name] = .ok r at found
  rcases walk_down_ok found with ⟨target, -, -, there⟩ | there
  · simp [isLink, there] at noLink
  · rw [there.walk] at found
    cases found
    rfl

end

end FileTree

end TaggedOptions
