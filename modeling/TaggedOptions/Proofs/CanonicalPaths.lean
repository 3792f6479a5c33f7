import Mathlib
import TaggedOptions.Proofs.Resolving

/-! # Paths below a path that exists

A path that exists leads to a real place with all its links followed in one go.  Resolving it takes
one name after the other and follows the links of each by themselves, yet it ends at the same place.
So a path below it can be resolved from there, and it makes no difference how the way there is
written.  Once a name on the way does not exist, what follows is taken as it is written.
-/

namespace TaggedOptions

namespace FileTree

/-- The real place that a path leads to from a working directory, if it exists. -/
def canonical? (t : FileTree) (workingDirectory : Place) (path : String) : Option Place :=
  if '\x00' ∈ path.toList ∨ path = "" then none
  else
    match t.follow maxLinks (linkRoute workingDirectory path).1
      (linkRoute workingDirectory path).2 with
    | .ok real => some real
    | .error _ => none

variable {t : FileTree} {workingDirectory real : Place} {path : String}

theorem canonical?_eq_some (canonical : t.canonical? workingDirectory path = some real) :
    '\x00' ∉ path.toList ∧ path ≠ "" ∧ t.follow maxLinks (linkRoute workingDirectory path).1
      (linkRoute workingDirectory path).2 = .ok real := by
  unfold canonical? at canonical
  split at canonical
  · cases canonical
  next valid =>
    rw [not_or] at valid
    split at canonical
    next followed =>
      cases canonical
      exact ⟨valid.1, valid.2, followed⟩
    · cases canonical

/-- What is read along a path is the file at the real place that it leads to. -/
theorem readText_of_canonical? (canonical : t.canonical? workingDirectory path = some real)
    (fits : path.utf8ByteSize ≤ maxPath) {text : String}
    (there : t.node? real = some (.file text.toUTF8)) :
    t.readText workingDirectory path = .ok text := by
  obtain ⟨noNull, named, followed⟩ := canonical?_eq_some canonical
  unfold readText
  have back : String.fromUTF8? text.toUTF8 = some text := dif_pos text.isValidUTF8
  rw [if_neg noNull, if_neg named, if_neg (Nat.not_lt.mpr fits)]
  simp only [followed, there, back]

theorem real_of_canonical? (home : t.Real workingDirectory)
    (canonical : t.canonical? workingDirectory path = some real) : t.Real real := by
  obtain ⟨start, plain⟩ := linkRoute_real home path
  exact follow_real maxLinks start plain (canonical?_eq_some canonical).2.2

/-- An entry that is a link has the real path that the link leads to, if no more links are followed
on the way than may be. -/
theorem Real.realPath?_link {here : Place} (start : t.Real here) {name target : String}
    (directory : t.isDirectory here = true) (fits : name.utf8ByteSize ≤ maxName)
    (there : t.node? (here ++ [name]) = some (.link target)) {links : Nat} (within : links < maxLinks)
    (ok : t.follow links (linkRoute here target).1 (linkRoute here target).2 = .ok real) :
    t.realPath? (here ++ [name]) = some real := by
  rw [realPath?_eq_some, List.map_append, start.follow]
  change t.walk (t.follow (maxLinks - 1)) here [.down name] = .ok real
  rw [walk_link directory fits there, List.append_nil]
  exact follow_mono (Nat.le_pred_of_lt within) ok

end FileTree

namespace Resolution

open FileTree

variable {t : FileTree} {workingDirectory here real : Place} {path : String}

theorem run_append (real? : Place → Option Place) (r : Resolution) (before after : List Step) :
    r.run real? (before ++ after) = (r.run real? before).run real? after := List.foldl_append

theorem run_cons_of_found {real? : Place → Option Place} {name : String} {middle : Place}
    (found : real? (here ++ [name]) = some middle) (rest : List Step) :
    run real? ⟨here, true⟩ (.down name :: rest) = run real? ⟨middle, true⟩ rest := by
  have first : step real? ⟨here, true⟩ (.down name) = ⟨middle, true⟩ := by simp [step, found]
  rw [run, List.foldl_cons, first]
  rfl

/-- A walk ends where resolving its steps one by one does, if this holds where a link is met. -/
theorem run_of_walk {jump : Place → List Step → Except FileFault Place} {route : List Step}
    (jumps : ∀ {here name target rest}, t.Real here → PlainRoute rest →
      t.isDirectory here = true → name.utf8ByteSize ≤ maxName →
      t.node? (here ++ [name]) = some (.link target) →
      jump (linkRoute here target).1 ((linkRoute here target).2 ++ rest) = .ok real →
      run t.realPath? ⟨here, true⟩ (.down name :: rest) = ⟨real, true⟩)
    (start : t.Real here) (plain : PlainRoute route) (ok : t.walk jump here route = .ok real) :
    run t.realPath? ⟨here, true⟩ route = ⟨real, true⟩ := by
  replace ok := arrives_of_walk ok
  induction ok with
  | there => rfl
  | stay _ _ ih => exact ih start plain.tail
  | up _ _ ih => exact ih start.dropLast plain.tail
  | link directory fits found jumped => exact jumps start plain.tail directory fits found jumped
  | entry found _ ih =>
    have further := Real.entry start found (plain _ List.mem_cons_self)
    rw [run_cons_of_found further.realPath?]
    exact ih further plain.tail

/-- Following a way from a real place ends where resolving its steps one by one does. -/
theorem run_of_follow {links : Nat} (within : links ≤ maxLinks) {route : List Step}
    (start : t.Real here) (plain : PlainRoute route) (ok : t.follow links here route = .ok real) :
    run t.realPath? ⟨here, true⟩ route = ⟨real, true⟩ := by
  induction links generalizing here route with
  | zero =>
    refine run_of_walk ?_ start plain ok
    intro _ _ _ _ _ _ _ _ _ refused
    cases refused
  | succ links ih =>
    refine run_of_walk ?_ start plain ok
    intro here name target rest start plain directory fits there ok
    obtain ⟨middle, led, later⟩ := follow_append links ok
    obtain ⟨startReal, targetPlain⟩ := linkRoute_real start target
    rw [run_cons_of_found (start.realPath?_link directory fits there within led)]
    exact ih (Nat.le_of_succ_le within) (follow_real links startReal targetPlain led) plain later

/-- That a directory is asked for in the end changes nothing. -/
theorem run_linkRoute (real? : Place → Option Place) (r : Resolution) :
    r.run real? (linkRoute here path).2 = r.run real? (Path.steps path) := by
  rw [linkRoute, run_append]
  cases Path.asksForDirectory path <;> rfl

theorem run_home (home : t.Real workingDirectory) :
    start.run t.realPath? (workingDirectory.map .down) = ⟨workingDirectory, true⟩ := by
  have sound := run_down_sound (t := t) home.plain
  have reached := run_down_of_settled home.plain home.settled
  have onDisk := sound.onDisk
  rw [reached, home.realPath?] at onDisk
  generalize start.run t.realPath? (workingDirectory.map .down) = r at reached onDisk
  obtain ⟨place, disk⟩ := r
  cases reached
  cases onDisk
  rfl

end Resolution

namespace Surroundings

open FileTree

variable {t : FileTree} {workingDirectory real : Place} {root path : String}

theorem route_join (s : Surroundings) (named : root ≠ "")
    (relative : Path.isAbsolute path = false) :
    s.route (Path.join root path) = s.route root ++ Path.steps path := by
  rw [route, route, Path.isAbsolute_join named relative, Path.steps_join root relative,
    List.append_assoc]

/-- Resolving a path that exists ends at the real place that it leads to. -/
theorem run_route_of_canonical? (home : t.Real workingDirectory)
    (canonical : t.canonical? workingDirectory root = some real) :
    Resolution.start.run t.realPath? ((t.surroundings workingDirectory).route root) =
      ⟨real, true⟩ := by
  obtain ⟨_, _, followed⟩ := canonical?_eq_some canonical
  obtain ⟨start, plain⟩ := linkRoute_real home root
  have reached := Resolution.run_of_follow le_rfl start plain followed
  rw [Resolution.run_linkRoute] at reached
  rw [route, Resolution.run_append, ← reached, linkRoute]
  split
  · rfl
  · exact congrArg (Resolution.run t.realPath? · _) (Resolution.run_home home)

theorem run_route_toText (there : t.Real real) :
    Resolution.start.run t.realPath? ((t.surroundings workingDirectory).route real.toText) =
      ⟨real, true⟩ := by
  rw [route, if_pos real.isAbsolute_toText, Place.steps_toText there.plain]
  exact Resolution.run_home there

theorem place_join_of_reached (s : Surroundings) (named : root ≠ "")
    (relative : Path.isAbsolute path = false)
    (reached : Resolution.start.run s.realPath? (s.route root) = ⟨real, true⟩) :
    s.place (Path.join root path) =
      (Resolution.run s.realPath? ⟨real, true⟩ (Path.steps path)).place := by
  rw [place, route_join s named relative, Resolution.run_append, reached]

/-- A relative path below one that exists means the same whether the latter is written as it is or
as the real place that it leads to. -/
theorem place_join_of_canonical? (home : t.Real workingDirectory)
    (canonical : t.canonical? workingDirectory root = some real)
    (relative : Path.isAbsolute path = false) :
    (t.surroundings workingDirectory).place (Path.join root path) =
      (t.surroundings workingDirectory).place (Path.join real.toText path) := by
  have named := (canonical?_eq_some canonical).2.1
  have there := real_of_canonical? home canonical
  rw [place_join_of_reached _ named relative (run_route_of_canonical? home canonical),
    place_join_of_reached _ real.toText_ne_empty relative (run_route_toText there)]

end Surroundings

/-! ## Behind a name that does not exist -/

/-- The place at the end of a way on which no name is looked up. -/
def Place.along (p : Place) (route : List Step) : Place :=
  route.foldl (fun here step =>
    match step with
    | .stay => here
    | .up => here.dropLast
    | .down name => here ++ [name]) p

namespace Resolution

variable {real? : Place → Option Place} {here : Place}

theorem run_offDisk (route : List Step) :
    run real? ⟨here, false⟩ route = ⟨here.along route, false⟩ := by
  induction route generalizing here with
  | nil => rfl
  | cons step rest ih => cases step <;> exact ih

/-- From the first name that does not exist on, the rest of the way is taken literally. -/
theorem run_cons_of_missing {name : String} (missing : real? (here ++ [name]) = none)
    (rest : List Step) :
    run real? ⟨here, true⟩ (.down name :: rest) = ⟨here.along (.down name :: rest), false⟩ := by
  have first : step real? ⟨here, true⟩ (.down name) = ⟨here ++ [name], false⟩ := by
    simp [step, missing]
  rw [run, List.foldl_cons, first]
  exact run_offDisk rest

end Resolution

namespace Surroundings

variable {t : FileTree} {workingDirectory real : Place}

/-- A path that exists is resolved to the real place that it leads to, and a path below it as if it
were written from there.  If the first name below it does not exist, the rest is taken literally from
the real place on. -/
theorem absolute?_join_of_canonical? (home : t.Real workingDirectory) {path : String}
    (canonical : t.canonical? workingDirectory path = some real) :
    let s := t.surroundings workingDirectory
    s.absolute? path = some real.toText ∧ s.absolute? (Path.join path "") = some real.toText ∧
      ∀ below, Path.isAbsolute below = false →
        ∃ resolved, s.absolute? (Path.join path below) = some resolved ∧
          s.absolute? (Path.join real.toText below) = some resolved ∧
          ∀ name rest, Path.steps below = .down name :: rest → t.realPath? (real ++ [name]) = none →
            resolved = (real.along (Path.steps below)).toText := by
  intro s
  have named := (FileTree.canonical?_eq_some canonical).2.1
  have reached := run_route_of_canonical? home canonical
  have resolves {text : String} (nonempty : text ≠ "") :
      s.absolute? text = some (s.place text).toText := if_neg nonempty
  have further {below : String} (relative : Path.isAbsolute below = false) :=
    place_join_of_reached s named relative reached
  refine ⟨?_, ?_, fun below relative => ⟨_, resolves (Path.join_ne_empty named below), ?_, ?_⟩⟩
  · rw [resolves named]
    exact congrArg (fun r => some r.place.toText) reached
  · rw [resolves (Path.join_ne_empty named ""), further rfl]
    rfl
  · rw [resolves (Path.join_ne_empty real.toText_ne_empty below),
      place_join_of_canonical? home canonical relative]
  · intro name rest first missing
    have literally : Resolution.run s.realPath? ⟨real, true⟩ (.down name :: rest) = _ :=
      Resolution.run_cons_of_missing missing rest
    rw [further relative, first, literally]

/-- A link to a directory, and below it a missing name from which the way goes up again: the link that
it comes back to is not followed any more. -/
theorem absolute?_join_of_canonical?_missing :
    let s := FileTree.linked.surroundings ["w"]
    s.absolute? "./link/" = some "/w/dir" ∧
      s.absolute? "link/gone/../../link" = some "/w/link" ∧
      s.absolute? "/w/dir/gone/../../link" = some "/w/link" := by
  intro s
  have home := FileTree.linked_real
  obtain ⟨whole, -, -⟩ := absolute?_join_of_canonical? home
    (show FileTree.linked.canonical? ["w"] "./link/" = some ["w", "dir"] by decide +kernel)
  obtain ⟨-, -, below⟩ := absolute?_join_of_canonical? home
    (show FileTree.linked.canonical? ["w"] "link" = some ["w", "dir"] by decide +kernel)
  obtain ⟨resolved, first, second, literally⟩ := below "gone/../../link" (by decide +kernel)
  have same : resolved = "/w/link" :=
    (literally "gone" [.up, .up, .down "link"] (by decide +kernel) (by decide +kernel)).trans
      (by decide +kernel)
  exact ⟨whole, same ▸ first, same ▸ second⟩

end Surroundings

end TaggedOptions
