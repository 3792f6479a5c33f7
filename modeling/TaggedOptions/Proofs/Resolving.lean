import Mathlib
import TaggedOptions.Place.Resolve
import TaggedOptions.Proofs.RealPlaces

/-! # Resolving a path again

The place that a path means is taken apart and resolved once more.  It stays what it is as long as no
link has come to stand on the way to it.  That happens only where a step up leads from names that do
not exist back to one that does.
-/

namespace TaggedOptions

namespace FileTree

/-- No link that leads somewhere stands on the way to the place. -/
def Settled (t : FileTree) (p : Place) : Prop :=
  ∀ q, q <+: p → t.isLink q = true → t.realPath? q = none

section
variable {t : FileTree} {p : Place}

theorem Settled.of_prefix {q : Place} (settled : t.Settled p) (below : q <+: p) : t.Settled q :=
  fun first further => settled first (further.trans below)

theorem Real.settled (real : t.Real p) : t.Settled p := by
  intro q below link
  rw [(real.of_prefix below).not_link] at link
  cases link

theorem Settled.entry (settled : t.Settled p) {name : String}
    (missing : t.realPath? (p ++ [name]) = none) : t.Settled (p ++ [name]) := by
  intro q below link
  rcases List.prefix_concat_iff.mp below with rfl | further
  · exact missing
  · exact settled q further link

/-- A settled place that can be followed leads where it says. -/
theorem Settled.eq_of_realPath? (settled : t.Settled p) (plain : p.Plain) {r : Place}
    (found : t.realPath? p = some r) : r = p := by
  induction p using List.reverseRecOn generalizing r with
  | nil =>
    rw [Real.root.realPath?] at found
    cases found
    rfl
  | append_singleton p name ih =>
    have below := List.prefix_append p [name]
    have abovePlain := plain.left
    obtain ⟨middle, reached⟩ := realPath?_prefix below found
    have above := realPath?_real abovePlain reached
    rw [ih (settled.of_prefix below) abovePlain reached] at above
    refine above.realPath?_entry found ?_
    by_contra link
    rw [settled _ List.prefix_rfl (by simpa using link)] at found
    cases found

end

end FileTree

namespace Resolution

variable {t : FileTree} {r : Resolution}

/-! ## What a resolution keeps -/

/-- What has been reached is settled, and it counts as on disk exactly if it can be followed. -/
structure Sound (t : FileTree) (r : Resolution) : Prop where
  plain : r.place.Plain
  settled : t.Settled r.place
  onDisk : r.onDisk = (t.realPath? r.place).isSome

theorem Sound.of_real {p : Place} (real : t.Real p) : Sound t ⟨p, true⟩ :=
  ⟨real.plain, real.settled, by simp [real.realPath?]⟩

theorem Sound.real (sound : Sound t r) (onDisk : r.onDisk = true) : t.Real r.place := by
  rw [sound.onDisk] at onDisk
  obtain ⟨p, found⟩ := Option.isSome_iff_exists.mp onDisk
  have real := FileTree.realPath?_real sound.plain found
  rwa [sound.settled.eq_of_realPath? sound.plain found] at real

theorem start_sound (t : FileTree) : Sound t start := .of_real .root

theorem Sound.missing_below (sound : Sound t r) (offDisk : r.onDisk = false) (name : String) :
    t.realPath? (r.place ++ [name]) = none := by
  by_contra present
  obtain ⟨p, found⟩ := Option.ne_none_iff_exists'.mp present
  obtain ⟨middle, reached⟩ := FileTree.realPath?_prefix (List.prefix_append _ _) found
  have none := sound.onDisk
  simp [offDisk, reached] at none

theorem Sound.down (sound : Sound t r) {name : String} (plain : PlainName name) :
    Sound t (r.step t.realPath? (.down name)) := by
  have further := sound.plain.append_singleton plain
  have literal (missing : t.realPath? (r.place ++ [name]) = none) :
      Sound t ⟨r.place ++ [name], false⟩ :=
    ⟨further, sound.settled.entry missing, by simp [missing]⟩
  unfold step
  dsimp only
  split
  next =>
    split
    next real found => exact .of_real (FileTree.realPath?_real further found)
    next missing => exact literal missing
  next offDisk => exact literal (sound.missing_below (by simpa using offDisk) name)

theorem Sound.step (sound : Sound t r) {s : Step} (plain : ∀ name, s = .down name → PlainName name)
    (reached : s = .up → r.onDisk = true) : Sound t (r.step t.realPath? s) := by
  cases s with
  | stay => exact sound
  | up =>
    -- on disk the parent is real; off disk it could be the place of a link that was never looked at
    have onDisk := reached rfl
    have parent := (sound.real onDisk).dropLast
    rw [Resolution.step, onDisk]
    exact .of_real parent
  | down name => exact sound.down (plain name rfl)

/-- A resolution stays sound as long as it goes up only where it has not left the disk. -/
theorem Sound.run (sound : Sound t r) {route : List Step} (plain : PlainRoute route)
    (ups : ∀ before after, route = before ++ .up :: after →
      (r.run t.realPath? before).onDisk = true) : Sound t (r.run t.realPath? route) := by
  induction route generalizing r with
  | nil => exact sound
  | cons s rest ih =>
    refine ih (sound.step ?_ ?_) plain.tail ?_
    · rintro name rfl
      exact plain name List.mem_cons_self
    · rintro rfl
      exact ups [] rest rfl
    · intro before after split
      exact ups (s :: before) after (by rw [split, List.cons_append])

/-- A step keeps the names plain if those of real places are. -/
theorem step_plain {real? : Place → Option Place}
    (leads : ∀ {p real : Place}, p.Plain → real? p = some real → real.Plain)
    (reached : r.place.Plain) {s : Step} (plain : ∀ name, s = .down name → PlainName name) :
    (r.step real? s).place.Plain := by
  cases s with
  | stay => exact reached
  | up => exact reached.dropLast
  | down name =>
    have further := reached.append_singleton (plain name rfl)
    unfold step
    dsimp only
    split
    · split
      next real found => exact leads further found
      · exact further
    · exact further

theorem run_plain {real? : Place → Option Place}
    (leads : ∀ {p real : Place}, p.Plain → real? p = some real → real.Plain)
    (reached : r.place.Plain) {route : List Step} (plain : PlainRoute route) :
    (r.run real? route).place.Plain := by
  induction route generalizing r with
  | nil => exact reached
  | cons s rest ih =>
    refine ih (step_plain leads reached ?_) plain.tail
    rintro name rfl
    exact plain name List.mem_cons_self

/-! ## Taking the way to a place -/

theorem run_down_sound {p : Place} (plain : p.Plain) :
    Sound t (start.run t.realPath? (p.map .down)) := by
  refine (start_sound t).run (Place.plainRoute_map_down plain) ?_
  intro before after split
  have up : Step.up ∈ p.map .down := by simp [split]
  simp at up

theorem run_down_of_settled {p : Place} (plain : p.Plain) (settled : t.Settled p) :
    (start.run t.realPath? (p.map .down)).place = p := by
  induction p using List.reverseRecOn with
  | nil => rfl
  | append_singleton p name ih =>
    have abovePlain := plain.left
    have reached := ih abovePlain (settled.of_prefix (List.prefix_append p [name]))
    rw [List.map_append, run, List.foldl_append]
    change ((start.run t.realPath? (p.map .down)).step t.realPath? (.down name)).place = p ++ [name]
    rw [step, reached]
    split
    · split
      next real found => exact settled.eq_of_realPath? plain found
      · rfl
    · rfl

theorem run_down_eq_iff {p : Place} (plain : p.Plain) :
    (start.run t.realPath? (p.map .down)).place = p ↔ t.Settled p := by
  constructor
  · intro same
    have settled := (run_down_sound (t := t) plain).settled
    rwa [same] at settled
  · exact run_down_of_settled plain

end Resolution

namespace Surroundings

variable {t : FileTree} {workingDirectory p : Place}

structure Plain (s : Surroundings) : Prop where
  home : s.workingDirectory.Plain
  leads : ∀ {p real : Place}, p.Plain → s.realPath? p = some real → real.Plain

theorem plain_surroundings (home : workingDirectory.Plain) :
    (t.surroundings workingDirectory).Plain :=
  ⟨home, fun plain found => (FileTree.realPath?_real plain found).plain⟩

theorem Plain.route {s : Surroundings} (plain : s.Plain) (path : String) :
    PlainRoute (s.route path) := by
  refine PlainRoute.append ?_ (Path.plainRoute_steps path)
  split
  · intro name member
    cases member
  · exact Place.plainRoute_map_down plain.home

theorem Plain.place {s : Surroundings} (plain : s.Plain) (path : String) : (s.place path).Plain := by
  refine Resolution.run_plain plain.leads ?_ (plain.route path)
  intro name member
  cases member

theorem route_plain (plain : workingDirectory.Plain) (path : String) :
    PlainRoute ((t.surroundings workingDirectory).route path) :=
  (plain_surroundings plain).route path

theorem place_plain (plain : workingDirectory.Plain) (path : String) :
    ((t.surroundings workingDirectory).place path).Plain :=
  (plain_surroundings plain).place path

theorem place_toText (plain : p.Plain) : (t.surroundings workingDirectory).place p.toText =
    (Resolution.start.run t.realPath? (p.map .down)).place := by
  rw [place, route, if_pos p.isAbsolute_toText, Place.steps_toText plain]
  rfl

theorem absolute?_toText (s : Surroundings) (p : Place) :
    s.absolute? p.toText = some (s.place p.toText).toText := by
  rw [absolute?, if_neg p.toText_ne_empty]

theorem absolute?_toText_eq_iff (directory : workingDirectory.Plain) (plain : p.Plain) :
    (t.surroundings workingDirectory).absolute? p.toText = some p.toText ↔ t.Settled p := by
  rw [absolute?_toText, Option.some_inj, Place.toText_injective (place_plain directory _) plain,
    place_toText plain, Resolution.run_down_eq_iff plain]

end Surroundings

/-- Resolving a resolved path changes nothing exactly if no link that leads somewhere stands on the
way to it.  There is none if the path goes up only where it has not left the disk.  What a second
resolution gives is final. -/
theorem FileTree.resolved_again_eq_iff (t : FileTree) {workingDirectory : Place}
    (plain : workingDirectory.Plain) {path : String} (nonempty : path ≠ "") :
    let s := t.surroundings workingDirectory
    ∃ resolved again, s.absolute? path = some resolved ∧ s.absolute? resolved = some again ∧
      (again = resolved ↔ t.Settled (s.place path)) ∧
      ((∀ before after, s.route path = before ++ .up :: after →
        (Resolution.start.run s.realPath? before).onDisk = true) → again = resolved) ∧
      s.absolute? again = some again := by
  intro s
  have reached : (s.place path).Plain := Surroundings.place_plain plain path
  have again : s.absolute? (s.place path).toText = some _ := s.absolute?_toText _
  have same : s.absolute? (s.place path).toText = some (s.place path).toText ↔ _ :=
    Surroundings.absolute?_toText_eq_iff plain reached
  rw [again, Option.some_inj] at same
  refine ⟨_, _, if_neg nonempty, again, same, ?_, ?_⟩
  · intro ups
    have sound : Resolution.Sound t (Resolution.start.run s.realPath? (s.route path)) :=
      (Resolution.start_sound t).run (Surroundings.route_plain plain path) ups
    exact same.mpr sound.settled
  · refine (Surroundings.absolute?_toText_eq_iff plain (Surroundings.place_plain plain _)).mpr ?_
    rw [Surroundings.place_toText reached]
    exact (Resolution.run_down_sound reached).settled

def FileTree.linked : FileTree :=
  ((bare.put [] "w" .directory).put ["w"] "dir" .directory).put ["w"] "link" (.link "dir")

theorem FileTree.linked_real : linked.Real ["w"] :=
  .entry .root ⟨by decide +kernel, by decide +kernel, by decide +kernel, by decide +kernel⟩
    (by decide +kernel)

theorem FileTree.resolved_again_eq_link_missing :
    let s := linked.surroundings ["w"]
    s.absolute? "link/../dir/missing" = some "/w/dir/missing" ∧
      s.absolute? "/w/dir/missing" = some "/w/dir/missing" := by
  intro s
  have directory : Place.Plain ["w"] := by decide
  have first : s.absolute? "link/../dir/missing" = some "/w/dir/missing" := by decide +kernel
  have route : s.route "link/../dir/missing" =
    [.down "w", .down "link", .up, .down "dir", .down "missing"] := by decide +kernel
  obtain ⟨resolved, again, once, twice, -, upsOnDisk, -⟩ :=
    linked.resolved_again_eq_iff directory (show "link/../dir/missing" ≠ "" by decide)
  have same : again = resolved := by
    refine upsOnDisk fun before after split => ?_
    change s.route _ = _ at split
    obtain ⟨rfl, -⟩ : before = [.down "w", .down "link"] ∧
        after = [.down "dir", .down "missing"] := by
      simpa [route, List.cons_eq_append_iff] using split
    decide +kernel
  cases once.symm.trans first
  exact ⟨first, same ▸ twice⟩

/-- The step up leads from a missing name back into the directory, where the link is then taken for a
plain name. -/
theorem FileTree.resolved_again_ne :
    let s := linked.surroundings ["w"]
    s.absolute? "missing/../link" = some "/w/link" ∧ s.absolute? "/w/link" = some "/w/dir" := by
  decide +kernel

end TaggedOptions
