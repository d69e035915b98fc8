/-
**What lies below a directory.**

A path without `..` that is taken from a directory leads downwards only, so what it leads to depends on
what lies below the directory and on nothing else, not even on where the directory is.  And it does
depend on that: where it leads to nothing, one file more would have it lead elsewhere.

Main definitions:

* `FileTree.Roots` — the place that the path of a directory leads to;
* `FileTree.AgreeBelow` — two trees have the same below a directory.

Main results:

* `FileTree.walk_below` — segments without `..` are followed alike where the same lies below;
* `FileTree.AgreeBelow.read_join` — **what is read below a directory depends on what lies there;**
* `FileTree.exists_missing` — what leads to nothing misses one place.
-/

import Shaderworks.Proofs.Files.Frame

set_option autoImplicit false

namespace Shaderworks.FileTree

variable {t u : FileTree} {root path : Path} {place place' here : Place} {segment : String}
  {segments : List String}

/-- The path of a directory leads to a place when something is asked for in it.  The empty path leads
to where every path starts. -/
structure Roots (t : FileTree) (root : Path) (place : Place) : Prop where
  /-- The segments lead there. -/
  walk : t.walk [] (Path.frontSegments root) = .ok place
  /-- A directory stands there. -/
  directory : t.entryAt place = some .directory

/-- A path where a directory is found leads to it. -/
theorem roots_of_find (h : t.find root = .ok (place, .directory)) : t.Roots root place :=
  ⟨walk_frontSegments h, (find_eq_ok h).2.2⟩

/-- Two trees have the same below a directory, and anything elsewhere. -/
def AgreeBelow (t u : FileTree) (root : Path) : Prop :=
  ∃ place place', t.Roots root place ∧ u.Roots root place' ∧
    ∀ below, t.entryAt (place ++ below) = u.entryAt (place' ++ below)

/-- A path that leads to a directory leads there whatever the files are. -/
theorem Roots.congr (h : t.Roots root place) (hdirs : SameDirectories t u) : u.Roots root place :=
  ⟨walk_congr hdirs h.walk h.directory, (hdirs place).1 h.directory⟩

/-- A file elsewhere changes nothing below a directory. -/
theorem agreeBelow_set (h : t.Roots root place) {other : Place} (hother : ¬ place <+: other)
    (hfile : t.entryAt other ≠ some .directory) (content : Bytes) :
    AgreeBelow t (t.set other (.file content)) root := by
  have hnil : other ≠ [] := fun heq => hfile (heq ▸ entryAt_root t)
  refine ⟨place, place, h, h.congr (sameDirectories_set hfile content), fun below => ?_⟩
  rw [entryAt_set hnil, if_neg]
  exact fun heq => hother (heq ▸ List.prefix_append place below)

/-! ### Following segments downwards -/

/-- A segment other than `..` is followed alike where the same lies below. -/
theorem step_below (hsame : ∀ below, t.entryAt (place ++ below) = u.entryAt (place' ++ below))
    (here : Place) (hup : segment ≠ "..") :
    ∃ r : Except FileFault Place, t.step (place ++ here) segment = r.map (place ++ ·) ∧
      u.step (place' ++ here) segment = r.map (place' ++ ·) := by
  unfold step
  rw [← hsame here, List.append_assoc, List.append_assoc, ← hsame (here ++ [segment])]
  cases t.entryAt (place ++ here) with
  | none => exact ⟨.error .notFound, rfl, rfl⟩
  | some entry =>
      cases entry with
      | file content => exact ⟨.error .notDirectory, rfl, rfl⟩
      | directory =>
          dsimp only
          split_ifs
          · exact ⟨.ok here, rfl, rfl⟩
          · exact ⟨.error .tooLong, rfl, rfl⟩
          · cases t.entryAt (place ++ (here ++ [segment])) with
            | none => exact ⟨.error .notFound, rfl, rfl⟩
            | some entry => exact ⟨.ok (here ++ [segment]), rfl, rfl⟩

/-- **Segments without `..` are followed alike** where the same lies below. -/
theorem walk_below (hsame : ∀ below, t.entryAt (place ++ below) = u.entryAt (place' ++ below))
    (here : Place) (hup : ".." ∉ segments) :
    ∃ r : Except FileFault Place, t.walk (place ++ here) segments = r.map (place ++ ·) ∧
      u.walk (place' ++ here) segments = r.map (place' ++ ·) := by
  induction segments generalizing here with
  | nil => exact ⟨.ok here, rfl, rfl⟩
  | cons segment rest ih =>
      obtain ⟨hsegment, hrest⟩ := List.ne_and_not_mem_of_not_mem_cons hup
      obtain ⟨r, ht, hu⟩ := step_below hsame here hsegment.symm
      rw [walk, walk, ht, hu]
      cases r with
      | error fault => exact ⟨.error fault, rfl, rfl⟩
      | ok next => exact ih next hrest

/-- A path is followed from the directory that it is taken from. -/
theorem Roots.locate_join (h : t.Roots root place) (hrelative : path.isAbsolute = false) :
    t.locate (Path.join root path) =
      match pathFault? (Path.join root path) with
      | some fault => .error fault
      | none => t.walk place path.segments := by
  rw [locate, Path.segments_join_of_relative hrelative]
  cases pathFault? (Path.join root path) with
  | some fault => rfl
  | none =>
      change t.walk [] (Path.frontSegments root ++ path.segments) = t.walk place path.segments
      rw [walk_append, h.walk]

/-! ### Reading below a directory -/

/-- **What is read below a directory depends on what lies there.** -/
theorem AgreeBelow.read_join (h : AgreeBelow t u root) (hstays : path.staysBelow = true) :
    t.read (Path.join root path) = u.read (Path.join root path) := by
  obtain ⟨place, place', hroot, hroot', hsame⟩ := h
  obtain ⟨hrelative, hup⟩ := Path.staysBelow_iff.1 hstays
  obtain ⟨r, ht, hu⟩ := walk_below hsame [] hup
  rw [List.append_nil] at ht hu
  unfold read find
  rw [hroot.locate_join hrelative, hroot'.locate_join hrelative, ht, hu]
  cases pathFault? (Path.join root path) with
  | some fault => rfl
  | none =>
      cases r with
      | error fault => rfl
      | ok below =>
          simp only [Except.map, ← hsame below]
          cases t.entryAt (place ++ below) with
          | none => rfl
          | some entry => cases entry <;> rfl

theorem AgreeBelow.readText_join (h : AgreeBelow t u root) (hstays : path.staysBelow = true) :
    t.readText (Path.join root path) = u.readText (Path.join root path) := by
  rw [readText, readText, h.read_join hstays]

/-! ### One file more -/

/-- A path below a directory, at which nothing is, leads to nothing. -/
theorem Roots.walk_of_notFound (h : t.Roots root place) (hrelative : path.isAbsolute = false)
    (hne : Path.join root path ≠ "") (hread : t.read (Path.join root path) = .error .notFound) :
    pathFault? (Path.join root path) = none ∧ t.walk place path.segments = .error .notFound := by
  unfold read find at hread
  rw [h.locate_join hrelative] at hread
  cases hfault : pathFault? (Path.join root path) with
  | some fault =>
      -- Only the empty path counts as one at which nothing is.
      simp only [hfault, Except.error.injEq] at hread
      unfold pathFault? at hfault
      rw [if_neg (by simpa using hne)] at hfault
      split_ifs at hfault <;> cases hfault <;> cases hread
  | none =>
      simp only [hfault] at hread
      cases hwalk : t.walk place path.segments with
      | error fault =>
          simp only [hwalk, Except.error.injEq] at hread
          exact ⟨rfl, congrArg _ hread⟩
      | ok reached =>
          -- What is walked to from a directory stands there.
          have hgrounded := ((grounded_root t).walk h.walk).walk hwalk
          obtain ⟨entry, hentry⟩ := Option.isSome_iff_exists.1 hgrounded.1
          simp only [hwalk, hentry] at hread
          cases entry <;> cases hread

/-- From a file no segment is followed. -/
theorem walk_of_file {content : Bytes} (h : t.entryAt here = some (.file content))
    (segments : List String) :
    t.walk here segments = .ok here ∨ t.walk here segments = .error .notDirectory := by
  cases segments with
  | nil => exact .inl rfl
  | cons segment rest =>
      refine .inr ?_
      simp only [walk, step, h]

/-- A segment that leads to nothing would lead to what stood there. -/
theorem step_of_notFound (hdir : t.entryAt here = some .directory)
    (h : t.step here segment = .error .notFound) :
    t.entryAt (here ++ [segment]) = none ∧ ∀ content,
      (t.set (here ++ [segment]) (.file content)).step here segment = .ok (here ++ [segment]) := by
  have hnil : here ++ [segment] ≠ [] := by simp
  have hne : here ≠ here ++ [segment] := by simp
  unfold step at h ⊢
  simp only [entryAt_set hnil, if_neg hne, hdir, if_pos] at h ⊢
  split_ifs at h ⊢ with hstay hup hlong
  · cases h
  · cases hentry : t.entryAt (here ++ [segment]) with
    | some entry => rw [hentry] at h; cases h
    | none => exact ⟨rfl, fun _ => rfl⟩

/-- **What leads to nothing misses one place.**  With a file there, the segments lead to it or ask it
for more. -/
theorem exists_missing (hup : ".." ∉ segments) (hdir : t.entryAt here = some .directory)
    (h : t.walk here segments = .error .notFound) :
    ∃ below, t.entryAt (here ++ below) = none ∧ ∀ content,
      (t.set (here ++ below) (.file content)).walk here segments = .ok (here ++ below) ∨
        (t.set (here ++ below) (.file content)).walk here segments = .error .notDirectory := by
  induction segments generalizing here with
  | nil => cases h
  | cons segment rest ih =>
      obtain ⟨hsegment, hrest⟩ := List.ne_and_not_mem_of_not_mem_cons hup
      rw [walk] at h
      cases hstep : t.step here segment with
      | error fault =>
          simp only [hstep, Except.error.injEq] at h
          subst h
          obtain ⟨hmissing, hfound⟩ := step_of_notFound hdir hstep
          refine ⟨[segment], hmissing, fun content => ?_⟩
          have hthere : (t.set (here ++ [segment]) (.file content)).entryAt (here ++ [segment]) =
              some (.file content) := by
            rw [entryAt_set (by simp), if_pos rfl]
          rw [walk, hfound content]
          exact walk_of_file hthere rest
      | ok next =>
          simp only [hstep] at h
          have hfront : ∃ front, next = here ++ front ∧ (t.entryAt next).isSome = true := by
            obtain ⟨-, rfl | ⟨heq, -⟩ | ⟨rfl, hsome⟩⟩ := step_eq_ok hstep
            · exact ⟨[], (List.append_nil _).symm, by rw [hdir]; rfl⟩
            · exact absurd heq.symm hsegment
            · exact ⟨[segment], rfl, hsome⟩
          obtain ⟨front, rfl, hsome⟩ := hfront
          obtain ⟨entry, hentry⟩ := Option.isSome_iff_exists.1 hsome
          cases entry with
          | file content =>
              rcases walk_of_file hentry rest with heq | heq <;> rw [heq] at h <;> cases h
          | directory =>
              obtain ⟨below, hmissing, hled⟩ := ih hrest hentry h
              rw [List.append_assoc] at hmissing hled
              refine ⟨front ++ below, hmissing, fun content => ?_⟩
              have hdirs : SameDirectories t (t.set (here ++ (front ++ below)) (.file content)) :=
                sameDirectories_set (by rw [hmissing]; simp) content
              rw [walk, step_congr hdirs hstep hentry]
              exact hled content

end Shaderworks.FileTree
