/-
**What a change of one file leaves alone.**

A path is followed through directories only, so what it leads to depends on which places are
directories and on what stands at its last place.  Writing and removing files keeps the directories,
hence it changes what is read at one place and at no other.

Main definitions:

* `FileTree.SameDirectories` — two trees have the same directories;
* `FileTree.parent?` — the directory in which a path asks for its last name;
* `FileTree.contentAt` — the content of the regular file at a place.

Main results:

* `FileTree.parent?_congr` — the directory of a path depends on the directories alone;
* `FileTree.read_eq`, `FileTree.write_eq` — what is read and written there, when the last segment is
  an ordinary name;
* `FileTree.remove_eq_ok`, `FileTree.remove_of_parent` — a removal takes one file away, and which;
* `FileTree.createDirectories_of_isDirectory` — a directory that is there is not made again;
* `Path.segments_join_of_relative`, `Path.segments_join` — the segments of a path and of a name in a
  directory.
-/

import Shaderworks.Files.Tree
import Mathlib.Data.List.Basic

set_option autoImplicit false

namespace Shaderworks

namespace Path

/-! ### Segments of a name in a directory -/

/-- A slash parts the segments before it from those after it. -/
theorem segmentsFrom_append_slash (begun xs ys : List Char) :
    segmentsFrom begun (xs ++ '/' :: ys) = segmentsFrom begun xs ++ segmentsFrom [] ys := by
  induction xs generalizing begun with
  | nil => simp [segmentsFrom]
  | cons c xs ih =>
      by_cases hc : c = '/'
      · simp [segmentsFrom, hc, ih]
      · simp [segmentsFrom, hc, ih]

/-- Without a slash there is one segment. -/
theorem segmentsFrom_of_no_slash {name : List Char} (h : '/' ∉ name) (begun : List Char) :
    segmentsFrom begun name = [String.ofList (begun.reverse ++ name)] := by
  induction name generalizing begun with
  | nil => simp [segmentsFrom]
  | cons c name ih =>
      have hc : c ≠ '/' := fun heq => h (heq ▸ List.mem_cons_self ..)
      have hn : '/' ∉ name := fun hm => h (List.mem_cons_of_mem _ hm)
      simp [segmentsFrom, hc, ih hn]

theorem segments_eq_of_toList {path : Path} {cs : List Char} (h : path.toList = cs) :
    path.segments = segmentsFrom [] cs := by
  rw [segments, h]

/-- The segments that lead into a directory when a name in it is asked for. -/
def frontSegments (dir : Path) : List String :=
  if dir = "" then []
  else if dir.toList.getLast? = some '/' then dir.segments.dropLast
  else dir.segments

/-- The segments of a path in a directory: those that lead there, and its own. -/
theorem segments_join_of_relative {path : Path} (h : path.isAbsolute = false) (dir : Path) :
    (join dir path).segments = frontSegments dir ++ path.segments := by
  unfold join frontSegments
  by_cases hdir : dir = ""
  · simp [hdir, h]
  have hempty : dir.isEmpty = false := by simpa using hdir
  simp only [h, hempty, hdir, Bool.or_self, if_false, Bool.false_eq_true, beq_iff_eq]
  by_cases hslash : dir.toList.getLast? = some '/'
  · obtain ⟨xs, hxs⟩ := List.getLast?_eq_some_iff.1 hslash
    have hjoin : (dir ++ path).toList = xs ++ '/' :: path.toList := by
      rw [String.toList_append, hxs, List.append_assoc, List.singleton_append]
    rw [if_pos hslash, if_pos hslash, segments_eq_of_toList hjoin, segments_eq_of_toList hxs,
      segmentsFrom_append_slash, segmentsFrom_append_slash, segments]
    simp [segmentsFrom]
  · have hjoin : (dir ++ "/" ++ path).toList = dir.toList ++ '/' :: path.toList := by
      simp [String.toList_append]
    rw [if_neg hslash, if_neg hslash, segments_eq_of_toList hjoin, segmentsFrom_append_slash,
      segments, segments]

theorem isAbsolute_of_no_slash {name : Path} (h : '/' ∉ name.toList) : name.isAbsolute = false := by
  unfold isAbsolute
  cases hn : name.toList with
  | nil => rfl
  | cons c cs =>
      have hc : c ≠ '/' := fun heq => h (by rw [hn, heq]; exact List.mem_cons_self ..)
      simpa using hc

/-- The segments of a name in a directory: those that lead there, and the name. -/
theorem segments_join {dir name : Path} (h : '/' ∉ name.toList) :
    (join dir name).segments = frontSegments dir ++ [name] := by
  have hname : name.segments = [name] := by simp [segments, segmentsFrom_of_no_slash h]
  rw [segments_join_of_relative (isAbsolute_of_no_slash h), hname]

/-- A path in a directory is that of the directory, at most one slash, and the path. -/
theorem join_eq_append {path : Path} (h : path.isAbsolute = false) (dir : Path) :
    ∃ slash : String, (slash = "" ∨ slash = "/") ∧ join dir path = dir ++ (slash ++ path) := by
  unfold join
  by_cases hempty : dir.isEmpty = true
  · have hdir : dir = "" := by simpa using hempty
    exact ⟨"", .inl rfl, by simp [h, hdir]⟩
  · simp only [h, Bool.eq_false_iff.2 hempty, Bool.or_self, Bool.false_eq_true, if_false]
    split
    · exact ⟨"", .inl rfl, by rw [String.empty_append]⟩
    · exact ⟨"/", .inr rfl, String.append_assoc ..⟩

/-- A path that ends with a slash has an empty last segment. -/
theorem segments_of_slash {dir : Path} (h : dir.toList.getLast? = some '/') :
    dir.segments = dir.segments.dropLast ++ [""] := by
  obtain ⟨xs, hxs⟩ := List.getLast?_eq_some_iff.1 h
  rw [segments_eq_of_toList hxs, segmentsFrom_append_slash]
  simp [segmentsFrom]

end Path

namespace FileTree

/-! ### Trees with the same directories -/

/-- Two trees have the same directories, whatever their files. -/
def SameDirectories (t u : FileTree) : Prop :=
  ∀ place, t.entryAt place = some .directory ↔ u.entryAt place = some .directory

namespace SameDirectories

variable {t u v : FileTree}

theorem refl (t : FileTree) : SameDirectories t t := fun _ => Iff.rfl

theorem symm (h : SameDirectories t u) : SameDirectories u t := fun place => (h place).symm

theorem trans (h : SameDirectories t u) (h' : SameDirectories u v) : SameDirectories t v :=
  fun place => (h place).trans (h' place)

end SameDirectories

variable {t u : FileTree}

@[simp] theorem entryAt_root (t : FileTree) : t.entryAt [] = some .directory := by simp [entryAt]

/-- Writing a file where no directory stands keeps the directories. -/
theorem sameDirectories_set {place : Place} (h : t.entryAt place ≠ some .directory)
    (content : Bytes) : SameDirectories t (t.set place (.file content)) := by
  intro other
  have hroot : place ≠ [] := fun heq => h (heq ▸ entryAt_root t)
  rw [entryAt_set hroot]
  by_cases ho : other = place
  · simp [ho, h]
  · simp [ho]

/-- So does taking away what is no directory. -/
theorem sameDirectories_unset {place : Place} (h : t.entryAt place ≠ some .directory) :
    SameDirectories t (t.unset place) := by
  intro other
  have hroot : place ≠ [] := fun heq => h (heq ▸ entryAt_root t)
  rw [entryAt_unset hroot]
  by_cases ho : other = place
  · simp [ho, h]
  · simp [ho]

/-! ### Following segments -/

/-- A segment is followed from a directory only: to the same place, upwards if it is `..`, or to
something that stands in the directory. -/
theorem step_eq_ok {here next : Place} {segment : String} (h : t.step here segment = .ok next) :
    t.entryAt here = some .directory ∧
      (next = here ∨ segment = ".." ∧ next = here.dropLast ∨
        next = here ++ [segment] ∧ (t.entryAt next).isSome = true) := by
  unfold step at h
  split at h
  · cases h
  · cases h
  · next hdir =>
      refine ⟨hdir, ?_⟩
      split at h
      · cases h; exact .inl rfl
      split at h
      · next hup => cases h; exact .inr (.inl ⟨hup, rfl⟩)
      split at h
      · cases h
      split at h
      · cases h
      · next hentry =>
          cases h
          exact .inr (.inr ⟨rfl, by rw [hentry]; rfl⟩)

/-- What is followed to a directory starts from one. -/
theorem entryAt_of_walk {segments : List String} {here p : Place}
    (h : t.walk here segments = .ok p) (hp : t.entryAt p = some .directory) :
    t.entryAt here = some .directory := by
  cases segments with
  | nil => cases h; exact hp
  | cons segment rest =>
      rw [walk] at h
      cases hstep : t.step here segment with
      | error fault => simp [hstep] at h
      | ok next => exact (step_eq_ok hstep).1

/-- A step between directories is the same in every tree with these directories. -/
theorem step_congr (h : SameDirectories t u) {here next : Place} {segment : String}
    (hstep : t.step here segment = .ok next) (hnext : t.entryAt next = some .directory) :
    u.step here segment = .ok next := by
  have hhere : u.entryAt here = some .directory := (h here).1 (step_eq_ok hstep).1
  have hnext' : u.entryAt next = some .directory := (h next).1 hnext
  unfold step at hstep ⊢
  simp only [(step_eq_ok hstep).1] at hstep
  simp only [hhere]
  split_ifs at hstep ⊢ with hstay hup hlong
  · exact hstep
  · exact hstep
  · cases hentry : t.entryAt (here ++ [segment]) with
    | none => simp [hentry] at hstep
    | some entry =>
        simp only [hentry, Except.ok.injEq] at hstep
        subst hstep
        simp [hnext']

/-- A walk between directories is the same in every tree with these directories. -/
theorem walk_congr (h : SameDirectories t u) {segments : List String} {here p : Place}
    (hwalk : t.walk here segments = .ok p) (hp : t.entryAt p = some .directory) :
    u.walk here segments = .ok p := by
  induction segments generalizing here with
  | nil => exact hwalk
  | cons segment rest ih =>
      rw [walk] at hwalk
      cases hstep : t.step here segment with
      | error fault => simp [hstep] at hwalk
      | ok next =>
          simp only [hstep] at hwalk
          rw [walk, step_congr h hstep (entryAt_of_walk hwalk hp)]
          exact ih hwalk

/-- Everything on the way to a place stands there, and all of it but the place itself are
directories. -/
def Grounded (t : FileTree) (place : Place) : Prop :=
  (t.entryAt place).isSome = true ∧
    ∀ above, above <+: place → above ≠ place → t.entryAt above = some .directory

theorem grounded_root (t : FileTree) : t.Grounded [] :=
  ⟨by simp, fun above h hne => absurd (List.prefix_nil.1 h) hne⟩

theorem Grounded.dropLast {here : Place} (h : t.Grounded here) : t.Grounded here.dropLast := by
  by_cases hnil : here = []
  · subst hnil; exact h
  have hne : here.dropLast ≠ here := fun heq => by
    have := congrArg List.length heq
    have hpos := List.length_pos_iff.2 hnil
    simp at this
    omega
  refine ⟨by rw [h.2 _ (List.dropLast_prefix here) hne]; rfl, fun above habove _ => ?_⟩
  refine h.2 above (habove.trans (List.dropLast_prefix here)) fun heq => ?_
  exact hne (List.IsPrefix.eq_of_length_le (List.dropLast_prefix here) (heq ▸ habove.length_le))

theorem Grounded.step {here next : Place} {segment : String} (h : t.Grounded here)
    (hstep : t.step here segment = .ok next) : t.Grounded next := by
  obtain ⟨hdir, rfl | ⟨-, rfl⟩ | ⟨rfl, hsome⟩⟩ := step_eq_ok hstep
  · exact h
  · exact h.dropLast
  · refine ⟨hsome, fun above habove hne => ?_⟩
    rcases List.prefix_concat_iff.1 habove with heq | hpre
    · exact absurd heq hne
    · by_cases heq : above = here
      · rw [heq, hdir]
      · exact h.2 above hpre heq

/-- What a walk from the root leads to stands there. -/
theorem Grounded.walk {segments : List String} {here p : Place} (h : t.Grounded here)
    (hwalk : t.walk here segments = .ok p) : t.Grounded p := by
  induction segments generalizing here with
  | nil => cases hwalk; exact h
  | cons segment rest ih =>
      rw [FileTree.walk] at hwalk
      cases hstep : t.step here segment with
      | error fault => simp [hstep] at hwalk
      | ok next =>
          simp only [hstep] at hwalk
          exact ih (h.step hstep) hwalk

/-! ### The last name of a path -/

/-- A name that a file can have: not empty, no `.` or `..`, and not too long. -/
def OrdinaryName (name : String) : Prop :=
  name ≠ "" ∧ name ≠ "." ∧ name ≠ ".." ∧ name.utf8ByteSize ≤ maxNameBytes

/-- The directory in which a path asks for its last segment, if it leads to one. -/
def parent? (t : FileTree) (path : Path) : Option Place :=
  match pathFault? path with
  | some _ => none
  | none =>
      match t.walk [] path.segments.dropLast with
      | .error _ => none
      | .ok parent => if t.entryAt parent = some .directory then some parent else none

/-- The content of the regular file at a place, if there is one. -/
def contentAt (t : FileTree) (place : Place) : Option Bytes :=
  match t.entryAt place with
  | some (.file content) => some content
  | _ => none

theorem contentAt_set {place : Place} (h : place ≠ []) (content : Bytes) (other : Place) :
    (t.set place (.file content)).contentAt other =
      if other = place then some content else t.contentAt other := by
  unfold contentAt
  rw [entryAt_set h]
  by_cases ho : other = place <;> simp [ho]

theorem contentAt_eq_some {place : Place} {content : Bytes} :
    t.contentAt place = some content ↔ t.entryAt place = some (.file content) := by
  unfold contentAt
  cases t.entryAt place with
  | none => simp
  | some entry => cases entry <;> simp

theorem parent?_eq_some {path : Path} {parent : Place} (h : t.parent? path = some parent) :
    pathFault? path = none ∧ t.walk [] path.segments.dropLast = .ok parent ∧
      t.entryAt parent = some .directory := by
  unfold parent? at h
  split at h
  · cases h
  · next hfault =>
      split at h
      · cases h
      · next p hwalk =>
          split at h
          · next hdir => cases h; exact ⟨hfault, hwalk, hdir⟩
          · cases h

theorem parent?_of_walk {path : Path} {parent : Place} (hfault : pathFault? path = none)
    (hwalk : t.walk [] path.segments.dropLast = .ok parent)
    (hdir : t.entryAt parent = some .directory) : t.parent? path = some parent := by
  simp [parent?, hfault, hwalk, hdir]

/-- The directory of a path depends on the directories alone. -/
theorem parent?_congr (h : SameDirectories t u) (path : Path) :
    t.parent? path = u.parent? path := by
  -- Having the same directories is symmetric, so one direction is enough.
  have key : ∀ {a b : FileTree} {parent : Place}, SameDirectories a b →
      a.parent? path = some parent → b.parent? path = some parent := by
    intro a b parent hab ha
    obtain ⟨hfault, hwalk, hdir⟩ := parent?_eq_some ha
    exact parent?_of_walk hfault (walk_congr hab hwalk hdir) ((hab parent).1 hdir)
  cases ht : t.parent? path with
  | some parent => exact (key h ht).symm
  | none =>
      cases hu : u.parent? path with
      | none => rfl
      | some parent => rw [key h.symm hu] at ht; cases ht

theorem find_eq_ok {path : Path} {place : Place} {entry : Entry}
    (h : t.find path = .ok (place, entry)) :
    pathFault? path = none ∧ t.walk [] path.segments = .ok place ∧
      t.entryAt place = some entry := by
  rw [find] at h
  cases hlocate : t.locate path with
  | error fault => simp [hlocate] at h
  | ok p =>
      simp only [hlocate] at h
      cases hentry : t.entryAt p with
      | none => simp [hentry] at h
      | some found =>
          simp only [hentry, Except.ok.injEq, Prod.mk.injEq] at h
          obtain ⟨rfl, rfl⟩ := h
          rw [locate] at hlocate
          cases hfault : pathFault? path with
          | some fault => simp [hfault] at hlocate
          | none => simp only [hfault] at hlocate; exact ⟨rfl, hlocate, hentry⟩

theorem walk_append (here : Place) (front rest : List String) :
    t.walk here (front ++ rest) =
      match t.walk here front with
      | .error fault => .error fault
      | .ok next => t.walk next rest := by
  induction front generalizing here with
  | nil => rfl
  | cons segment front ih =>
      rw [List.cons_append, walk, walk]
      cases t.step here segment with
      | error fault => rfl
      | ok next => exact ih next

/-- An ordinary name is followed into a directory when something stands there. -/
theorem step_ordinary {parent : Place} {name : String} (hname : OrdinaryName name)
    (hdir : t.entryAt parent = some .directory) :
    t.step parent name =
      if (t.entryAt (parent ++ [name])).isSome then .ok (parent ++ [name])
      else .error .notFound := by
  obtain ⟨hempty, hdot, hup, hlong⟩ := hname
  unfold step
  simp only [hdir, hempty, hdot, hup, or_self, if_false, Nat.not_lt.2 hlong]
  cases t.entryAt (parent ++ [name]) <;> rfl

section LastName

variable {path : Path} {front : List String} {name : String}

/-- A path whose directory is known leads to its last name there. -/
theorem find_of_parent {parent : Place} (hsegments : path.segments = front ++ [name])
    (hname : OrdinaryName name) (h : t.parent? path = some parent) :
    t.find path =
      match t.entryAt (parent ++ [name]) with
      | none => .error .notFound
      | some entry => .ok (parent ++ [name], entry) := by
  obtain ⟨hfault, hwalk, hdir⟩ := parent?_eq_some h
  rw [hsegments, List.dropLast_concat] at hwalk
  have hlocate : t.locate path = t.step parent name := by
    rw [locate, hfault, hsegments]
    simp only [walk_append, hwalk, walk]
    cases t.step parent name <;> rfl
  rw [find, hlocate, step_ordinary hname hdir]
  cases hentry : t.entryAt (parent ++ [name]) with
  | none => rfl
  | some entry => simp [hentry]

/-- A path that leads to something has a directory. -/
theorem parent?_of_find {place : Place} {entry : Entry}
    (hsegments : path.segments = front ++ [name]) (h : t.find path = .ok (place, entry)) :
    (t.parent? path).isSome = true := by
  obtain ⟨hfault, hwalk, -⟩ := find_eq_ok h
  rw [hsegments, walk_append] at hwalk
  cases hfront : t.walk [] front with
  | error fault => simp [hfront] at hwalk
  | ok parent =>
      simp only [hfront, walk] at hwalk
      cases hstep : t.step parent name with
      | error fault => simp [hstep] at hwalk
      | ok next =>
          have hdrop : t.walk [] path.segments.dropLast = .ok parent := by
            rw [hsegments, List.dropLast_concat, hfront]
          rw [parent?_of_walk hfault hdrop (step_eq_ok hstep).1]
          rfl

/-- What is read at a path is the content of the file of its last name. -/
theorem read_eq (hsegments : path.segments = front ++ [name]) (hname : OrdinaryName name) :
    (t.read path).toOption =
      (t.parent? path).bind fun parent => t.contentAt (parent ++ [name]) := by
  cases hparent : t.parent? path with
  | none =>
      cases hfind : t.find path with
      | error fault => simp [read, hfind, Except.toOption]
      | ok found =>
          obtain ⟨place, entry⟩ := found
          have hsome := parent?_of_find hsegments hfind
          rw [hparent] at hsome
          cases hsome
  | some parent =>
      rw [read, find_of_parent hsegments hname hparent, Option.bind_some, contentAt]
      cases t.entryAt (parent ++ [name]) with
      | none => rfl
      | some entry => cases entry <;> rfl

/-- Writing at a path makes a file of its last name, unless a directory has that name. -/
theorem write_eq (hsegments : path.segments = front ++ [name]) (hname : OrdinaryName name)
    (content : Bytes) :
    (t.write path content).toOption =
      (t.parent? path).bind fun parent =>
        if t.entryAt (parent ++ [name]) = some .directory then none
        else some (t.set (parent ++ [name]) (.file content)) := by
  obtain ⟨hempty, hdot, hup, -⟩ := id hname
  cases hfault : pathFault? path with
  | some fault => simp [write, locateNew, parent?, hfault, Except.toOption]
  | none =>
      cases hwalk : t.walk [] front with
      | error fault => simp [write, locateNew, parent?, hfault, hsegments, hwalk, Except.toOption]
      | ok parent =>
          have hfront : t.walk [] path.segments.dropLast = .ok parent := by
            rw [hsegments, List.dropLast_concat, hwalk]
          have hlast : path.segments.getLast? = some name := by rw [hsegments]; simp
          cases hentry : t.entryAt parent with
          | none =>
              -- A walk from the root never leads to a place where nothing stands.
              have hsome := ((grounded_root t).walk hwalk).1
              simp [hentry] at hsome
          | some entry =>
              cases entry with
              | file old =>
                  simp [write, locateNew, parent?, hfault, hfront, hlast, step, hentry,
                    Except.toOption]
              | directory =>
                  rw [parent?_of_walk hfault hfront hentry, Option.bind_some, write, locateNew]
                  simp only [hfault, hfront, hlast, step_ordinary hname hentry]
                  cases hold : t.entryAt (parent ++ [name]) with
                  | none => simp [hempty, hdot, hup, hold, Except.toOption]
                  | some entry => cases entry <;> simp [hold, Except.toOption]

/-- A regular file is removed from its directory. -/
theorem remove_of_parent {parent : Place} {content : Bytes}
    (hsegments : path.segments = front ++ [name]) (hname : OrdinaryName name)
    (h : t.parent? path = some parent)
    (hfile : t.entryAt (parent ++ [name]) = some (.file content)) :
    t.remove path = .ok (t.unset (parent ++ [name])) := by
  rw [remove, find_of_parent hsegments hname h, hfile]

end LastName

/-- A removal takes one regular file away. -/
theorem remove_eq_ok {path : Path} (h : t.remove path = .ok u) :
    ∃ place content, t.entryAt place = some (.file content) ∧ u = t.unset place := by
  unfold remove at h
  split at h
  · cases h
  · cases h
  · next place content hfind =>
      exact ⟨place, content, (find_eq_ok hfind).2.2, by cases h; rfl⟩

/-! ### Directories by path -/

/-- The segments that lead into a directory lead to it. -/
theorem walk_frontSegments {dir : Path} {place : Place}
    (hfind : t.find dir = .ok (place, .directory)) :
    t.walk [] (Path.frontSegments dir) = .ok place := by
  obtain ⟨hfault, hwalk, -⟩ := find_eq_ok hfind
  have hne : dir ≠ "" := fun heq => by simp [heq, pathFault?] at hfault
  rw [Path.frontSegments, if_neg hne]
  by_cases hend : dir.toList.getLast? = some '/'
  · rw [if_pos hend]
    rw [Path.segments_of_slash hend, walk_append] at hwalk
    cases hfront : t.walk [] dir.segments.dropLast with
    | error fault => simp [hfront] at hwalk
    | ok parent =>
        simp only [hfront, walk] at hwalk
        cases hstep : t.step parent "" with
        | error fault => simp [hstep] at hwalk
        | ok next =>
            have hstay : t.step parent "" = .ok parent := by
              simp [step, (step_eq_ok hstep).1]
            simpa [hstay] using hwalk
  · rw [if_neg hend, hwalk]

/-- The directory in which a name of a directory is asked for is that directory. -/
theorem parent?_join {dir name : Path} {place parent : Place} (hslash : '/' ∉ name.toList)
    (hfind : t.find dir = .ok (place, .directory))
    (h : t.parent? (Path.join dir name) = some parent) :
    parent = place := by
  obtain ⟨-, hfront, -⟩ := parent?_eq_some h
  rw [Path.segments_join hslash, List.dropLast_concat, walk_frontSegments hfind] at hfront
  exact (Except.ok.inj hfront).symm

theorem isDirectory_iff {path : Path} :
    t.isDirectory path = true ↔ ∃ place, t.find path = .ok (place, .directory) := by
  unfold isDirectory
  constructor
  · intro h
    split at h
    · next place hfind => exact ⟨place, hfind⟩
    · cases h
  · rintro ⟨place, hfind⟩
    rw [hfind]

/-- A path that leads to a directory leads there whatever the files are. -/
theorem find_directory_congr {dir : Path} {place : Place} (h : SameDirectories t u)
    (hfind : t.find dir = .ok (place, .directory)) : u.find dir = .ok (place, .directory) := by
  obtain ⟨hfault, hwalk, hentry⟩ := find_eq_ok hfind
  rw [find, locate, hfault]
  simp only [walk_congr h hwalk hentry, (h place).1 hentry]

/-- Which paths lead to directories depends on the directories alone. -/
theorem isDirectory_congr {path : Path} (h : SameDirectories t u)
    (hdir : t.isDirectory path = true) : u.isDirectory path = true := by
  obtain ⟨place, hfind⟩ := isDirectory_iff.1 hdir
  exact isDirectory_iff.2 ⟨place, find_directory_congr h hfind⟩

/-- What is wrong with the text of a directory is wrong with every path in it. -/
theorem pathFault?_of_append {dir rest : Path} (hdir : dir ≠ "")
    (h : pathFault? (dir ++ rest) = none) : pathFault? dir = none := by
  unfold pathFault? at h ⊢
  have hsize : dir.utf8ByteSize ≤ (dir ++ rest).utf8ByteSize := by
    rw [String.utf8ByteSize_append]
    exact Nat.le_add_right ..
  have hempty : dir.isEmpty = false := by simpa using hdir
  split at h
  · cases h
  · split at h
    · cases h
    · next hplain =>
        have hnul : dir.toList.contains '\x00' = false := by
          rw [Bool.not_eq_true, String.toList_append, List.contains_append] at hplain
          exact (Bool.or_eq_false_iff.1 hplain).1
        split at h
        · cases h
        · next hshort =>
            simp only [hempty, hnul, Bool.false_eq_true, if_false]
            rw [if_neg fun hlong => hshort (Nat.le_trans hlong hsize)]

/-- A name in a directory makes a path that can be followed, if it is not too long. -/
theorem pathFault?_join {dir name : Path} (hslash : '/' ∉ name.toList) (hname : name ≠ "")
    (hdir : '\x00' ∉ dir.toList) (hplain : '\x00' ∉ name.toList)
    (hsize : dir.utf8ByteSize + 1 + name.utf8ByteSize < maxPathBytes) :
    pathFault? (Path.join dir name) = none := by
  obtain ⟨slash, hshort, hjoin⟩ := Path.join_eq_append (Path.isAbsolute_of_no_slash hslash) dir
  obtain ⟨hnone, hone⟩ : '\x00' ∉ slash.toList ∧ slash.utf8ByteSize ≤ 1 := by
    rcases hshort with rfl | rfl <;> decide
  have hnonempty : (dir ++ (slash ++ name)).isEmpty = false := by simp [hname]
  have hnul : (dir ++ (slash ++ name)).toList.contains '\x00' = false := by
    simp [String.toList_append, hdir, hnone, hplain]
  have hlength : ¬ maxPathBytes ≤ (dir ++ (slash ++ name)).utf8ByteSize := by
    rw [String.utf8ByteSize_append, String.utf8ByteSize_append]
    omega
  rw [hjoin, pathFault?]
  simp only [hnonempty, hnul, hlength, Bool.false_eq_true, if_false]

/-- A directory in which a name can be asked for is there. -/
theorem isDirectory_of_parent? {dir name : Path} {parent : Place} (hslash : '/' ∉ name.toList)
    (hdir : dir ≠ "") (h : t.parent? (Path.join dir name) = some parent) :
    t.isDirectory dir = true := by
  obtain ⟨hfault, hwalk, hentry⟩ := parent?_eq_some h
  obtain ⟨slash, -, hjoin⟩ := Path.join_eq_append (Path.isAbsolute_of_no_slash hslash) dir
  have hplain : pathFault? dir = none := pathFault?_of_append hdir (hjoin ▸ hfault)
  rw [Path.segments_join hslash, List.dropLast_concat, Path.frontSegments, if_neg hdir] at hwalk
  have hthere : t.walk [] dir.segments = .ok parent := by
    by_cases hend : dir.toList.getLast? = some '/'
    · -- The empty segment behind the last slash leads nowhere else.
      have hstay : t.step parent "" = .ok parent := by simp [step, hentry]
      rw [if_pos hend] at hwalk
      rw [Path.segments_of_slash hend, walk_append, hwalk]
      simp only [walk, hstay]
    · rwa [if_neg hend] at hwalk
  refine isDirectory_iff.2 ⟨parent, ?_⟩
  rw [find, locate, hplain]
  simp only [hthere, hentry]

theorem makeAlong_of_walk {segments : List String} {here place : Place}
    (hwalk : t.walk here segments = .ok place) (hentry : t.entryAt place = some .directory) :
    t.makeAlong here segments = (.ok place, t) := by
  induction segments generalizing here with
  | nil =>
      cases hwalk
      rw [makeAlong, hentry]
  | cons segment rest ih =>
      rw [walk] at hwalk
      rw [makeAlong]
      cases hstep : t.step here segment with
      | error fault => simp [hstep] at hwalk
      | ok next =>
          simp only [hstep] at hwalk
          exact ih hwalk

/-- A directory that is there is not made again. -/
theorem createDirectories_of_isDirectory {path : Path} (h : t.isDirectory path = true) :
    t.createDirectories path = (none, t) := by
  obtain ⟨place, hfind⟩ := isDirectory_iff.1 h
  obtain ⟨hfault, hwalk, hentry⟩ := find_eq_ok hfind
  unfold createDirectories
  split
  · rfl
  · simp only [hfault, makeAlong_of_walk hwalk hentry]

/-- What stands directly in a directory is listed there. -/
theorem mem_namesIn {dir : Path} {place : Place} {names : List String} {name : String}
    (hfind : t.find dir = .ok (place, .directory)) (hnames : t.namesIn dir = .ok names)
    (h : (t.entryAt (place ++ [name])).isSome = true) : name ∈ names := by
  rw [namesIn, hfind, Except.ok.injEq] at hnames
  subst hnames
  have hkey : place ++ [name] ∈ t.entries.keys := by
    rw [← Table.contains_iff, Table.contains]
    simpa [entryAt] using h
  exact List.mem_filterMap.2 ⟨_, hkey, by simp [nameIn?]⟩

theorem find_of_namesIn {dir : Path} {names : List String} (h : t.namesIn dir = .ok names) :
    ∃ place, t.find dir = .ok (place, .directory) := by
  rw [namesIn] at h
  split at h
  · cases h
  · cases h
  · next place hfind => exact ⟨place, hfind⟩

end FileTree

end Shaderworks
