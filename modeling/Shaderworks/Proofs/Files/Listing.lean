/-
**What a directory lists.**

A directory lists a name when something stands under that name in it, and taken from the directory the
name leads there, unless the path gets too long.  This needs that the names in a tree are names that
files can have: with a slash inside, a name would be taken for a path.  No operation on files brings
other names into a tree.

Main definitions:

* `FileTree.IsName` — a name that a file can have;
* `FileTree.Named` — a tree in which every name is one.

Main results:

* `Path.hasExtension_iff` — which file names have an extension;
* `FileTree.Named.write`, `FileTree.Named.remove`, `FileTree.Named.createDirectories`,
  `FileTree.Named.removeAll` — **every operation keeps a tree named;**
* `FileTree.mem_namesIn_iff`, `FileTree.nodup_namesIn` — what a directory lists, once each;
* `FileTree.find_join`, `FileTree.read_join`, `FileTree.remove_join` — what a name in a directory leads
  to, and what is read and removed there.
-/

import Shaderworks.Proofs.Files.Frame
import Shaderworks.Proofs.Text.Pieces
import Mathlib.Data.List.Basic

set_option autoImplicit false

namespace Shaderworks

namespace Path

/-! ### Extensions -/

/-- The extension of a file name is what stands behind its last dot, if something stands before the
dot. -/
theorem extension?_eq_some_iff {name extension : String} :
    extension? name = some extension ↔
      ∃ stem : List Char, name.toList = stem ++ '.' :: extension.toList ∧ stem ≠ [] ∧
        '.' ∉ extension.toList ∧ name ≠ ".." := by
  have hplain : ∀ {cs : List Char}, (∀ c ∈ cs, (c != '.') = true) ↔ '.' ∉ cs := by
    intro cs
    simp only [bne_iff_ne, List.forall_mem_ne']
  unfold extension?
  constructor
  · intro h
    cases hdrop : name.toList.reverse.dropWhile (fun c => c != '.') with
    | nil => simp [hdrop] at h
    | cons c before =>
        obtain ⟨hdot, piece, hpiece, hbackwards⟩ := Text.dropWhile_eq_cons_iff.1 hdrop
        obtain rfl : c = '.' := by simpa using hdot
        simp only [hbackwards, Text.takeWhile_piece hpiece hdot, Text.dropWhile_piece hpiece hdot,
          List.drop_succ_cons, List.drop_zero, ite_eq_iff, reduceCtorEq, and_false, false_or,
          Option.some.injEq, Bool.or_eq_true, not_or, List.isEmpty_iff, beq_iff_eq] at h
        obtain ⟨⟨hbefore, hup⟩, rfl⟩ := h
        have hname := congrArg List.reverse hbackwards
        rw [List.reverse_reverse] at hname
        refine ⟨before.reverse, by simp [hname], by simpa using hbefore, ?_, hup⟩
        rw [String.toList_ofList, List.mem_reverse]
        exact hplain.1 hpiece
  · rintro ⟨stem, hname, hstem, hplainext, hup⟩
    have hpiece := hplain.2 fun hmem => hplainext (List.mem_reverse.1 hmem)
    have hbackwards : name.toList.reverse = extension.toList.reverse ++ '.' :: stem.reverse := by
      simp [hname]
    have hdot : ('.' != '.') = false := by decide
    simp [hbackwards, Text.takeWhile_piece hpiece hdot, Text.dropWhile_piece hpiece hdot, hstem, hup]

/-- **A file name has an extension** if that stands behind its last dot, up to the case of its letters,
and something stands before the dot. -/
theorem hasExtension_iff {name extension : String} (hne : extension ≠ "") :
    hasExtension name extension = true ↔
      ∃ stem behind : List Char, name.toList = stem ++ '.' :: behind ∧ stem ≠ [] ∧ '.' ∉ behind ∧
        behind.map Char.toLower = extension.toList.map Char.toLower := by
  constructor
  · intro h
    unfold hasExtension at h
    cases hextension : extension? name with
    | none => simp [hextension] at h
    | some e =>
        obtain ⟨stem, hname, hstem, hdot, -⟩ := extension?_eq_some_iff.1 hextension
        exact ⟨stem, e.toList, hname, hstem, hdot, by simpa [hextension] using h⟩
  · rintro ⟨stem, behind, hname, hstem, hdot, hcase⟩
    have hup : name ≠ ".." := by
      rintro rfl
      -- Behind the last dot of `..` there is nothing.
      have hlast := congrArg List.getLast? hname
      cases behind with
      | nil => exact hne (by simpa using hcase.symm)
      | cons c behind =>
          have hend : (c :: behind).getLast? = some '.' := by
            simpa [List.getLast?_append, List.getLast?_cons_cons] using hlast.symm
          exact hdot (List.mem_of_getLast? hend)
    have hextension : extension? name = some (String.ofList behind) :=
      extension?_eq_some_iff.2 ⟨stem, by rwa [String.toList_ofList], hstem, by
        rwa [String.toList_ofList], hup⟩
    simp [hasExtension, hextension, hcase]

/-! ### Segments -/

/-- The segments of a path hold no slash, and only characters of the path. -/
theorem mem_segmentsFrom {segment : String} {c : Char} {begun rest : List Char}
    (hsegment : segment ∈ segmentsFrom begun rest) (hc : c ∈ segment.toList) :
    c ∈ begun ∨ c ∈ rest ∧ c ≠ '/' := by
  induction rest generalizing begun with
  | nil =>
      rw [segmentsFrom, List.mem_singleton] at hsegment
      rw [hsegment, String.toList_ofList, List.mem_reverse] at hc
      exact .inl hc
  | cons d rest ih =>
      unfold segmentsFrom at hsegment
      by_cases hd : d = '/'
      · rw [if_pos hd, List.mem_cons] at hsegment
        rcases hsegment with rfl | hlater
        · rw [String.toList_ofList, List.mem_reverse] at hc
          exact .inl hc
        · rcases ih hlater with hnil | ⟨hrest, hslash⟩
          · cases hnil
          · exact .inr ⟨List.mem_cons_of_mem _ hrest, hslash⟩
      · rw [if_neg hd] at hsegment
        rcases ih hsegment with hbegun | ⟨hrest, hslash⟩
        · rcases List.mem_cons.1 hbegun with rfl | hbegun
          · exact .inr ⟨List.mem_cons_self .., hd⟩
          · exact .inl hbegun
        · exact .inr ⟨List.mem_cons_of_mem _ hrest, hslash⟩

end Path

namespace FileTree

variable {t u : FileTree} {dir path : Path} {place here : Place} {name segment : String}
  {segments : List String}

/-! ### Names -/

/-- A name that a file can have in a directory. -/
structure IsName (name : String) : Prop where
  /-- It is a name like any other. -/
  ordinary : OrdinaryName name
  /-- It is one segment of a path. -/
  no_slash : '/' ∉ name.toList
  /-- A path can hold it. -/
  no_nul : '\x00' ∉ name.toList

theorem isName_iff :
    IsName name ↔ OrdinaryName name ∧ '/' ∉ name.toList ∧ '\x00' ∉ name.toList :=
  ⟨fun h => ⟨h.ordinary, h.no_slash, h.no_nul⟩, fun h => ⟨h.1, h.2.1, h.2.2⟩⟩

instance (name : String) : Decidable (OrdinaryName name) := inferInstanceAs (Decidable (_ ∧ _))

instance (name : String) : Decidable (IsName name) := decidable_of_iff _ isName_iff.symm

/-- Something stands under a name where the tree has an entry. -/
theorem isSome_entryAt_iff :
    (t.entryAt (place ++ [name])).isSome = true ↔ place ++ [name] ∈ t.entries.keys := by
  rw [← Table.contains_iff, Table.contains]
  simp [entryAt]

/-- Every name in a tree is one that a file can have. -/
def Named (t : FileTree) : Prop :=
  ∀ place name, (t.entryAt (place ++ [name])).isSome = true → IsName name

/-- The names in a tree are the last ones of its places. -/
theorem named_iff :
    t.Named ↔ ∀ place ∈ t.entries.keys, ∀ name ∈ place.getLast?, IsName name := by
  constructor
  · intro h place hplace name hname
    obtain ⟨front, rfl⟩ := List.getLast?_eq_some_iff.1 hname
    exact h front name (isSome_entryAt_iff.2 hplace)
  · intro h place name hsome
    exact h _ (isSome_entryAt_iff.1 hsome) name (by simp)

instance (t : FileTree) : Decidable t.Named := decidable_of_iff _ named_iff.symm

/-- The paths that can be followed. -/
theorem pathFault?_eq_none_iff :
    pathFault? path = none ↔
      path ≠ "" ∧ '\x00' ∉ path.toList ∧ path.utf8ByteSize < maxPathBytes := by
  unfold pathFault?
  split_ifs with hempty hnul hlong
  · simp at hempty
    simp [hempty]
  · simp at hnul
    simp [hnul]
  · simp [Nat.not_lt.2 hlong]
  · simp at hempty hnul hlong
    simp [hempty, hnul, hlong]

/-- A path that can be followed is made of segments without slash and null character. -/
theorem plain_of_mem_segments (hfault : pathFault? path = none) (h : segment ∈ path.segments) :
    '/' ∉ segment.toList ∧ '\x00' ∉ segment.toList := by
  obtain ⟨-, hnul, -⟩ := pathFault?_eq_none_iff.1 hfault
  constructor
  · intro hslash
    rcases Path.mem_segmentsFrom h hslash with hnil | ⟨-, hne⟩
    · cases hnil
    · exact hne rfl
  · intro hmem
    rcases Path.mem_segmentsFrom h hmem with hnil | ⟨hpath, -⟩
    · cases hnil
    · exact hnul hpath

/-- What leads to nothing in a directory is a name that a file could have. -/
theorem isName_of_step (hplain : '/' ∉ segment.toList ∧ '\x00' ∉ segment.toList)
    (hdir : t.entryAt here = some .directory) (h : t.step here segment = .error .notFound) :
    IsName segment := by
  unfold step at h
  simp only [hdir] at h
  split_ifs at h with hstay hup hlong
  · exact absurd h (by simp)
  · rw [not_or] at hstay
    exact ⟨⟨hstay.1, hstay.2, hup, Nat.not_lt.1 hlong⟩, hplain.1, hplain.2⟩

/-- Nothing is found at a place where something stands only if that is a directory. -/
theorem directory_of_notFound (hhere : (t.entryAt here).isSome = true)
    (h : t.step here segment = .error .notFound) : t.entryAt here = some .directory := by
  unfold step at h
  cases hentry : t.entryAt here with
  | none => rw [hentry] at hhere; cases hhere
  | some entry =>
      cases entry with
      | file content => simp [hentry] at h
      | directory => rfl

/-- A directory that is made in a directory stands on the way to itself. -/
theorem Grounded.set_directory (h : t.Grounded here) (hdir : t.entryAt here = some .directory)
    (segment : String) :
    (t.set (here ++ [segment]) .directory).Grounded (here ++ [segment]) := by
  have hnil : here ++ [segment] ≠ [] := by simp
  refine ⟨by simp [entryAt_set hnil], fun above habove hne => ?_⟩
  rw [entryAt_set hnil, if_neg hne]
  have hfront := (List.prefix_concat_iff.1 habove).resolve_left hne
  by_cases heq : above = here
  · rw [heq, hdir]
  · exact h.2 above hfront heq

/-- A file is written where something stands, or under a name that it can have. -/
theorem locateNew_eq_ok (h : t.locateNew path = .ok place) :
    (t.entryAt place).isSome = true ∨ ∃ parent name, place = parent ++ [name] ∧ IsName name := by
  unfold locateNew at h
  cases hfault : pathFault? path with
  | some fault => simp [hfault] at h
  | none =>
      cases hwalk : t.walk [] path.segments.dropLast with
      | error fault => simp [hfault, hwalk] at h
      | ok parent =>
          cases hlast : path.segments.getLast? with
          | none => simp [hfault, hwalk, hlast] at h
          | some name =>
              have hparent := (grounded_root t).walk hwalk
              simp only [hfault, hwalk, hlast] at h
              cases hstep : t.step parent name with
              | ok there =>
                  simp only [hstep, Except.ok.injEq] at h
                  exact .inl (h ▸ (hparent.step hstep).1)
              | error fault =>
                  cases fault with
                  | notFound =>
                      simp only [hstep] at h
                      split_ifs at h
                      cases h
                      have hplain := plain_of_mem_segments hfault (List.mem_of_getLast? hlast)
                      have hdir := directory_of_notFound hparent.1 hstep
                      exact .inr ⟨parent, name, rfl, isName_of_step hplain hdir hstep⟩
                  | _ => simp [hstep] at h

namespace Named

theorem empty : FileTree.empty.Named := by
  intro place name h
  simp [entryAt, FileTree.empty] at h

theorem set (h : t.Named) (hname : IsName name) (here : Place) (entry : Entry) :
    (t.set (here ++ [name]) entry).Named := by
  intro place other hsome
  rw [entryAt_set (by simp)] at hsome
  split_ifs at hsome with heq
  · rw [List.append_inj_right' heq rfl |> List.singleton_inj.1]
    exact hname
  · exact h place other hsome

theorem unset (h : t.Named) (place : Place) : (t.unset place).Named := by
  intro front name hsome
  refine h front name ?_
  simp only [entryAt, FileTree.unset, Table.get?_erase] at hsome ⊢
  split_ifs at hsome ⊢
  · rfl
  · cases hsome
  · exact hsome

/-- What stands in a tree can be replaced. -/
theorem set_of_isSome (h : t.Named) (hplace : (t.entryAt place).isSome = true) (hroot : place ≠ [])
    (entry : Entry) : (t.set place entry).Named := by
  obtain ⟨front, name, rfl⟩ := (List.eq_nil_or_concat' place).resolve_left hroot
  exact h.set (h front name hplace) front entry

theorem makeAlong (h : t.Named) (hplain : ∀ segment ∈ segments,
    '/' ∉ segment.toList ∧ '\x00' ∉ segment.toList) (hhere : t.Grounded here) :
    (t.makeAlong here segments).2.Named := by
  induction segments generalizing t here with
  | nil =>
      unfold FileTree.makeAlong
      split <;> exact h
  | cons segment rest ih =>
      obtain ⟨hsegment, hrest⟩ := List.forall_mem_cons.1 hplain
      rw [FileTree.makeAlong]
      cases hstep : t.step here segment with
      | ok next => exact ih h hrest (hhere.step hstep)
      | error fault =>
          cases fault with
          | notFound =>
              dsimp only
              split_ifs
              · exact h
              · have hdir : t.entryAt here = some .directory := directory_of_notFound hhere.1 hstep
                have hname := isName_of_step hsegment hdir hstep
                exact ih (h.set hname here .directory) hrest (hhere.set_directory hdir segment)
          | _ => exact h

/-- **Making directories keeps a tree named.** -/
theorem createDirectories (h : t.Named) (path : Path) : (t.createDirectories path).2.Named := by
  unfold FileTree.createDirectories
  split_ifs
  · exact h
  · cases hfault : pathFault? path with
    | some fault => exact h
    | none =>
        have hmade := h.makeAlong (fun segment => plain_of_mem_segments hfault) (grounded_root t)
        rcases hresult : t.makeAlong [] path.segments with ⟨_ | _, made⟩
        · rwa [hresult] at hmade
        · rwa [hresult] at hmade

/-- **So does writing a file.** -/
theorem write {content : Bytes} (h : t.Named) (hwrite : t.write path content = .ok u) :
    u.Named := by
  unfold FileTree.write at hwrite
  cases hplace : t.locateNew path with
  | error fault => simp [hplace] at hwrite
  | ok place =>
      simp only [hplace] at hwrite
      split_ifs at hwrite with hfree
      cases hwrite
      have hroot : place ≠ [] := fun heq => hfree (heq ▸ entryAt_root t)
      rcases locateNew_eq_ok hplace with hold | ⟨parent, name, rfl, hname⟩
      · exact h.set_of_isSome hold hroot _
      · exact h.set hname parent _

/-- **So does removing one.** -/
theorem remove (h : t.Named) (hremove : t.remove path = .ok u) : u.Named := by
  obtain ⟨place, content, -, rfl⟩ := remove_eq_ok hremove
  exact h.unset place

/-- **So does removing what a path leads to.** -/
theorem removeAll (h : t.Named) (hremove : t.removeAll path = .ok u) : u.Named := by
  unfold FileTree.removeAll at hremove
  split at hremove
  · cases hremove
  · next root entry hfind =>
      cases hremove
      generalize t.entries.keys = places
      clear hfind
      induction places generalizing t with
      | nil => exact h
      | cons place places ih =>
          rw [List.foldl_cons]
          split_ifs
          · exact ih (h.unset place)
          · exact ih h

end Named

/-! ### What is listed -/

theorem nameIn?_eq_some_iff {directory other : Place} :
    nameIn? directory other = some name ↔ other = directory ++ [name] := by
  unfold nameIn?
  constructor
  · intro h
    split_ifs at h with hfront
    obtain ⟨front, rfl⟩ := List.getLast?_eq_some_iff.1 h
    rw [← hfront, List.dropLast_concat]
  · rintro rfl
    simp

/-- **A directory lists the names under which something stands in it.** -/
theorem mem_namesIn_iff {names : List String} (hfind : t.find dir = .ok (place, .directory))
    (hnames : t.namesIn dir = .ok names) :
    name ∈ names ↔ (t.entryAt (place ++ [name])).isSome = true := by
  refine ⟨fun hlisted => ?_, mem_namesIn hfind hnames⟩
  rw [namesIn, hfind, Except.ok.injEq] at hnames
  subst hnames
  obtain ⟨other, hkey, hname⟩ := List.mem_filterMap.1 hlisted
  obtain rfl := nameIn?_eq_some_iff.1 hname
  exact isSome_entryAt_iff.2 hkey

/-- No name is listed twice. -/
theorem nodup_namesIn {names : List String} (hnames : t.namesIn dir = .ok names) : names.Nodup := by
  obtain ⟨place, hfind⟩ := find_of_namesIn hnames
  rw [namesIn, hfind, Except.ok.injEq] at hnames
  subst hnames
  refine List.Pairwise.filterMap _ ?_ t.entries.distinct
  intro one other hne name hname name' hname' heq
  rw [nameIn?_eq_some_iff] at hname hname'
  exact hne (by rw [hname, hname', heq])

theorem namesIn_of_find (hfind : t.find dir = .ok (place, .directory)) :
    ∃ names, t.namesIn dir = .ok names := by
  rw [namesIn, hfind]
  exact ⟨_, rfl⟩

/-! ### What a listed name leads to -/

/-- A name in a directory makes a path that can be followed unless that gets too long. -/
theorem pathFault?_join_eq_none_iff (hdir : pathFault? dir = none) (hname : IsName name) :
    pathFault? (Path.join dir name) = none ↔
      (Path.join dir name).utf8ByteSize < maxPathBytes := by
  obtain ⟨slash, hshort, hjoin⟩ :=
    Path.join_eq_append (Path.isAbsolute_of_no_slash hname.no_slash) dir
  obtain ⟨-, hnul, -⟩ := pathFault?_eq_none_iff.1 hdir
  have hslash : '\x00' ∉ slash.toList := by rcases hshort with rfl | rfl <;> decide
  have hne : Path.join dir name ≠ "" := by
    rw [hjoin]
    simp [hname.ordinary.1]
  have hplain : '\x00' ∉ (Path.join dir name).toList := by
    rw [hjoin]
    simp [String.toList_append, hnul, hslash, hname.no_nul]
  rw [pathFault?_eq_none_iff, and_iff_right hne, and_iff_right hplain]

/-- **A name in a directory leads to what stands under it there,** if the path is not too long. -/
theorem find_join (hname : IsName name) (hfind : t.find dir = .ok (place, .directory)) :
    t.find (Path.join dir name) =
      match pathFault? (Path.join dir name), t.entryAt (place ++ [name]) with
      | some fault, _ => .error fault
      | none, none => .error .notFound
      | none, some entry => .ok (place ++ [name], entry) := by
  cases hfault : pathFault? (Path.join dir name) with
  | some fault => rw [find, locate, hfault]
  | none =>
      have hsegments : (Path.join dir name).segments = Path.frontSegments dir ++ [name] :=
        Path.segments_join hname.no_slash
      have hwalk : t.walk [] (Path.join dir name).segments.dropLast = .ok place := by
        rw [hsegments, List.dropLast_concat, walk_frontSegments hfind]
      have hparent := parent?_of_walk hfault hwalk (find_eq_ok hfind).2.2
      rw [find_of_parent hsegments hname.ordinary hparent]
      cases t.entryAt (place ++ [name]) <;> rfl

/-- A name leads to a directory if one stands under it and the path can be followed. -/
theorem isDirectory_join_iff (hname : IsName name)
    (hfind : t.find dir = .ok (place, .directory)) :
    t.isDirectory (Path.join dir name) = true ↔
      pathFault? (Path.join dir name) = none ∧
        t.entryAt (place ++ [name]) = some .directory := by
  unfold isDirectory
  rw [find_join hname hfind]
  cases pathFault? (Path.join dir name) with
  | some fault => simp
  | none =>
      cases t.entryAt (place ++ [name]) with
      | none => simp
      | some entry => cases entry <;> simp

/-- So it does to a regular file. -/
theorem isFile_join_iff (hname : IsName name)
    (hfind : t.find dir = .ok (place, .directory)) :
    t.isFile (Path.join dir name) = true ↔
      pathFault? (Path.join dir name) = none ∧
        ∃ content, t.entryAt (place ++ [name]) = some (.file content) := by
  unfold isFile
  rw [find_join hname hfind]
  cases pathFault? (Path.join dir name) with
  | some fault => simp
  | none =>
      cases t.entryAt (place ++ [name]) with
      | none => simp
      | some entry => cases entry <;> simp

/-- What is read under a name is the content of the regular file there. -/
theorem read_join (hname : IsName name) (hfind : t.find dir = .ok (place, .directory)) :
    (t.read (Path.join dir name)).toOption =
      if (Path.join dir name).utf8ByteSize < maxPathBytes then t.contentAt (place ++ [name])
      else none := by
  have hfollowed := pathFault?_join_eq_none_iff (find_eq_ok hfind).1 hname
  rw [read, find_join hname hfind, contentAt]
  cases hfault : pathFault? (Path.join dir name) with
  | some fault =>
      rw [hfault] at hfollowed
      rw [if_neg fun hshort => Option.some_ne_none fault (hfollowed.2 hshort)]
      rfl
  | none =>
      rw [if_pos (hfollowed.1 hfault)]
      cases t.entryAt (place ++ [name]) with
      | none => rfl
      | some entry => cases entry <;> rfl

end FileTree

end Shaderworks
