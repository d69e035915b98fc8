/-
**What a shelf lists, and what is selected on it.**

The selection is a place in a list that is appended to, replaced in and emptied by the other
operations.  Names never change their places between two clearings, so the place that was selected
for a name stays the place of that name.  Together with the record of what was registered and chosen
since the last clearing this determines the shelf.

Main definitions:

* `ShelfStep` — the operations that change a shelf;
* `ShelfRecord`, `ShelfRecord.after` — a shelf with what was registered and chosen since it was
  cleared;
* `latestNamed` — the pack that was registered last under a name;
* `Shelf.Stocked`, `Shelf.Marks` — what the record says about the packs and about the selection.

Main results:

* `Shelf.Stocked.register`, `Shelf.Marks.register` — what a registration keeps;
* `Shelf.Stocked.active` — the active pack is the latest one of the chosen name;
* `ShelfRecord.sound_after` — the record is right after every history;
* `ShelfRecord.listed_and_selected` — **the packs and the selection are what the record says.**
-/

import Shaderworks.Pack.Shelf
import Mathlib.Data.List.Basic

set_option autoImplicit false

namespace Shaderworks

/-! ### Histories -/

/-- An operation that may change a shelf. -/
inductive ShelfStep where
  /-- A pack is registered. -/
  | register (pack : Pack)
  /-- The pack of a name is chosen, or none. -/
  | choose (choice : Option String)
  /-- The shelf is cleared. -/
  | clear

/-- Chooses the pack of a name, or none, which is always accepted. -/
def Shelf.choose (shelf : Shelf) : Option String → Bool × Shelf
  | some name => shelf.select name
  | none => (true, shelf.deselect)

/-- A shelf, with what happened to it since it was cleared last. -/
structure ShelfRecord where
  /-- The shelf. -/
  shelf : Shelf := Shelf.empty
  /-- The packs that were registered, in order. -/
  registered : List Pack := []
  /-- The choices that were accepted, in order. -/
  choices : List (Option String) := []

namespace ShelfRecord

/-- The record after one more operation. -/
def next (r : ShelfRecord) : ShelfStep → ShelfRecord
  | .register pack =>
      { r with shelf := r.shelf.register pack, registered := r.registered ++ [pack] }
  | .choose choice =>
      { r with
        shelf := (r.shelf.choose choice).2
        choices := if (r.shelf.choose choice).1 then r.choices ++ [choice] else r.choices }
  | .clear => {}

/-- The record of a new shelf after a history. -/
def after (steps : List ShelfStep) : ShelfRecord := steps.foldl next {}

/-- The name that was chosen last, unless the selection was ended since. -/
def chosen (r : ShelfRecord) : Option String := r.choices.getLast?.join

end ShelfRecord

/-- The pack that was registered last under a name. -/
def latestNamed (registered : List Pack) (name : String) : Option Pack :=
  registered.reverse.find? fun pack => pack.name == name

/-- A later pack of a name counts before an earlier one. -/
theorem latestNamed_append (front back : List Pack) (name : String) :
    latestNamed (front ++ back) name = (latestNamed back name).or (latestNamed front name) := by
  unfold latestNamed
  rw [List.reverse_append, List.find?_append]

theorem latestNamed_concat (registered : List Pack) (pack : Pack) (name : String) :
    latestNamed (registered ++ [pack]) name =
      if name = pack.name then some pack else latestNamed registered name := by
  rw [latestNamed_append]
  unfold latestNamed
  rw [List.reverse_singleton, List.find?_cons]
  by_cases hname : name = pack.name
  · rw [if_pos hname, beq_iff_eq.2 hname.symm]
    rfl
  · rw [if_neg hname, beq_false_of_ne (Ne.symm hname)]
    rfl

theorem name_of_latestNamed {registered : List Pack} {name : String} {pack : Pack}
    (h : latestNamed registered name = some pack) : pack.name = name := by
  simpa using List.find?_some (p := fun pack : Pack => pack.name == name) h

theorem mem_of_latestNamed {registered : List Pack} {name : String} {pack : Pack}
    (h : latestNamed registered name = some pack) : pack ∈ registered :=
  List.mem_reverse.1 (List.mem_of_find?_eq_some h)

/-- A name has a latest pack exactly when some pack was registered under it. -/
theorem latestNamed_isSome_iff {registered : List Pack} {name : String} :
    (latestNamed registered name).isSome = true ↔ name ∈ registered.map Pack.name := by
  simp [latestNamed]

namespace Shelf

variable {shelf : Shelf} {registered : List Pack} {choice : Option String}

/-! ### The packs -/

/-- What a shelf holds after some packs were registered on it. -/
structure Stocked (shelf : Shelf) (registered : List Pack) : Prop where
  /-- Each name stands where it was registered first. -/
  names_eq : shelf.names = (registered.map Pack.name).eraseDups
  /-- Each name has the pack that was registered last. -/
  get?_eq : ∀ name, shelf.get? name = latestNamed registered name

theorem stocked_empty : Stocked Shelf.empty [] := ⟨rfl, fun _ => rfl⟩

/-- A registered pack is found under its name, and every other name has what it had. -/
theorem get?_register (shelf : Shelf) (pack : Pack) (name : String) :
    (shelf.register pack).get? name = if name = pack.name then some pack else shelf.get? name :=
  Table.get?_put ..

/-- Exactly the names of the registered packs are listed. -/
theorem Stocked.mem_names_iff (h : shelf.Stocked registered) {name : String} :
    name ∈ shelf.names ↔ name ∈ registered.map Pack.name := by
  rw [h.names_eq, List.mem_eraseDups]

/-- **One more registration.** -/
theorem Stocked.register (h : shelf.Stocked registered) (pack : Pack) :
    (shelf.register pack).Stocked (registered ++ [pack]) := by
  refine ⟨?_, fun name => ?_⟩
  · have hsplit : ((registered ++ [pack]).map Pack.name).eraseDups =
        shelf.names ++ ([pack.name].removeAll (registered.map Pack.name)).eraseDups := by
      rw [List.map_append, List.map_singleton, List.eraseDups_append, ← h.names_eq]
    rw [hsplit, names_register]
    by_cases hknown : pack.name ∈ registered.map Pack.name
    · have hnothing : [pack.name].removeAll (registered.map Pack.name) = [] := by
        rw [List.removeAll, List.filter_singleton, List.elem_iff.2 hknown]
        rfl
      rw [if_pos (h.mem_names_iff.2 hknown), hnothing, List.eraseDups_nil, List.append_nil]
    · have hall : [pack.name].removeAll (registered.map Pack.name) = [pack.name] := by
        simp only [List.removeAll, List.filter_singleton, List.elem_eq_mem, hknown]
        rfl
      rw [if_neg fun hold => hknown (h.mem_names_iff.1 hold), hall]
      rfl
  · rw [get?_register, latestNamed_concat, h.get?_eq]

/-- The listed packs have the listed names. -/
theorem Stocked.map_name_list (h : shelf.Stocked registered) :
    shelf.list.map Pack.name = shelf.names := by
  unfold list names Table.values Table.keys
  rw [List.map_map]
  refine List.map_congr_left fun row hrow => ?_
  have hfound : shelf.get? row.1 = some row.2 := Table.get?_of_mem hrow
  rw [h.get?_eq] at hfound
  exact name_of_latestNamed hfound

/-- **A pack is listed exactly when it is the latest one of its name.** -/
theorem Stocked.mem_list_iff (h : shelf.Stocked registered) {pack : Pack} :
    pack ∈ shelf.list ↔ latestNamed registered pack.name = some pack := by
  constructor
  · intro hmem
    obtain ⟨row, hrow, rfl⟩ := List.mem_map.1 hmem
    have hfound : shelf.get? row.1 = some row.2 := Table.get?_of_mem hrow
    rw [h.get?_eq] at hfound
    rw [name_of_latestNamed hfound]
    exact hfound
  · intro hlatest
    rw [← h.get?_eq] at hlatest
    exact List.mem_map.2 ⟨_, mem_of_lookup hlatest, rfl⟩

/-! ### The selection -/

/-- The selected place is that of the chosen name, which is listed; or nothing is selected. -/
structure Marks (shelf : Shelf) (choice : Option String) : Prop where
  /-- The selected place. -/
  selected_eq : shelf.selected = choice.bind fun name => shelf.names.idxOf? name
  /-- The chosen name is listed. -/
  mem_names : ∀ name, choice = some name → name ∈ shelf.names

theorem marks_empty : Marks Shelf.empty none := ⟨rfl, nofun⟩

/-- **A name that is listed keeps its place when a pack is registered.** -/
theorem idxOf?_register {name : String} (hmem : name ∈ shelf.names) (pack : Pack) :
    (shelf.register pack).names.idxOf? name = shelf.names.idxOf? name := by
  rw [names_register]
  split
  · rfl
  · obtain ⟨place, hplace⟩ := Option.isSome_iff_exists.1 (List.isSome_idxOf?.2 hmem)
    rw [List.idxOf?, List.findIdx?_append, ← List.idxOf?, hplace, Option.some_or]

/-- A registration leaves the chosen name selected. -/
theorem Marks.register (h : shelf.Marks choice) (pack : Pack) :
    (shelf.register pack).Marks choice := by
  constructor
  · have hsame : (shelf.register pack).selected = shelf.selected := rfl
    rw [hsame, h.selected_eq]
    cases choice with
    | none => rfl
    | some name => exact (idxOf?_register (h.mem_names name rfl) pack).symm
  · intro name hchoice
    rw [names_register]
    split
    · exact h.mem_names name hchoice
    · exact List.mem_append_left _ (h.mem_names name hchoice)

/-- A choice that is refused changes nothing. -/
theorem choose_refused (h : (shelf.choose choice).1 = false) :
    (shelf.choose choice).2 = shelf := by
  cases choice with
  | none => cases h
  | some name =>
      cases hplace : shelf.names.idxOf? name with
      | none => rw [choose, select_unknown (List.idxOf?_eq_none_iff.1 hplace)]
      | some place => simp [choose, select, hplace] at h

/-- A choice is accepted exactly when it is to end the selection or its name is listed. -/
theorem choose_accepted_iff :
    (shelf.choose choice).1 = true ↔ ∀ name, choice = some name → name ∈ shelf.names := by
  cases choice with
  | none => simp [choose]
  | some name =>
      simp only [choose, select, Option.some.injEq, forall_eq']
      rw [← List.isSome_idxOf?]
      cases shelf.names.idxOf? name <;> simp

/-- No choice changes the packs. -/
theorem packs_choose (shelf : Shelf) (choice : Option String) :
    (shelf.choose choice).2.packs = shelf.packs := by
  cases choice with
  | none => rfl
  | some name =>
      simp only [choose, select]
      cases shelf.names.idxOf? name <;> rfl

/-- A choice that is accepted is the one that counts. -/
theorem marks_choose (h : (shelf.choose choice).1 = true) :
    (shelf.choose choice).2.Marks choice := by
  have hnames : (shelf.choose choice).2.names = shelf.names :=
    congrArg Table.keys (packs_choose shelf choice)
  refine ⟨?_, fun name hchoice => hnames ▸ choose_accepted_iff.1 h name hchoice⟩
  rw [hnames]
  cases choice with
  | none => rfl
  | some name =>
      obtain ⟨place, hplace⟩ := Option.isSome_iff_exists.1
        (List.isSome_idxOf?.2 (choose_accepted_iff.1 h name rfl))
      simp [choose, select, hplace]

/-- **The active pack is the latest one of the chosen name,** and the selected place is on the
shelf. -/
theorem Stocked.active (hstocked : shelf.Stocked registered) (hmarks : shelf.Marks choice) :
    shelf.active = choice.bind (latestNamed registered) ∧
      (∀ name, choice = some name → (latestNamed registered name).isSome = true) ∧
      ∀ place, shelf.selected = some place → place < shelf.list.length := by
  have hlisted : ∀ name, choice = some name → (latestNamed registered name).isSome = true :=
    fun name hchoice =>
      latestNamed_isSome_iff.2 (hstocked.mem_names_iff.1 (hmarks.mem_names name hchoice))
  cases choice with
  | none =>
      have hnone : shelf.selected = none := hmarks.selected_eq
      refine ⟨?_, hlisted, ?_⟩
      · rw [Shelf.active, hnone]
        rfl
      · intro place hplace
        rw [hnone] at hplace
        cases hplace
  | some name =>
      have hmem := hmarks.mem_names name rfl
      obtain ⟨place, hplace⟩ := Option.isSome_iff_exists.1 (List.isSome_idxOf?.2 hmem)
      have hselected : shelf.selected = some place := hmarks.selected_eq.trans hplace
      -- The pack in the place of the name has that name, so it is the latest one.
      obtain ⟨hbound, hname, -⟩ := List.idxOf?_eq_some_iff.1 hplace
      have hlength : shelf.list.length = shelf.names.length := by
        rw [← hstocked.map_name_list, List.length_map]
      have hthere : place < shelf.list.length := hlength ▸ hbound
      have hnamed : shelf.list[place].name = name := by
        rw [← hname, ← List.getElem_map Pack.name]
        · simp only [hstocked.map_name_list]
        · rwa [List.length_map]
      have hlatest := hstocked.mem_list_iff.1 (List.getElem_mem hthere)
      rw [hnamed] at hlatest
      refine ⟨?_, hlisted, ?_⟩
      · rw [Shelf.active, hselected, Option.bind_some, Option.bind_some, hlatest,
          List.getElem?_eq_getElem hthere]
      · intro other hother
        rw [hselected, Option.some.injEq] at hother
        exact hother ▸ hthere

end Shelf

/-! ### Whole histories -/

namespace ShelfRecord

/-- A record says of its shelf what is so. -/
structure Sound (r : ShelfRecord) : Prop where
  /-- About the packs. -/
  stocked : r.shelf.Stocked r.registered
  /-- About the selection. -/
  marks : r.shelf.Marks r.chosen

/-- One more operation. -/
theorem Sound.next {r : ShelfRecord} (h : r.Sound) (step : ShelfStep) : (r.next step).Sound := by
  cases step with
  | register pack => exact ⟨h.stocked.register pack, h.marks.register pack⟩
  | choose choice =>
      cases haccepted : (r.shelf.choose choice).1 with
      | false =>
          have hsame : r.next (.choose choice) = r := by
            simp [ShelfRecord.next, Shelf.choose_refused haccepted, haccepted]
          rwa [hsame]
      | true =>
          have hpacks := Shelf.packs_choose r.shelf choice
          have hchosen : (r.next (.choose choice)).chosen = choice := by
            simp [ShelfRecord.next, chosen, haccepted]
          refine ⟨⟨?_, ?_⟩, hchosen.symm ▸ Shelf.marks_choose haccepted⟩
          · exact (congrArg Table.keys hpacks).trans h.stocked.names_eq
          · intro name
            exact (congrArg (Table.get? · name) hpacks).trans (h.stocked.get?_eq name)
  | clear => exact ⟨Shelf.stocked_empty, Shelf.marks_empty⟩

/-- **The record is right after every history.** -/
theorem sound_after (steps : List ShelfStep) : (after steps).Sound :=
  List.foldlRecOn steps next ⟨Shelf.stocked_empty, Shelf.marks_empty⟩
    fun _ h step _ => h.next step

/-- **The packs and the selection are what was registered and chosen,** after every history.

* The names that are listed are those registered since the shelf was cleared, each once and in the
  order of their first registration; each is that of the latest pack registered under it, which is
  also what is found under the name.
* Nothing is active if the last choice that was accepted ended the selection, or if there was none.
  Otherwise the latest pack of the name that was chosen is active.
* A choice is refused exactly when it names no registered pack, and then it changes nothing.
* The selected place is on the shelf. -/
theorem listed_and_selected (steps : List ShelfStep) :
    let r := after steps
    (r.shelf.list.map Pack.name = (r.registered.map Pack.name).eraseDups ∧
      (∀ pack ∈ r.shelf.list, latestNamed r.registered pack.name = some pack) ∧
      ∀ name, r.shelf.get? name = latestNamed r.registered name) ∧
    ((r.chosen = none → r.shelf.active = none) ∧
      ∀ name, r.chosen = some name → ∃ pack,
        latestNamed r.registered name = some pack ∧ r.shelf.active = some pack) ∧
    (∀ choice,
      ((r.shelf.choose choice).1 = false ↔
        ∃ name, choice = some name ∧ name ∉ r.registered.map Pack.name) ∧
      ((r.shelf.choose choice).1 = false → (r.shelf.choose choice).2 = r.shelf)) ∧
    ∀ place, r.shelf.selected = some place → place < r.shelf.list.length := by
  intro r
  obtain ⟨hstocked, hmarks⟩ : r.Sound := sound_after steps
  obtain ⟨hactive, hlatest, hplace⟩ := hstocked.active hmarks
  refine ⟨⟨?_, fun _ => hstocked.mem_list_iff.1, hstocked.get?_eq⟩, ⟨?_, ?_⟩,
    fun choice => ⟨?_, ?_⟩, hplace⟩
  · rw [hstocked.map_name_list, hstocked.names_eq]
  · intro hnone
    rw [hactive, hnone]
    rfl
  · intro name hname
    obtain ⟨pack, hpack⟩ := Option.isSome_iff_exists.1 (hlatest name hname)
    refine ⟨pack, hpack, ?_⟩
    rw [hactive, hname]
    exact hpack
  · rw [← Bool.not_eq_true, Shelf.choose_accepted_iff]
    simp only [hstocked.mem_names_iff, not_forall, exists_prop]
  · exact Shelf.choose_refused

/-- A selected pack that is replaced by another version of itself, and a refused choice after it. -/
theorem listed_and_selected_updated :
    let steps : List ShelfStep :=
      [.register (.named "near" "1"), .choose (some "near"), .clear, .register (.named "near" "1"),
        .register (.named "far" "1"), .choose (some "far"), .register (.named "far" "2"),
        .register (.named "near" "2"), .choose (some "lost")]
    let r := after steps
    r.chosen = some "far" ∧ (r.shelf.choose (some "lost")).1 = false ∧
      (r.shelf.choose (some "lost")).2 = r.shelf ∧
      r.shelf.list.map Pack.name = ["near", "far"] ∧
      r.shelf.active = some (.named "far" "2") ∧ r.shelf.selected = some 1 ∧
      1 < r.shelf.list.length := by
  intro steps r
  obtain ⟨⟨hnames, -⟩, ⟨-, hactive⟩, hchoice, hplace⟩ := listed_and_selected steps
  have hchosen : r.chosen = some "far" := by decide
  have hregistered : r.registered =
      [.named "near" "1", .named "far" "1", .named "far" "2", .named "near" "2"] := rfl
  have hrefused : (r.shelf.choose (some "lost")).1 = false := by decide
  have hselected : r.shelf.selected = some 1 := by decide
  obtain ⟨pack, hlatest, hpack⟩ := hactive "far" hchosen
  have hfar : latestNamed r.registered "far" = some (.named "far" "2") := rfl
  refine ⟨hchosen, hrefused, (hchoice (some "lost")).2 hrefused, ?_, ?_, hselected,
    hplace 1 hselected⟩
  · rw [hregistered] at hnames
    exact hnames
  · rw [hpack, ← hlatest]
    exact hfar

end ShelfRecord

end Shaderworks
