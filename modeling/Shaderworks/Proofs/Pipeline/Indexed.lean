/-
**The index of a catalog.**

A catalog finds its pipelines by number and by name.  The numbers in use are exactly those that the
index has for some name, and a pipeline is found under its own name, so looking up a name, a number
and the pipeline behind it always agree.  Registering a pipeline keeps this up, and what is found
under every other name.

Main definitions:

* `Catalog.Indexed` — the numbers in use, the names and the pipelines agree;
* `Catalog.Blank` — nothing is catalogued or overridden.

Main results:

* `Catalog.held?_register` — every pipeline that was ever registered, after one more was;
* `Catalog.Indexed.register` — registering keeps the index;
* `Catalog.get?_register` — what is found by name afterwards.
-/

import Shaderworks.Pipeline.Catalog
import Mathlib.Data.List.Nodup

set_option autoImplicit false

namespace Shaderworks.Catalog

variable {τ η : Type} {c : Catalog τ η}

/-- The numbers in use, the names and the pipelines of a catalog agree. -/
structure Indexed (c : Catalog τ η) : Prop where
  /-- No number is in use twice. -/
  slots_nodup : c.slots.Nodup
  /-- The numbers in use are those of the index. -/
  mem_slots : ∀ id, id ∈ c.slots ↔ ∃ name, c.index.get? name = some id
  /-- Under a name there is a pipeline of that name. -/
  named : ∀ name id, c.index.get? name = some id → ∃ p, c.held? id = some p ∧ p.name = name

/-- No pipeline is in use, nothing is overridden, and overriding is disabled. -/
structure Blank (c : Catalog τ η) : Prop where
  /-- No number is in use. -/
  slots : c.slots = []
  /-- No name is in use. -/
  index : c.index = NameMap.empty
  /-- Nothing is overridden. -/
  overrides : c.overrides = Table.empty
  /-- Overriding is disabled. -/
  enabled : c.enabled = false

/-! ### Blank catalogs -/

theorem blank_empty : (empty : Catalog τ η).Blank := ⟨rfl, rfl, rfl, rfl⟩

theorem blank_clear (c : Catalog τ η) : c.clear.Blank := ⟨rfl, rfl, rfl, rfl⟩

namespace Blank

/-- A blank catalog is indexed. -/
theorem indexed (h : c.Blank) : c.Indexed := by
  constructor
  · rw [h.slots]; exact .nil
  · intro id
    simp [h.slots, h.index]
  · intro name id hname
    rw [h.index] at hname
    cases hname

theorem get?_eq (h : c.Blank) (name : String) : c.get? name = none := by
  rw [get?, h.index]
  rfl

end Blank

/-! ### Asking an indexed catalog -/

namespace Indexed

variable {name other : String} {id : PipelineId}

/-- No number has two names. -/
theorem name_unique (h : c.Indexed) (hname : c.index.get? name = some id)
    (hother : c.index.get? other = some id) : name = other := by
  obtain ⟨p, hp, rfl⟩ := h.named name id hname
  obtain ⟨q, hq, rfl⟩ := h.named other id hother
  rw [hp, Option.some.injEq] at hq
  rw [hq]

/-- Numbers in use were given out. -/
theorem lt_length (h : c.Indexed) (hname : c.index.get? name = some id) :
    id < c.pipelines.length := by
  obtain ⟨p, hp, -⟩ := h.named name id hname
  exact (List.getElem?_eq_some_iff.1 hp).1

/-- Looking up a name is looking up its number. -/
theorem get?_eq (h : c.Indexed) (name : String) :
    c.get? name = (c.index.get? name).bind c.held? := by
  unfold get?
  cases hname : c.index.get? name with
  | none => rfl
  | some id =>
      have hmem : id ∈ c.slots := (h.mem_slots id).2 ⟨name, hname⟩
      rw [Option.bind_some, Option.bind_some, byId?, if_pos hmem]

/-- What is found under a name has that name. -/
theorem name_of_get? (h : c.Indexed) {p : Pipeline η} (hp : c.get? name = some p) :
    p.name = name := by
  rw [h.get?_eq] at hp
  obtain ⟨id, hid, hheld⟩ := Option.bind_eq_some_iff.1 hp
  obtain ⟨q, hq, hname⟩ := h.named name id hid
  rw [hheld, Option.some.injEq] at hq
  rw [hq, hname]

/-- A name is in use exactly when a pipeline is found under it. -/
theorem contains_iff (h : c.Indexed) : c.contains name = true ↔ ∃ p, c.get? name = some p := by
  rw [h.get?_eq]
  unfold contains NameMap.contains
  constructor
  · intro hsome
    obtain ⟨id, hid⟩ := Option.isSome_iff_exists.1 hsome
    obtain ⟨p, hp, -⟩ := h.named name id hid
    exact ⟨p, by rw [hid, Option.bind_some, hp]⟩
  · rintro ⟨p, hp⟩
    obtain ⟨id, hid, -⟩ := Option.bind_eq_some_iff.1 hp
    rw [hid]; rfl

end Indexed

/-- The overrides are no part of the index. -/
theorem Indexed.rerouted (h : c.Indexed) (overrides : Table String String) (enabled : Bool) :
    Indexed { c with overrides, enabled } :=
  ⟨h.slots_nodup, h.mem_slots, h.named⟩

/-! ### Overriding -/

theorem setOverride_fst (c : Catalog τ η) (host custom : String) :
    (c.setOverride host custom).1 = c.contains custom := by
  unfold setOverride
  cases c.contains custom <;> rfl

theorem setOverride_snd (c : Catalog τ η) (host custom : String) :
    (c.setOverride host custom).2 =
      { c with
        overrides := if c.contains custom then c.overrides.put host custom else c.overrides } := by
  unfold setOverride
  cases c.contains custom <;> rfl

/-! ### Registering -/

section Register

variable (c) (p : Pipeline η)

/-- Disposing of a pipeline changes nothing but its phase. -/
theorem disposeOf_fields (id : PipelineId) :
    (c.disposeOf id).slots = c.slots ∧ (c.disposeOf id).index = c.index ∧
      (c.disposeOf id).overrides = c.overrides ∧ (c.disposeOf id).enabled = c.enabled := by
  unfold disposeOf
  cases c.held? id <;> exact ⟨rfl, rfl, rfl, rfl⟩

variable {c} in
theorem held?_update {id : PipelineId} {q : Pipeline η} (hid : c.held? id = some q)
    (step : Pipeline η × List (HostEvent τ η)) (other : PipelineId) :
    (c.update id step).held? other = if other = id then some step.1 else c.held? other := by
  have hlt : id < c.pipelines.length := (List.getElem?_eq_some_iff.1 hid).1
  by_cases ho : other = id
  · simp [ho, update, held?, hlt]
  · simp [ho, update, held?, Ne.symm ho]

theorem held?_disposeOf (id other : PipelineId) :
    (c.disposeOf id).held? other =
      if other = id then (c.held? id).map fun q => { q with phase := .disposed }
      else c.held? other := by
  unfold disposeOf
  cases hid : c.held? id with
  | none =>
      by_cases ho : other = id
      · simp [ho, hid]
      · simp [ho]
  | some q => exact held?_update hid q.dispose other

/-- The catalog with a pipeline added and its name pointing to it, before an earlier pipeline of the
name is disposed of. -/
def enlisted : Catalog τ η :=
  { c with
    pipelines := c.pipelines ++ [p]
    slots :=
      (match c.index.get? p.name with
        | none => c.slots
        | some old => c.slots.erase old) ++ [c.pipelines.length]
    index := c.index.insert p.name c.pipelines.length }

theorem held?_enlisted (id : PipelineId) :
    (c.enlisted p).held? id = if id = c.pipelines.length then some p else c.held? id := by
  unfold held? enlisted
  by_cases hid : id = c.pipelines.length
  · simp [hid]
  · rw [if_neg hid]
    rcases Nat.lt_or_gt_of_ne hid with hlt | hgt
    · exact List.getElem?_append_left hlt
    · have hbeyond : c.pipelines[id]? = none := List.getElem?_eq_none_iff.2 (Nat.le_of_lt hgt)
      rw [hbeyond, List.getElem?_eq_none_iff, List.length_append, List.length_singleton]
      exact hgt

theorem register_snd :
    (c.register p).2 =
      match c.index.get? p.name with
      | none => c.enlisted p
      | some old => (c.enlisted p).disposeOf old := by
  unfold register enlisted
  cases c.index.get? p.name <;> rfl

/-- Registering points the name to the new pipeline and leaves the overrides alone. -/
theorem register_fields :
    (c.register p).2.slots = (c.enlisted p).slots ∧
      (c.register p).2.index = c.index.insert p.name c.pipelines.length ∧
      (c.register p).2.overrides = c.overrides ∧ (c.register p).2.enabled = c.enabled := by
  rw [register_snd]
  cases c.index.get? p.name with
  | none => exact ⟨rfl, rfl, rfl, rfl⟩
  | some old => exact disposeOf_fields (c.enlisted p) old

variable {c}

/-- Every pipeline that was ever registered stays as it is, apart from the one that is replaced. -/
theorem held?_register (h : c.Indexed) (id : PipelineId) :
    (c.register p).2.held? id =
      if id = c.pipelines.length then some p
      else if c.index.get? p.name = some id then
        (c.held? id).map fun q => { q with phase := .disposed }
      else c.held? id := by
  rw [register_snd]
  cases hold : c.index.get? p.name with
  | none => simp [held?_enlisted]
  | some old =>
      have hlt := h.lt_length hold
      have hne : old ≠ c.pipelines.length := Nat.ne_of_lt hlt
      simp only [held?_disposeOf, held?_enlisted, Option.some.injEq, if_neg hne]
      by_cases hid : id = old
      · simp [hid, hne]
      · simp [hid, Ne.symm hid]

/-- The numbers in use after a registration: the new one, and the others but for the one that is
replaced. -/
theorem mem_slots_register (h : c.Indexed) (id : PipelineId) :
    id ∈ (c.register p).2.slots ↔
      id = c.pipelines.length ∨ id ∈ c.slots ∧ c.index.get? p.name ≠ some id := by
  rw [(register_fields c p).1, enlisted]
  cases hold : c.index.get? p.name with
  | none => simp [or_comm]
  | some old =>
      simp only [List.mem_append, h.slots_nodup.mem_erase_iff, List.mem_singleton, ne_eq,
        Option.some.injEq]
      constructor
      · rintro (⟨hne, hmem⟩ | rfl)
        · exact .inr ⟨hmem, Ne.symm hne⟩
        · exact .inl rfl
      · rintro (rfl | ⟨hmem, hne⟩)
        · exact .inr rfl
        · exact .inl ⟨Ne.symm hne, hmem⟩

/-- **Registering keeps the index.** -/
theorem Indexed.register (h : c.Indexed) : (c.register p).2.Indexed := by
  obtain ⟨hslots, hindex, -, -⟩ := register_fields c p
  -- The next number was never given out, so it cannot be in use already.
  have hfresh : c.pipelines.length ∉ c.slots := fun hmem => by
    obtain ⟨name, hname⟩ := (h.mem_slots _).1 hmem
    exact Nat.lt_irrefl _ (h.lt_length hname)
  constructor
  · rw [hslots, enlisted]
    cases c.index.get? p.name with
    | none =>
        exact List.nodup_append.2 ⟨h.slots_nodup, by simp, fun a ha b hb hab => by
          rw [List.mem_singleton.1 hb] at hab
          exact hfresh (hab ▸ ha)⟩
    | some old =>
        exact List.nodup_append.2 ⟨h.slots_nodup.erase old, by simp, fun a ha b hb hab => by
          rw [List.mem_singleton.1 hb] at hab
          exact hfresh (hab ▸ List.mem_of_mem_erase ha)⟩
  · intro id
    rw [mem_slots_register p h, hindex]
    constructor
    · rintro (rfl | ⟨hmem, hne⟩)
      · exact ⟨p.name, by simp [NameMap.get?_insert]⟩
      · obtain ⟨name, hname⟩ := (h.mem_slots id).1 hmem
        have hother : name ≠ p.name := fun heq => hne (heq ▸ hname)
        exact ⟨name, by rw [NameMap.get?_insert, if_neg hother, hname]⟩
    · rintro ⟨name, hname⟩
      rw [NameMap.get?_insert] at hname
      split at hname
      · cases hname; exact .inl rfl
      · next hother =>
          refine .inr ⟨(h.mem_slots id).2 ⟨name, hname⟩, fun hold => ?_⟩
          exact hother (h.name_unique hname hold)
  · intro name id hname
    rw [hindex, NameMap.get?_insert] at hname
    rw [held?_register p h]
    split at hname
    · next heq =>
        cases hname
        exact ⟨p, if_pos rfl, heq.symm⟩
    · next hother =>
        have hne : id ≠ c.pipelines.length := Nat.ne_of_lt (h.lt_length hname)
        have hold : c.index.get? p.name ≠ some id := fun hold =>
          hother (h.name_unique hname hold)
        rw [if_neg hne, if_neg hold]
        exact h.named name id hname

/-- **A registered pipeline is found under its name**, and under every other name what was. -/
theorem get?_register (h : c.Indexed) (name : String) :
    (c.register p).2.get? name = if name = p.name then some p else c.get? name := by
  rw [(h.register p).get?_eq, h.get?_eq, (register_fields c p).2.1, NameMap.get?_insert]
  by_cases hname : name = p.name
  · rw [if_pos hname, if_pos hname, Option.bind_some, held?_register p h, if_pos rfl]
  · rw [if_neg hname, if_neg hname]
    cases hid : c.index.get? name with
    | none => rfl
    | some id =>
        have hne : id ≠ c.pipelines.length := Nat.ne_of_lt (h.lt_length hid)
        have hold : c.index.get? p.name ≠ some id := fun hold => hname (h.name_unique hid hold)
        rw [Option.bind_some, Option.bind_some, held?_register p h, if_neg hne, if_neg hold]

end Register

end Shaderworks.Catalog
