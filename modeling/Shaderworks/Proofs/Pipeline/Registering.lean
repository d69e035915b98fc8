/-
**Registering several pipelines.**

Pipelines of different names may be registered one after the other.  Each takes the place of an
earlier pipeline of its name, which is disposed of, and nothing else changes.  Where the shaders come
from, the compiler or the cache, does not matter to a catalog: two catalogs that are alike but for
that stay alike when pipelines are registered that are alike but for that.

Main definitions:

* `Catalog.registerAll` — the catalog after several pipelines were registered;
* `Catalog.Replaces` — what has changed from one catalog to another;
* `Pipeline.asCompiled` — a pipeline as if all its shaders came straight from the compiler;
* `Catalog.Alike` — two catalogs in which nothing was built yet, with the same contents.

Main results:

* `Catalog.events_register` — the host releases the handle of the pipeline that is replaced;
* `Catalog.replaces_registerAll` — **registering replaces exactly the pipelines of these names**;
* `Catalog.idle_registerAll` — without handles there is nothing to release;
* `Catalog.Alike.registerAll` — alike catalogs stay alike.
-/

import Shaderworks.Proofs.Bytecode.Transparency
import Shaderworks.Proofs.Pipeline.Handles

set_option autoImplicit false

namespace Shaderworks

variable {τ η : Type}

namespace Catalog

variable {c c' : Catalog τ η} {p : Pipeline η} {fresh : List (Pipeline η)}

/-! ### One pipeline after the other -/

/-- The catalog after several pipelines were registered. -/
def registerAll (c : Catalog τ η) (fresh : List (Pipeline η)) : Catalog τ η :=
  fresh.foldl (fun c p => (c.register p).2) c

theorem registerAll_cons (c : Catalog τ η) (p : Pipeline η) (fresh : List (Pipeline η)) :
    c.registerAll (p :: fresh) = (c.register p).2.registerAll fresh := rfl

theorem registerAll_concat (c : Catalog τ η) (fresh : List (Pipeline η)) (p : Pipeline η) :
    c.registerAll (fresh ++ [p]) = ((c.registerAll fresh).register p).2 :=
  List.foldl_concat ..

theorem length_disposeOf (c : Catalog τ η) (id : PipelineId) :
    (c.disposeOf id).pipelines.length = c.pipelines.length := by
  unfold disposeOf
  cases c.held? id <;> simp [update]

theorem length_register (c : Catalog τ η) (p : Pipeline η) :
    (c.register p).2.pipelines.length = c.pipelines.length + 1 := by
  rw [register_snd]
  cases c.index.get? p.name <;> simp [length_disposeOf, enlisted]

/-- The host releases the handle of the pipeline that is replaced. -/
theorem events_register (h : c.Indexed) (p : Pipeline η) :
    (c.register p).2.events =
      c.events ++ ((c.get? p.name).bind Pipeline.handle?).toList.map HostEvent.released := by
  rw [register_snd, h.get?_eq]
  cases hold : c.index.get? p.name with
  | none => simp [enlisted]
  | some old =>
      have hne : old ≠ c.pipelines.length := Nat.ne_of_lt (h.lt_length hold)
      have hreleases := (releases_disposeOf (c.enlisted p) old).events
      rw [held?_enlisted, if_neg hne] at hreleases
      exact hreleases

/-- From one catalog to another the pipelines of some names were replaced, and nothing else has
changed. -/
structure Replaces (c c' : Catalog τ η) (fresh : List (Pipeline η)) : Prop where
  indexed : c'.Indexed
  overrides : c'.overrides = c.overrides
  enabled : c'.enabled = c.enabled
  /-- No number is given up. -/
  length_le : c.pipelines.length ≤ c'.pipelines.length
  /-- Under the names there are the fresh pipelines. -/
  found : ∀ p ∈ fresh, c'.get? p.name = some p
  /-- They have new numbers. -/
  numbered : ∀ p ∈ fresh, ∀ id, c'.index.get? p.name = some id → c.pipelines.length ≤ id
  /-- Under every other name there is the same pipeline as before. -/
  others : ∀ name ∉ fresh.map Pipeline.name,
    c'.index.get? name = c.index.get? name ∧ c'.get? name = c.get? name
  /-- Every pipeline that was not replaced is as it was, in use or not. -/
  kept : ∀ id q, c.held? id = some q → (∀ p ∈ fresh, c.index.get? p.name ≠ some id) →
    c'.held? id = some q
  /-- Those that were replaced are disposed of. -/
  retired : ∀ p ∈ fresh, ∀ id, c.index.get? p.name = some id → c'.phase? id = some .disposed
  /-- The host released their handles, each one once, and did nothing else. -/
  events : c'.events = c.events ++
    (fresh.filterMap fun p => (c.get? p.name).bind Pipeline.handle?).map HostEvent.released

namespace Replaces

theorem refl (h : c.Indexed) : Replaces c c [] where
  indexed := h
  overrides := rfl
  enabled := rfl
  length_le := Nat.le_refl _
  found := fun _ hp => absurd hp List.not_mem_nil
  numbered := fun _ hp => absurd hp List.not_mem_nil
  others := fun _ _ => ⟨rfl, rfl⟩
  kept := fun _ _ hq _ => hq
  retired := fun _ hp => absurd hp List.not_mem_nil
  events := by simp

/-- One more pipeline, of another name. -/
theorem register (h : Replaces c c' fresh) (hc : c.Indexed)
    (hname : p.name ∉ fresh.map Pipeline.name) : Replaces c (c'.register p).2 (fresh ++ [p]) := by
  obtain ⟨hslots, hindex, hoverrides, henabled⟩ := register_fields c' p
  obtain ⟨hsame, hsameget⟩ := h.others p.name hname
  have hne : ∀ q ∈ fresh, q.name ≠ p.name := fun q hq heq =>
    hname (heq ▸ List.mem_map_of_mem hq)
  have hlt : ∀ id q, c.held? id = some q → id < c'.pipelines.length := fun id q hq =>
    Nat.lt_of_lt_of_le (List.getElem?_eq_some_iff.1 hq).1 h.length_le
  refine ⟨h.indexed.register p, hoverrides.trans h.overrides, henabled.trans h.enabled, ?_, ?_, ?_,
    ?_, ?_, ?_, ?_⟩
  · rw [length_register]
    exact Nat.le_succ_of_le h.length_le
  · intro q hq
    rw [get?_register p h.indexed]
    rcases List.mem_append.1 hq with hold | hnew
    · rw [if_neg (hne q hold)]
      exact h.found q hold
    · rw [List.mem_singleton.1 hnew, if_pos rfl]
  · intro q hq id hid
    rw [hindex, NameMap.get?_insert] at hid
    rcases List.mem_append.1 hq with hold | hnew
    · rw [if_neg (hne q hold)] at hid
      exact h.numbered q hold id hid
    · rw [List.mem_singleton.1 hnew, if_pos rfl, Option.some.injEq] at hid
      exact hid ▸ h.length_le
  · intro name hother
    rw [List.map_append, List.mem_append, List.map_singleton, List.mem_singleton, not_or] at hother
    rw [hindex, NameMap.get?_insert, get?_register p h.indexed, if_neg hother.2, if_neg hother.2]
    exact h.others name hother.1
  · intro id q hq hout
    have hold := h.kept id q hq fun r hr => hout r (List.mem_append_left _ hr)
    have hreplaced : c'.index.get? p.name ≠ some id := by
      rw [hsame]
      exact hout p (by simp)
    rw [held?_register p h.indexed, if_neg (Nat.ne_of_lt (hlt id q hq)), if_neg hreplaced]
    exact hold
  · intro q hq id hid
    rcases List.mem_append.1 hq with hold | hnew
    · exact disposed_afterStep (.call (.register p)) (h.retired q hold id hid)
    · rw [List.mem_singleton.1 hnew] at hid
      obtain ⟨r, hr, -⟩ := hc.named p.name id hid
      obtain ⟨r', hr', -⟩ := h.indexed.named p.name id (hsame.trans hid)
      rw [phase?, held?_register p h.indexed, if_neg (Nat.ne_of_lt (hlt id r hr)),
        if_pos (hsame.trans hid), hr']
      rfl
  · rw [events_register h.indexed, h.events, hsameget, List.filterMap_append, List.map_append,
      List.append_assoc]
    cases hhandle : (c.get? p.name).bind Pipeline.handle? <;> simp [hhandle]

end Replaces

/-- **Registering replaces exactly the pipelines of these names.** -/
theorem replaces_registerAll (h : c.Indexed) (hnames : (fresh.map Pipeline.name).Nodup) :
    Replaces c (c.registerAll fresh) fresh := by
  induction fresh using List.reverseRecOn with
  | nil => exact .refl h
  | append_singleton fresh p ih =>
      rw [List.map_append, List.nodup_append] at hnames
      rw [registerAll_concat]
      refine (ih hnames.1).register h fun hmem => ?_
      exact hnames.2.2 p.name hmem p.name (by simp) rfl

theorem Managed.registerAll : ∀ {c : Catalog τ η}, c.Managed → (c.registerAll fresh).Managed := by
  induction fresh with
  | nil => exact fun h => h
  | cons p fresh ih => exact fun h => ih (h.register p)

/-! ### Without handles -/

/-- When nobody holds a handle, there is nothing to release. -/
theorem idle_register (h : c.handlesHeld = []) (hp : p.handle? = none) :
    (c.register p).2.handlesHeld = [] ∧ (c.register p).2.events = c.events := by
  have henlisted : (c.enlisted p).handlesHeld = [] := by
    rw [handlesHeld] at h ⊢
    simp [enlisted, h, hp]
  rw [register_snd]
  cases c.index.get? p.name with
  | none => exact ⟨henlisted, rfl⟩
  | some old =>
      obtain ⟨hevents, hheld⟩ := releases_disposeOf (c.enlisted p) old
      rw [henlisted] at hheld
      obtain ⟨hnone, hafter⟩ := List.append_eq_nil_iff.1 hheld.symm.eq_nil
      rw [hnone, List.map_nil, List.append_nil] at hevents
      exact ⟨hafter, hevents⟩

theorem idle_registerAll (hfresh : ∀ p ∈ fresh, p.handle? = none) :
    ∀ {c : Catalog τ η}, c.handlesHeld = [] →
      (c.registerAll fresh).handlesHeld = [] ∧ (c.registerAll fresh).events = c.events := by
  induction fresh with
  | nil => exact fun h => ⟨h, rfl⟩
  | cons p fresh ih =>
      intro c h
      obtain ⟨hheld, hevents⟩ := idle_register h (hfresh p List.mem_cons_self)
      obtain ⟨hheld', hevents'⟩ := ih (fun q hq => hfresh q (.tail _ hq)) hheld
      exact ⟨hheld', hevents'.trans hevents⟩

end Catalog

/-! ### Catalogs that are alike -/

/-- A pipeline as if all its shaders came straight from the compiler. -/
def Pipeline.asCompiled (p : Pipeline η) : Pipeline η :=
  { p with
    vertex := p.vertex.asCompiled
    fragment := p.fragment.asCompiled
    geometry := p.geometry.map Artifact.asCompiled }

theorem Pipeline.name_eq_of_asCompiled {p q : Pipeline η} (h : p.asCompiled = q.asCompiled) :
    p.name = q.name := by
  have hname : p.asCompiled.name = q.asCompiled.name := by rw [h]
  exact hname

namespace Catalog

/-- Two catalogs in which every pipeline in use waits.  They have the same pipelines, but for where
the shaders came from, and the same overrides. -/
structure Alike (c c' : Catalog τ η) : Prop where
  indexed : c.Indexed
  indexed' : c'.Indexed
  same : ∀ name, (c.get? name).map Pipeline.asCompiled = (c'.get? name).map Pipeline.asCompiled
  waits : ∀ name p, c.get? name = some p → p.phase = .waiting
  overrides : c.overrides = c'.overrides
  enabled : c.enabled = c'.enabled

namespace Alike

variable {c c' : Catalog τ η} {fresh fresh' : List (Pipeline η)}

theorem of_blank (h : c.Blank) (h' : c'.Blank) : Alike c c' where
  indexed := h.indexed
  indexed' := h'.indexed
  same := fun name => by rw [h.get?_eq, h'.get?_eq]
  waits := fun name p hp => by simp [h.get?_eq] at hp
  overrides := h.overrides.trans h'.overrides.symm
  enabled := h.enabled.trans h'.enabled.symm

theorem contains_eq (h : Alike c c') (name : String) : c.contains name = c'.contains name := by
  have hsome := congrArg Option.isSome (h.same name)
  rw [Option.isSome_map, Option.isSome_map] at hsome
  rw [Bool.eq_iff_iff, h.indexed.contains_iff, h.indexed'.contains_iff,
    ← Option.isSome_iff_exists, ← Option.isSome_iff_exists, hsome]

theorem names_eq (h : Alike c c') : c.names = c'.names := by
  have hkeys : ∀ name, name ∈ c.index.names ↔ name ∈ c'.index.names := by
    intro name
    rw [← NameMap.isSome_get?_iff, ← NameMap.isSome_get?_iff]
    exact Bool.eq_iff_iff.1 (h.contains_eq name)
  -- Names are listed in ascending order, so the same names are the same list.
  refine List.Perm.eq_of_pairwise ?_ c.index.names_ascending c'.index.names_ascending ?_
  · exact fun a b _ _ hab hba => absurd (String.lt_trans hab hba) (String.lt_irrefl a)
  · exact (List.perm_ext_iff_of_nodup c.index.nodup_names c'.index.nodup_names).2 hkeys

theorem register (h : Alike c c') {p p' : Pipeline η} (heq : p.asCompiled = p'.asCompiled)
    (hp : p.phase = .waiting) : Alike (c.register p).2 (c'.register p').2 := by
  obtain ⟨-, -, hoverrides, henabled⟩ := register_fields c p
  obtain ⟨-, -, hoverrides', henabled'⟩ := register_fields c' p'
  refine ⟨h.indexed.register p, h.indexed'.register p', fun name => ?_, fun name q hq => ?_, ?_, ?_⟩
  · rw [get?_register p h.indexed, get?_register p' h.indexed',
      Pipeline.name_eq_of_asCompiled heq]
    split
    · exact congrArg some heq
    · exact h.same name
  · rw [get?_register p h.indexed] at hq
    split at hq
    · cases hq
      exact hp
    · exact h.waits name q hq
  · rw [hoverrides, hoverrides', h.overrides]
  · rw [henabled, henabled', h.enabled]

/-- **Alike catalogs stay alike** when alike pipelines are registered. -/
theorem registerAll (heq : fresh.map Pipeline.asCompiled = fresh'.map Pipeline.asCompiled)
    (hfresh : ∀ p ∈ fresh, p.phase = .waiting) :
    ∀ {c c' : Catalog τ η}, Alike c c' → Alike (c.registerAll fresh) (c'.registerAll fresh') := by
  induction fresh generalizing fresh' with
  | nil =>
      obtain rfl := List.map_eq_nil_iff.1 heq.symm
      exact fun h => h
  | cons p fresh ih =>
      cases fresh' with
      | nil => cases heq
      | cons p' fresh' =>
          rw [List.map_cons, List.map_cons, List.cons.injEq] at heq
          intro c c' h
          exact ih heq.2 (fun q hq => hfresh q (.tail _ hq))
            (h.register heq.1 (hfresh p List.mem_cons_self))

theorem setOverride (h : Alike c c') (host custom : String) :
    Alike (c.setOverride host custom).2 (c'.setOverride host custom).2 := by
  rw [setOverride_snd, setOverride_snd, h.contains_eq custom, h.overrides]
  exact ⟨h.indexed.rerouted _ _, h.indexed'.rerouted _ _, h.same, h.waits, rfl, h.enabled⟩

theorem setEnabled (h : Alike c c') (enabled : Bool) :
    Alike (c.setEnabled enabled) (c'.setEnabled enabled) :=
  ⟨h.indexed.rerouted _ _, h.indexed'.rerouted _ _, h.same, h.waits, h.overrides, rfl⟩

end Alike

end Catalog

end Shaderworks
