/-
**What is held and what is released.**

A pipeline that was built holds a handle of the host until it is disposed of, and then the host
releases the handle.  Disposing of pipelines, one or all that are in use, so releases exactly the
handles that are not held any more.

Main definitions:

* `Catalog.handlesBuilt`, `Catalog.handlesReleased`, `Catalog.handlesHeld` — the handles that the
  host built and released, in order, and those that pipelines hold;
* `Catalog.Releases` — from one catalog to another some handles are released.

Main results:

* `Catalog.handlesHeld_update` — a pipeline that goes on to another phase exchanges its handle;
* `Catalog.releases_disposeOf`, `Catalog.releases_clear` — disposing releases what was held.
-/

import Shaderworks.Proofs.Pipeline.History
import Mathlib.Data.List.Perm.Basic

set_option autoImplicit false

open scoped List

namespace Shaderworks

variable {τ η : Type}

/-- The handle that the host built. -/
def HostEvent.builtHandle? : HostEvent τ η → Option η
  | .built _ handle => some handle
  | .released _ => none

/-- The handle that the host released. -/
def HostEvent.releasedHandle? : HostEvent τ η → Option η
  | .built _ _ => none
  | .released handle => some handle

namespace Catalog

variable {c c' : Catalog τ η} {id : PipelineId} {p : Pipeline η} {handle : η}

/-- The handles that the host built, in order. -/
def handlesBuilt (c : Catalog τ η) : List η := c.events.filterMap HostEvent.builtHandle?

/-- The handles that the host released, in order. -/
def handlesReleased (c : Catalog τ η) : List η := c.events.filterMap HostEvent.releasedHandle?

/-- The handles that pipelines hold, in use or not. -/
def handlesHeld (c : Catalog τ η) : List η := c.pipelines.filterMap Pipeline.handle?

/-- Whether the pipeline with a number holds a handle. -/
def Holds (c : Catalog τ η) (id : PipelineId) (handle : η) : Prop :=
  c.phase? id = some (.built handle)

/-! ### What is held -/

theorem mem_handlesHeld : handle ∈ c.handlesHeld ↔ ∃ id, c.Holds id handle := by
  rw [handlesHeld, List.mem_filterMap]
  unfold Holds phase? held?
  simp only [List.mem_iff_getElem?, Option.map_eq_some_iff]
  constructor
  · rintro ⟨p, ⟨id, hid⟩, hp⟩
    exact ⟨id, p, hid, Pipeline.handle?_eq_some_iff.1 hp⟩
  · rintro ⟨id, p, hid, hp⟩
    exact ⟨p, ⟨id, hid⟩, Pipeline.handle?_eq_some_iff.2 hp⟩

theorem phase?_update (hid : c.held? id = some p) (step : Pipeline η × List (HostEvent τ η))
    (other : PipelineId) :
    (c.update id step).phase? other = if other = id then some step.1.phase else c.phase? other := by
  unfold phase?
  rw [held?_update hid]
  split <;> rfl

theorem phase?_disposeOf (c : Catalog τ η) (id other : PipelineId) :
    (c.disposeOf id).phase? other =
      if other = id then (c.phase? id).map fun _ => .disposed else c.phase? other := by
  unfold phase?
  rw [held?_disposeOf]
  split
  · cases c.held? id <;> rfl
  · rfl

/-- When one pipeline goes on to another phase, its handle is exchanged in what is held. -/
theorem handlesHeld_update (hid : c.held? id = some p)
    (step : Pipeline η × List (HostEvent τ η)) :
    (p.handle?.toList ++ (c.update id step).handlesHeld).Perm
      (step.1.handle?.toList ++ c.handlesHeld) := by
  obtain ⟨hlt, hp⟩ := List.getElem?_eq_some_iff.1 hid
  -- The other pipelines are the same in both catalogs.
  have hcons : ∀ (q : Pipeline η) (l : List (Pipeline η)),
      (q :: l).filterMap Pipeline.handle? = q.handle?.toList ++ l.filterMap Pipeline.handle? := by
    intro q l
    cases hq : q.handle? <;> simp [hq]
  have hafter := (List.set_perm_cons_eraseIdx hlt step.1).filterMap Pipeline.handle?
  have hbefore := (List.getElem_cons_eraseIdx_perm hlt).symm.filterMap Pipeline.handle?
  rw [hcons] at hafter hbefore
  rw [hp] at hbefore
  calc p.handle?.toList ++ (c.update id step).handlesHeld
      ~ p.handle?.toList ++ (step.1.handle?.toList ++
          (c.pipelines.eraseIdx id).filterMap Pipeline.handle?) := hafter.append_left _
    _ ~ step.1.handle?.toList ++ (p.handle?.toList ++
          (c.pipelines.eraseIdx id).filterMap Pipeline.handle?) := by
        rw [← List.append_assoc, ← List.append_assoc]
        exact List.perm_append_comm.append_right _
    _ ~ step.1.handle?.toList ++ c.handlesHeld := hbefore.symm.append_left _

/-! ### What is released -/

/-- From one catalog to another some handles are released that were held. -/
structure Releases (c c' : Catalog τ η) (handles : List η) : Prop where
  /-- The host released them, in order. -/
  events : c'.events = c.events ++ handles.map HostEvent.released
  /-- They were held, and are not any more. -/
  held : c.handlesHeld.Perm (handles ++ c'.handlesHeld)

namespace Releases

theorem nothing (hpipelines : c'.pipelines = c.pipelines) (hevents : c'.events = c.events) :
    Releases c c' [] := by
  refine ⟨by rw [hevents]; simp, ?_⟩
  rw [handlesHeld, handlesHeld, hpipelines]
  exact .refl _

theorem trans {c'' : Catalog τ η} {handles more : List η} (h : Releases c c' handles)
    (h' : Releases c' c'' more) : Releases c c'' (handles ++ more) := by
  refine ⟨by rw [h'.events, h.events, List.map_append, List.append_assoc], ?_⟩
  rw [List.append_assoc]
  exact h.held.trans (h'.held.append_left _)

end Releases

/-- **Disposing releases the handle that was held.** -/
theorem releases_disposeOf (c : Catalog τ η) (id : PipelineId) :
    Releases c (c.disposeOf id) ((c.held? id).bind Pipeline.handle?).toList := by
  unfold disposeOf
  cases hid : c.held? id with
  | none => exact .nothing rfl rfl
  | some p =>
      refine ⟨?_, ?_⟩
      · cases hp : p.handle? <;> simp [update, Pipeline.dispose, hp]
      · have h := handlesHeld_update hid (p.dispose (τ := τ))
        rw [Pipeline.handle?_dispose] at h
        exact h.symm

theorem releases_disposeAll (ids : List PipelineId) :
    ∀ c : Catalog τ η, ∃ handles, Releases c (ids.foldl disposeOf c) handles := by
  induction ids with
  | nil => exact fun c => ⟨[], .nothing rfl rfl⟩
  | cons id ids ih =>
      intro c
      obtain ⟨handles, h⟩ := ih (c.disposeOf id)
      exact ⟨_, (releases_disposeOf c id).trans h⟩

/-- **Clearing releases all that is held, each handle once.** -/
theorem releases_clear (h : c.Managed) :
    ∃ handles : List η, c.clear.events = c.events ++ handles.map HostEvent.released ∧
      handles.Perm c.handlesHeld ∧ c.clear.handlesHeld = [] := by
  obtain ⟨handles, hreleases⟩ := releases_disposeAll c.slots c
  have hnone : c.clear.handlesHeld = [] := by
    refine List.eq_nil_iff_forall_not_mem.2 fun handle hmem => ?_
    obtain ⟨id, hid⟩ := mem_handlesHeld.1 hmem
    obtain ⟨p, hp, hphase⟩ := Option.map_eq_some_iff.1 hid
    rw [h.phase_clear hp] at hphase
    cases hphase
  have hheld : (c.slots.foldl disposeOf c).handlesHeld = [] := hnone
  refine ⟨handles, hreleases.events, ?_, hnone⟩
  have hperm := hreleases.held
  rw [hheld, List.append_nil] at hperm
  exact hperm.symm

end Catalog

end Shaderworks
