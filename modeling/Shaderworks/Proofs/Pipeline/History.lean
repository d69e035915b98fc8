/-
**Histories of a catalog.**

A catalog is called to register, build and drop pipelines and to override the host's.  Whoever holds
on to a pipeline may build it or dispose of it directly, also long after it was replaced.  A history
is a list of such steps.  No step forgets a pipeline or takes it back to an earlier phase, and a
pipeline that goes out of use is disposed of at once.

Main definitions:

* `CatalogCall`, `CatalogStep` — the calls of a catalog, and all steps;
* `Pipeline.Later` — the same pipeline at the same phase or a later one;
* `Catalog.afterCall`, `Catalog.afterStep`, `Catalog.after` — the catalog afterwards;
* `Catalog.newHandle?` — the handle that building a pipeline would give;
* `Catalog.Managed` — the index is in order, and what is out of use is disposed of.

Main results:

* `Catalog.buildOf_cases` — building changes nothing, or one waiting pipeline;
* `Catalog.held?_clear` — clearing disposes of every pipeline in use;
* `Catalog.disposed_afterStep` — what was disposed of stays so;
* `Catalog.Managed.after` — every history keeps a catalog managed.
-/

import Shaderworks.Proofs.Pipeline.Indexed
import Mathlib.Data.List.Induction

set_option autoImplicit false

namespace Shaderworks

/-- A call of a catalog. -/
inductive CatalogCall (τ η : Type) where
  /-- A pipeline is registered. -/
  | register (p : Pipeline η)
  /-- The host announces a template, and answers a request to build from it. -/
  | activate (answer : BuildRequest τ → Except Cause η) (name : String) (template : τ)
  /-- A host pipeline is overridden. -/
  | setOverride (host custom : String)
  /-- A host pipeline is not overridden any more. -/
  | removeOverride (host : String)
  /-- Overriding is enabled or disabled. -/
  | setEnabled (enabled : Bool)
  /-- Everything is dropped. -/
  | clear

/-- A step in the life of a catalog and its pipelines. -/
inductive CatalogStep (τ η : Type) where
  /-- The catalog is called. -/
  | call (call : CatalogCall τ η)
  /-- Whoever holds the pipeline with a number builds it. -/
  | build (answer : BuildRequest τ → Except Cause η) (template : τ) (id : PipelineId)
  /-- Whoever holds the pipeline with a number disposes of it. -/
  | dispose (id : PipelineId)

namespace Pipeline

variable {η : Type} {p q r : Pipeline η}

theorem isWaiting_iff : p.isWaiting = true ↔ p.phase = .waiting := by
  unfold Pipeline.isWaiting
  cases p.phase <;> simp

theorem handle?_eq_some_iff {handle : η} : p.handle? = some handle ↔ p.phase = .built handle := by
  unfold Pipeline.handle?
  cases p.phase <;> simp

/-- The same pipeline at the same phase or a later one. -/
structure Later (p q : Pipeline η) : Prop where
  /-- Only the phase is different. -/
  same : q = { p with phase := q.phase }
  /-- A pipeline that was built keeps its handle until it is disposed of. -/
  built : ∀ handle, p.phase = .built handle → q.phase = .built handle ∨ q.phase = .disposed
  /-- What was disposed of stays so. -/
  disposed : p.phase = .disposed → q.phase = .disposed

namespace Later

theorem refl (p : Pipeline η) : Later p p := ⟨rfl, fun _ h => .inl h, id⟩

theorem trans (h : Later p q) (h' : Later q r) : Later p r where
  same := by rw [h'.same, h.same]
  built := fun handle hp => by
    rcases h.built handle hp with hq | hq
    · exact h'.built handle hq
    · exact .inr (h'.disposed hq)
  disposed := fun hp => h'.disposed (h.disposed hp)

theorem toDisposed (p : Pipeline η) : Later p { p with phase := .disposed } :=
  ⟨rfl, fun _ _ => .inr rfl, fun _ => rfl⟩

theorem toBuilt (h : p.phase = .waiting) (handle : η) :
    Later p { p with phase := .built handle } := by
  refine ⟨rfl, fun _ hp => ?_, fun hp => ?_⟩ <;> rw [h] at hp <;> cases hp

theorem name_eq (h : Later p q) : q.name = p.name := by rw [h.same]

end Later

end Pipeline

namespace Catalog

variable {τ η : Type} {c : Catalog τ η} {id : PipelineId} {p : Pipeline η}

/-- The catalog after a call. -/
def afterCall (c : Catalog τ η) : CatalogCall τ η → Catalog τ η
  | .register p => (c.register p).2
  | .activate answer name template => (c.activate answer name template).2
  | .setOverride host custom => (c.setOverride host custom).2
  | .removeOverride host => (c.removeOverride host).2
  | .setEnabled enabled => c.setEnabled enabled
  | .clear => c.clear

/-- The catalog after a step. -/
def afterStep (c : Catalog τ η) : CatalogStep τ η → Catalog τ η
  | .call call => c.afterCall call
  | .build answer template id => (c.buildOf answer template id).2
  | .dispose id => c.disposeOf id

/-- The catalog after a history. -/
def after (c : Catalog τ η) (steps : List (CatalogStep τ η)) : Catalog τ η :=
  steps.foldl afterStep c

theorem after_append (c : Catalog τ η) (steps more : List (CatalogStep τ η)) :
    c.after (steps ++ more) = (c.after steps).after more :=
  List.foldl_append ..

theorem after_concat (c : Catalog τ η) (steps : List (CatalogStep τ η)) (step : CatalogStep τ η) :
    c.after (steps ++ [step]) = (c.after steps).afterStep step :=
  List.foldl_concat ..

/-- The phase of the pipeline with a number. -/
def phase? (c : Catalog τ η) (id : PipelineId) : Option (Phase η) := (c.held? id).map Pipeline.phase

/-! ### Single pipelines -/

/-- The handle that building the pipeline with a number gives: the pipeline waits, and the host
builds it. -/
def newHandle? (c : Catalog τ η) (answer : BuildRequest τ → Except Cause η) (template : τ)
    (id : PipelineId) : Option η :=
  (c.held? id).bind fun p => if p.isWaiting then (answer (p.request template)).toOption else none

/-- **Building changes nothing, or one waiting pipeline.** -/
theorem buildOf_cases (c : Catalog τ η) (answer : BuildRequest τ → Except Cause η) (template : τ)
    (id : PipelineId) :
    (c.newHandle? answer template id = none ∧ (c.buildOf answer template id).2 = c) ∨
      ∃ p handle, c.held? id = some p ∧ p.phase = .waiting ∧
        c.newHandle? answer template id = some handle ∧
        (c.buildOf answer template id).2 =
          c.update id
            ({ p with phase := .built handle }, [.built (p.request template) handle]) := by
  unfold newHandle? buildOf
  cases hid : c.held? id with
  | none => exact .inl ⟨rfl, rfl⟩
  | some p =>
      rw [Option.bind_some]
      by_cases hwaiting : p.isWaiting = true
      · have hphase := Pipeline.isWaiting_iff.1 hwaiting
        rw [if_pos hwaiting]
        dsimp only
        rw [Pipeline.build, hphase]
        cases hanswer : answer (p.request template) with
        | error cause => exact .inl ⟨rfl, rfl⟩
        | ok handle => exact .inr ⟨p, handle, rfl, hphase, rfl, rfl⟩
      · rw [if_neg hwaiting]
        dsimp only
        rw [Pipeline.build_of_not_waiting (Bool.not_eq_true _ ▸ hwaiting)]
        -- A pipeline that does not wait is put back as it was, with no event.
        have hlt := (List.getElem?_eq_some_iff.1 hid).1
        have hset : c.pipelines.set id p = c.pipelines := by
          rw [← (List.getElem?_eq_some_iff.1 hid).2, List.set_getElem_self]
        exact .inl ⟨rfl, by simp [update, hset]⟩

theorem activate_snd (c : Catalog τ η) (answer : BuildRequest τ → Except Cause η) (name : String)
    (template : τ) :
    (c.activate answer name template).2 =
      match c.index.get? name with
      | none => c
      | some id => (c.buildOf answer template id).2 := by
  unfold activate
  cases c.index.get? name with
  | none => rfl
  | some id =>
      dsimp only
      rcases c.buildOf answer template id with ⟨_ | _, c'⟩ <;> rfl

/-! ### Clearing -/

theorem held?_disposeAll (ids : List PipelineId) :
    ∀ (c : Catalog τ η) (id : PipelineId), (ids.foldl disposeOf c).held? id =
      if id ∈ ids then (c.held? id).map fun p => { p with phase := .disposed }
      else c.held? id := by
  induction ids with
  | nil => exact fun c id => rfl
  | cons first ids ih =>
      intro c id
      rw [List.foldl_cons, ih, held?_disposeOf]
      by_cases hfirst : id = first
      · subst hfirst
        cases c.held? id <;> simp
      · simp [hfirst]

/-- **Clearing disposes of every pipeline in use.** -/
theorem held?_clear (c : Catalog τ η) (id : PipelineId) :
    c.clear.held? id =
      if id ∈ c.slots then (c.held? id).map fun p => { p with phase := .disposed }
      else c.held? id :=
  held?_disposeAll c.slots c id

/-! ### Phases go forward -/

/-- Every pipeline of one catalog is in another, at the same phase or a later one. -/
def Carries (c c' : Catalog τ η) : Prop :=
  ∀ id p, c.held? id = some p → ∃ q, c'.held? id = some q ∧ p.Later q

theorem Carries.refl (c : Catalog τ η) : c.Carries c := fun _ p h => ⟨p, h, .refl p⟩

theorem Carries.trans {c' c'' : Catalog τ η} (h : c.Carries c') (h' : c'.Carries c'') :
    c.Carries c'' := by
  intro id p hp
  obtain ⟨q, hq, hpq⟩ := h id p hp
  obtain ⟨r, hr, hqr⟩ := h' id q hq
  exact ⟨r, hr, hpq.trans hqr⟩

theorem carries_disposeOf (c : Catalog τ η) (id : PipelineId) : c.Carries (c.disposeOf id) := by
  intro other p hp
  rw [held?_disposeOf]
  by_cases ho : other = id
  · rw [if_pos ho, ← ho, hp]
    exact ⟨_, rfl, .toDisposed p⟩
  · rw [if_neg ho, hp]
    exact ⟨p, rfl, .refl p⟩

theorem carries_buildOf (c : Catalog τ η) (answer : BuildRequest τ → Except Cause η) (template : τ)
    (id : PipelineId) : c.Carries (c.buildOf answer template id).2 := by
  rcases buildOf_cases c answer template id with ⟨-, heq⟩ | ⟨p, handle, hid, hphase, -, heq⟩
  · rw [heq]; exact .refl c
  · rw [heq]
    intro other q hq
    rw [held?_update hid]
    by_cases ho : other = id
    · rw [ho, hid, Option.some.injEq] at hq
      rw [if_pos ho, ← hq]
      exact ⟨_, rfl, .toBuilt hphase handle⟩
    · rw [if_neg ho, hq]
      exact ⟨q, rfl, .refl q⟩

theorem carries_register (c : Catalog τ η) (p : Pipeline η) : c.Carries (c.register p).2 := by
  have henlisted : c.Carries (c.enlisted p) := by
    intro id q hq
    have hlt := (List.getElem?_eq_some_iff.1 hq).1
    rw [held?_enlisted, if_neg (Nat.ne_of_lt hlt), hq]
    exact ⟨q, rfl, .refl q⟩
  rw [register_snd]
  cases c.index.get? p.name with
  | none => exact henlisted
  | some old => exact henlisted.trans (carries_disposeOf _ old)

theorem carries_clear (c : Catalog τ η) : c.Carries c.clear := by
  intro id p hp
  rw [held?_clear, hp]
  split
  · exact ⟨_, rfl, .toDisposed p⟩
  · exact ⟨p, rfl, .refl p⟩

/-- No step forgets a pipeline or takes it back. -/
theorem carries_afterStep (c : Catalog τ η) (step : CatalogStep τ η) :
    c.Carries (c.afterStep step) := by
  cases step with
  | build answer template id => exact carries_buildOf c answer template id
  | dispose id => exact carries_disposeOf c id
  | call call =>
      cases call with
      | register p => exact carries_register c p
      | activate answer name template =>
          change c.Carries (c.activate answer name template).2
          rw [activate_snd]
          cases c.index.get? name with
          | none => exact .refl c
          | some id => exact carries_buildOf c answer template id
      | setOverride host custom =>
          change c.Carries (c.setOverride host custom).2
          rw [setOverride_snd]
          exact .refl c
      | removeOverride host => exact .refl c
      | setEnabled enabled => exact .refl c
      | clear => exact carries_clear c

/-- Neither does a history. -/
theorem carries_after (c : Catalog τ η) (steps : List (CatalogStep τ η)) :
    c.Carries (c.after steps) := by
  induction steps using List.reverseRecOn with
  | nil => exact .refl c
  | append_singleton steps step ih =>
      rw [after_concat]
      exact ih.trans (carries_afterStep _ step)

/-- **What was disposed of stays so.** -/
theorem disposed_afterStep (step : CatalogStep τ η) (h : c.phase? id = some .disposed) :
    (c.afterStep step).phase? id = some .disposed := by
  obtain ⟨p, hp, hphase⟩ := Option.map_eq_some_iff.1 h
  obtain ⟨q, hq, hlater⟩ := carries_afterStep c step id p hp
  exact Option.map_eq_some_iff.2 ⟨q, hq, hlater.disposed hphase⟩

/-! ### Managed catalogs -/

/-- The index of a catalog is in order, and the pipelines that are out of use were disposed of. -/
structure Managed (c : Catalog τ η) : Prop extends c.Indexed where
  /-- What is out of use was disposed of. -/
  retired : ∀ id p, c.held? id = some p → id ∉ c.slots → p.phase = .disposed

/-- The index stays in order when pipelines go on to later phases. -/
theorem Indexed.of_carries {c' : Catalog τ η} (h : c.Indexed) (hcarries : c.Carries c')
    (hslots : c'.slots = c.slots) (hindex : c'.index = c.index) : c'.Indexed := by
  refine ⟨hslots ▸ h.slots_nodup, fun id => by rw [hslots, hindex]; exact h.mem_slots id, ?_⟩
  intro name id hname
  rw [hindex] at hname
  obtain ⟨p, hp, hpname⟩ := h.named name id hname
  obtain ⟨q, hq, hlater⟩ := hcarries id p hp
  exact ⟨q, hq, hlater.name_eq.trans hpname⟩

namespace Managed

theorem empty : (empty : Catalog τ η).Managed where
  toIndexed := blank_empty.indexed
  retired := fun id p hp => by simp [held?, Catalog.empty] at hp

theorem disposeOf (h : c.Managed) (id : PipelineId) : (c.disposeOf id).Managed := by
  obtain ⟨hslots, hindex, -, -⟩ := disposeOf_fields c id
  refine ⟨h.toIndexed.of_carries (carries_disposeOf c id) hslots hindex, ?_⟩
  intro other p hp hout
  rw [hslots] at hout
  rw [held?_disposeOf] at hp
  split at hp
  · obtain ⟨q, -, rfl⟩ := Option.map_eq_some_iff.1 hp
    rfl
  · exact h.retired other p hp hout

theorem buildOf (h : c.Managed) (answer : BuildRequest τ → Except Cause η) (template : τ)
    (id : PipelineId) : (c.buildOf answer template id).2.Managed := by
  have hcarries := carries_buildOf c answer template id
  rcases buildOf_cases c answer template id with ⟨-, heq⟩ | ⟨p, handle, hid, hphase, -, heq⟩
  · rw [heq]; exact h
  · rw [heq] at hcarries ⊢
    refine ⟨h.toIndexed.of_carries hcarries rfl rfl, ?_⟩
    intro other q hq hout
    rw [held?_update hid] at hq
    split at hq
    · next ho =>
        -- The pipeline waited, so it was not out of use.
        have hdisposed := h.retired id p hid (ho ▸ hout)
        rw [hphase] at hdisposed
        cases hdisposed
    · exact h.retired other q hq hout

theorem register (h : c.Managed) (p : Pipeline η) : (c.register p).2.Managed := by
  refine ⟨h.toIndexed.register p, ?_⟩
  intro id q hq hout
  rw [mem_slots_register p h.toIndexed, not_or, not_and, not_not] at hout
  rw [held?_register p h.toIndexed, if_neg hout.1] at hq
  split at hq
  · obtain ⟨r, -, rfl⟩ := Option.map_eq_some_iff.1 hq
    rfl
  · next hold => exact h.retired id q hq fun hmem => hold (hout.2 hmem)

/-- After clearing every pipeline that was ever registered is disposed of. -/
theorem phase_clear (h : c.Managed) (hp : c.clear.held? id = some p) : p.phase = .disposed := by
  rw [held?_clear] at hp
  split at hp
  · obtain ⟨q, -, rfl⟩ := Option.map_eq_some_iff.1 hp
    rfl
  · next hout => exact h.retired id p hp hout

theorem clear (h : c.Managed) : c.clear.Managed where
  toIndexed := (blank_clear c).indexed
  retired := fun _ _ hp _ => h.phase_clear hp

theorem rerouted (h : c.Managed) (overrides : Table String String) (enabled : Bool) :
    Managed { c with overrides, enabled } :=
  ⟨h.toIndexed.rerouted overrides enabled, h.retired⟩

theorem afterCall (h : c.Managed) (call : CatalogCall τ η) : (c.afterCall call).Managed := by
  cases call with
  | register p => exact h.register p
  | activate answer name template =>
      change (c.activate answer name template).2.Managed
      rw [activate_snd]
      cases c.index.get? name with
      | none => exact h
      | some id => exact h.buildOf answer template id
  | setOverride host custom =>
      change (c.setOverride host custom).2.Managed
      rw [setOverride_snd]
      exact h.rerouted _ _
  | removeOverride host => exact h.rerouted _ _
  | setEnabled enabled => exact h.rerouted _ _
  | clear => exact h.clear

theorem afterStep (h : c.Managed) (step : CatalogStep τ η) : (c.afterStep step).Managed := by
  cases step with
  | call call => exact h.afterCall call
  | build answer template id => exact h.buildOf answer template id
  | dispose id => exact h.disposeOf id

/-- **Every history keeps a catalog managed.** -/
theorem after (h : c.Managed) (steps : List (CatalogStep τ η)) : (c.after steps).Managed := by
  induction steps using List.reverseRecOn with
  | nil => exact h
  | append_singleton steps step ih =>
      rw [after_concat]
      exact ih.afterStep step

end Managed

end Catalog

end Shaderworks
