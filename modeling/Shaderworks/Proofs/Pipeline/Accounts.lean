/-
**Handles are given back once.**

Every handle that the host built is held by the pipeline it was built for, until that is disposed
of; then it is released, and nobody holds it.  The books of a catalog say so: the handles that are
held and those that were released are together the handles that were built, and no pipeline was
built twice.  They balance after every history, also when pipelines are built and disposed of
directly by whoever still holds on to them.

Main definitions:

* `Catalog.builds` — which pipelines a history builds, with their handles;
* `Catalog.Accounted` — the books of a catalog;
* `Catalog.HeldOnce`, `Catalog.ReleasedOnce` — what may become of a handle.

Main results:

* `Catalog.Accounted.afterStep` — every step keeps the books balanced;
* `Catalog.not_built_of_disposed` — what was disposed of is never built again;
* `Catalog.held_or_released_once` — **after any history a built handle is held by one pipeline or was
  released once.**
-/

import Shaderworks.Proofs.Pipeline.Handles

set_option autoImplicit false

open scoped List

namespace Shaderworks

variable {τ η : Type}

namespace Catalog

variable {c c' : Catalog τ η} {id : PipelineId} {p : Pipeline η} {handle : η}

/-- The pipeline that a step builds, with its handle. -/
def stepBuilds (c : Catalog τ η) : CatalogStep τ η → List (PipelineId × η)
  | .call (.activate answer name template) =>
      match c.index.get? name with
      | none => []
      | some id => ((c.newHandle? answer template id).map fun handle => (id, handle)).toList
  | .build answer template id =>
      ((c.newHandle? answer template id).map fun handle => (id, handle)).toList
  | _ => []

/-- The pipelines that a history builds, in order, with their handles. -/
def builds : Catalog τ η → List (CatalogStep τ η) → List (PipelineId × η)
  | _, [] => []
  | c, step :: steps => c.stepBuilds step ++ (c.afterStep step).builds steps

theorem builds_append (c : Catalog τ η) (steps more : List (CatalogStep τ η)) :
    c.builds (steps ++ more) = c.builds steps ++ (c.after steps).builds more := by
  induction steps generalizing c with
  | nil => rfl
  | cons step steps ih =>
      rw [List.cons_append, builds, builds, ih, List.append_assoc]
      rfl

theorem builds_concat (c : Catalog τ η) (steps : List (CatalogStep τ η))
    (step : CatalogStep τ η) :
    c.builds (steps ++ [step]) = c.builds steps ++ (c.after steps).stepBuilds step := by
  rw [builds_append, builds, builds, List.append_nil]

/-! ### The books -/

/-- The books of a catalog, with the pipelines that were built so far and their handles. -/
structure Accounted (c : Catalog τ η) (log : List (PipelineId × η)) : Prop where
  /-- The handles that were built are those held and those released. -/
  balance : c.handlesBuilt.Perm (c.handlesHeld ++ c.handlesReleased)
  /-- The log has the handles in the order in which the host built them. -/
  logged : log.map Prod.snd = c.handlesBuilt
  /-- No pipeline was built twice. -/
  once : (log.map Prod.fst).Nodup
  /-- A pipeline that was built holds its handle or was disposed of. -/
  past : ∀ entry ∈ log, c.phase? entry.1 = some (.built entry.2) ∨
    c.phase? entry.1 = some .disposed
  /-- What a pipeline holds was built for it. -/
  known : ∀ id handle, c.Holds id handle → (id, handle) ∈ log

namespace Accounted

variable {log : List (PipelineId × η)}

theorem empty : (empty : Catalog τ η).Accounted [] where
  balance := .refl _
  logged := rfl
  once := .nil
  past := fun entry h => absurd h List.not_mem_nil
  known := fun id handle h => by simp [Holds, phase?, held?, Catalog.empty] at h

/-- The books are about the pipelines and what the host did, and about nothing else. -/
theorem of_eq (h : c.Accounted log) (hpipelines : c'.pipelines = c.pipelines)
    (hevents : c'.events = c.events) : c'.Accounted log := by
  cases c
  cases c'
  cases hpipelines
  cases hevents
  exact ⟨h.balance, h.logged, h.once, h.past, h.known⟩

/-- What was built stays built or is disposed of. -/
theorem past_of_carries (h : c.Accounted log) (hcarries : c.Carries c') :
    ∀ entry ∈ log, c'.phase? entry.1 = some (.built entry.2) ∨
      c'.phase? entry.1 = some .disposed := by
  intro entry hentry
  unfold phase?
  rcases h.past entry hentry with hbuilt | hdisposed
  · obtain ⟨p, hp, hphase⟩ := Option.map_eq_some_iff.1 hbuilt
    obtain ⟨q, hq, hlater⟩ := hcarries _ p hp
    rw [hq]
    exact (hlater.built _ hphase).imp (congrArg some) (congrArg some)
  · obtain ⟨p, hp, hphase⟩ := Option.map_eq_some_iff.1 hdisposed
    obtain ⟨q, hq, hlater⟩ := hcarries _ p hp
    rw [hq]
    exact .inr (congrArg some (hlater.disposed hphase))

theorem disposeOf (h : c.Accounted log) (id : PipelineId) : (c.disposeOf id).Accounted log := by
  obtain ⟨hevents, hheld⟩ := releases_disposeOf c id
  generalize ((c.held? id).bind Pipeline.handle?).toList = handles at hevents hheld
  have hbuilt : (c.disposeOf id).handlesBuilt = c.handlesBuilt := by
    simp [handlesBuilt, hevents, List.filterMap_append, Function.comp_def, HostEvent.builtHandle?]
  have hreleased : (c.disposeOf id).handlesReleased = c.handlesReleased ++ handles := by
    simp [handlesReleased, hevents, List.filterMap_append, Function.comp_def,
      HostEvent.releasedHandle?]
  refine ⟨?_, h.logged.trans hbuilt.symm, h.once, h.past_of_carries (carries_disposeOf c id), ?_⟩
  · rw [hbuilt, hreleased]
    calc c.handlesBuilt
        ~ c.handlesHeld ++ c.handlesReleased := h.balance
      _ ~ handles ++ (c.disposeOf id).handlesHeld ++ c.handlesReleased := hheld.append_right _
      _ ~ (c.disposeOf id).handlesHeld ++ (c.handlesReleased ++ handles) := by
          rw [List.append_assoc, ← List.append_assoc (c.disposeOf id).handlesHeld]
          exact List.perm_append_comm
  · intro other handle hholds
    rw [Holds, phase?_disposeOf] at hholds
    split at hholds
    · obtain ⟨_, -, hphase⟩ := Option.map_eq_some_iff.1 hholds
      cases hphase
    · exact h.known other handle hholds

theorem disposeAll (h : c.Accounted log) (ids : List PipelineId) :
    (ids.foldl Catalog.disposeOf c).Accounted log := by
  induction ids generalizing c with
  | nil => exact h
  | cons id ids ih => exact ih (h.disposeOf id)

/-- A pipeline that is registered holds no handle yet. -/
theorem register (h : c.Accounted log) (hp : p.handle? = none) :
    (c.register p).2.Accounted log := by
  have henlisted : (c.enlisted p).Accounted log := by
    have hheld : (c.enlisted p).handlesHeld = c.handlesHeld := by
      simp [handlesHeld, enlisted, hp]
    have hphase : ∀ id, (c.enlisted p).phase? id =
        if id = c.pipelines.length then some p.phase else c.phase? id := by
      intro id
      unfold phase?
      rw [held?_enlisted]
      split <;> rfl
    refine ⟨hheld ▸ h.balance, h.logged, h.once, ?_, ?_⟩
    · intro entry hentry
      have hlt : entry.1 < c.pipelines.length := by
        have hsome : (c.phase? entry.1).isSome = true := by
          rcases h.past entry hentry with heq | heq <;> rw [heq] <;> rfl
        rw [phase?, Option.isSome_map] at hsome
        obtain ⟨q, hq⟩ := Option.isSome_iff_exists.1 hsome
        exact (List.getElem?_eq_some_iff.1 hq).1
      rw [hphase, if_neg (Nat.ne_of_lt hlt)]
      exact h.past entry hentry
    · intro id handle hholds
      rw [Holds, hphase] at hholds
      split at hholds
      · have hbuilt := Pipeline.handle?_eq_some_iff.2 (Option.some.inj hholds)
        rw [hp] at hbuilt
        cases hbuilt
      · exact h.known id handle hholds
  rw [register_snd]
  cases c.index.get? p.name with
  | none => exact henlisted
  | some old => exact henlisted.disposeOf old

/-- A pipeline that is built was never built before. -/
theorem buildOf (h : c.Accounted log) (answer : BuildRequest τ → Except Cause η) (template : τ)
    (id : PipelineId) :
    (c.buildOf answer template id).2.Accounted
      (log ++ ((c.newHandle? answer template id).map fun handle => (id, handle)).toList) := by
  have hcarries := carries_buildOf c answer template id
  rcases buildOf_cases c answer template id with
    ⟨hnone, heq⟩ | ⟨p, handle, hid, hphase, hsome, heq⟩
  · rw [hnone, heq]
    simpa using h
  · rw [heq] at hcarries ⊢
    rw [hsome, Option.map_some, Option.toList_some]
    have hnohandle : p.handle? = none := by
      unfold Pipeline.handle?
      rw [hphase]
    have hheld := handlesHeld_update hid
      ({ p with phase := .built handle }, [.built (p.request template) handle])
    rw [hnohandle, Option.toList_none, List.nil_append] at hheld
    generalize hafter : c.update id
      ({ p with phase := .built handle }, [.built (p.request template) handle]) = after
      at hcarries hheld ⊢
    have hbuilt : after.handlesBuilt = c.handlesBuilt ++ [handle] := by
      rw [← hafter]
      simp [handlesBuilt, update, HostEvent.builtHandle?]
    have hreleased : after.handlesReleased = c.handlesReleased := by
      rw [← hafter]
      simp [handlesReleased, update, HostEvent.releasedHandle?]
    have hphases : ∀ other, after.phase? other =
        if other = id then some (.built handle) else c.phase? other := by
      intro other
      rw [← hafter, phase?_update hid]
    have hwaiting : c.phase? id = some .waiting := Option.map_eq_some_iff.2 ⟨p, hid, hphase⟩
    refine ⟨?_, ?_, ?_, ?_, ?_⟩
    · rw [hbuilt, hreleased]
      calc c.handlesBuilt ++ [handle]
          ~ c.handlesHeld ++ c.handlesReleased ++ [handle] := h.balance.append_right _
        _ ~ handle :: c.handlesHeld ++ c.handlesReleased := List.perm_append_singleton ..
        _ ~ after.handlesHeld ++ c.handlesReleased := hheld.symm.append_right _
    · rw [List.map_append, h.logged, hbuilt]
      rfl
    · rw [List.map_append, List.map_singleton]
      refine List.nodup_append.2 ⟨h.once, List.nodup_singleton _, ?_⟩
      intro a ha b hb hab
      rw [List.mem_singleton.1 hb] at hab
      obtain ⟨entry, hentry, rfl⟩ := List.mem_map.1 ha
      -- The log has only pipelines that do not wait any more.
      rcases h.past entry hentry with heq | heq <;> rw [hab, hwaiting] at heq <;> cases heq
    · intro entry hentry
      rcases List.mem_append.1 hentry with hold | hnew
      · exact h.past_of_carries hcarries entry hold
      · rw [List.mem_singleton.1 hnew, hphases, if_pos rfl]
        exact .inl rfl
    · intro other handle' hholds
      rw [Holds, hphases] at hholds
      rw [List.mem_append]
      split at hholds
      · next ho =>
          cases hholds
          exact .inr (List.mem_singleton.2 (by rw [ho]))
      · exact .inl (h.known other handle' hholds)

/-- **Every step keeps the books balanced.** -/
theorem afterStep (h : c.Accounted log) {step : CatalogStep τ η}
    (hnew : ∀ p, step = .call (.register p) → p.handle? = none) :
    (c.afterStep step).Accounted (log ++ c.stepBuilds step) := by
  cases step with
  | build answer template id => exact h.buildOf answer template id
  | dispose id =>
      simp only [stepBuilds, List.append_nil]
      exact h.disposeOf id
  | call call =>
      cases call with
      | activate answer name template =>
          change (c.activate answer name template).2.Accounted _
          rw [activate_snd, stepBuilds]
          cases c.index.get? name with
          | none => simpa using h
          | some id => exact h.buildOf answer template id
      | register p =>
          simp only [stepBuilds, List.append_nil]
          exact h.register (hnew p rfl)
      | setOverride host custom =>
          simp only [stepBuilds, List.append_nil]
          change (c.setOverride host custom).2.Accounted log
          rw [setOverride_snd]
          exact h.of_eq rfl rfl
      | removeOverride host =>
          simp only [stepBuilds, List.append_nil]
          exact h.of_eq rfl rfl
      | setEnabled enabled =>
          simp only [stepBuilds, List.append_nil]
          exact h.of_eq rfl rfl
      | clear =>
          simp only [stepBuilds, List.append_nil]
          exact (h.disposeAll c.slots).of_eq rfl rfl

/-- So does every history. -/
theorem after (h : c.Accounted log) {steps : List (CatalogStep τ η)}
    (hnew : ∀ p, .call (.register p) ∈ steps → p.handle? = none) :
    (c.after steps).Accounted (log ++ c.builds steps) := by
  induction steps using List.reverseRecOn with
  | nil => simpa [builds, Catalog.after] using h
  | append_singleton steps step ih =>
      have hbefore := ih fun p hp => hnew p (List.mem_append_left _ hp)
      rw [after_concat, builds_concat, ← List.append_assoc]
      exact hbefore.afterStep fun p hp => hnew p (by simp [hp])

end Accounted

/-! ### Held by one, or released once -/

section Once

variable [DecidableEq η]

/-- The handle is held by one pipeline, and was not released. -/
def HeldOnce (c : Catalog τ η) (id : PipelineId) (handle : η) : Prop :=
  (∀ other, c.Holds other handle ↔ other = id) ∧ c.handlesReleased.count handle = 0

/-- The handle was released once, and nobody holds it. -/
def ReleasedOnce (c : Catalog τ η) (handle : η) : Prop :=
  (∀ id, ¬ c.Holds id handle) ∧ c.handlesReleased.count handle = 1

namespace Accounted

variable {log : List (PipelineId × η)}

theorem count_built (h : c.Accounted log) (handle : η) :
    c.handlesBuilt.count handle =
      c.handlesHeld.count handle + c.handlesReleased.count handle := by
  rw [h.balance.count_eq, List.count_append]

/-- If the host never built a handle twice, the handles in the books are held by the pipelines they
were built for, or were released. -/
theorem settled (h : c.Accounted log) (hdistinct : c.handlesBuilt.Nodup)
    {entry : PipelineId × η} (hentry : entry ∈ log) :
    c.HeldOnce entry.1 entry.2 ∨ c.ReleasedOnce entry.2 := by
  have hbuilt : c.handlesBuilt.count entry.2 = 1 :=
    List.count_eq_one_of_mem hdistinct (h.logged ▸ List.mem_map_of_mem hentry)
  have hcount := h.count_built entry.2
  -- The log has the handle once, so no other pipeline can hold it.
  have honly : ∀ id, c.Holds id entry.2 → id = entry.1 := by
    intro id hid
    have hnodup : (log.map Prod.snd).Nodup := h.logged ▸ hdistinct
    exact congrArg Prod.fst (List.inj_on_of_nodup_map hnodup (h.known id entry.2 hid) hentry rfl)
  rcases h.past entry hentry with hholds | hdisposed
  · have hheld : 0 < c.handlesHeld.count entry.2 :=
      List.count_pos_iff.2 (mem_handlesHeld.2 ⟨entry.1, hholds⟩)
    refine .inl ⟨fun id => ⟨honly id, fun hid => hid ▸ hholds⟩, by omega⟩
  · have hnobody : ∀ id, ¬ c.Holds id entry.2 := by
      intro id hid
      have hphase : c.phase? entry.1 = some (.built entry.2) := honly id hid ▸ hid
      rw [hdisposed] at hphase
      cases hphase
    have hheld : c.handlesHeld.count entry.2 = 0 :=
      List.count_eq_zero.2 fun hmem => (mem_handlesHeld.1 hmem).elim hnobody
    exact .inr ⟨hnobody, by omega⟩

end Accounted

end Once

/-! ### What is never built -/

theorem waiting_of_newHandle? {answer : BuildRequest τ → Except Cause η} {template : τ}
    (h : c.newHandle? answer template id = some handle) : c.phase? id = some .waiting := by
  obtain ⟨p, hp, hanswer⟩ := Option.bind_eq_some_iff.1 h
  split at hanswer
  · next hwaiting =>
      exact Option.map_eq_some_iff.2 ⟨p, hp, Pipeline.isWaiting_iff.1 hwaiting⟩
  · cases hanswer

/-- A step builds a pipeline that waits. -/
theorem waiting_of_mem_stepBuilds {step : CatalogStep τ η}
    (h : (id, handle) ∈ c.stepBuilds step) : c.phase? id = some .waiting := by
  have hnew : ∀ {answer : BuildRequest τ → Except Cause η} {template : τ} {other : PipelineId},
      (id, handle) ∈ ((c.newHandle? answer template other).map fun h => (other, h)).toList →
        c.phase? id = some .waiting := by
    intro answer template other hmem
    obtain ⟨handle', hhandle, heq⟩ := Option.map_eq_some_iff.1 (Option.mem_toList.1 hmem)
    cases heq
    exact waiting_of_newHandle? hhandle
  unfold stepBuilds at h
  split at h
  · split at h
    · cases h
    · exact hnew h
  · exact hnew h
  · cases h

/-- **What was disposed of is never built again.** -/
theorem not_built_of_disposed (steps : List (CatalogStep τ η)) :
    ∀ {c : Catalog τ η}, c.phase? id = some .disposed →
      (c.after steps).phase? id = some .disposed ∧ ∀ handle, (id, handle) ∉ c.builds steps := by
  induction steps with
  | nil => exact fun h => ⟨h, fun _ => List.not_mem_nil⟩
  | cons step steps ih =>
      intro c h
      obtain ⟨hafter, hrest⟩ := ih (disposed_afterStep step h)
      refine ⟨hafter, fun handle hmem => ?_⟩
      rcases List.mem_append.1 hmem with hfirst | hlater
      · have hwaiting := waiting_of_mem_stepBuilds hfirst
        rw [h] at hwaiting
        cases hwaiting
      · exact hrest handle hlater

/-- A build that fails changes nothing, and its failure names the pipeline. -/
theorem buildOf_of_error {answer : BuildRequest τ → Except Cause η} {template : τ} {cause : Cause}
    (hid : c.held? id = some p) (hphase : p.phase = .waiting)
    (hanswer : answer (p.request template) = .error cause) :
    c.buildOf answer template id = (.error (.pipelineBuild p.name cause), c) := by
  simp only [buildOf, hid, Pipeline.build, hphase, hanswer]

/-! ### The fate of every handle -/

/-- **A handle is held by one pipeline or was released once.**  Take any history of a catalog and of
the pipelines it was handed, and a host that never builds a handle twice and may fail at any time.

* Every handle that was built is held by the pipeline it was built for, and by no other, and was not
  released; or it was released once, and nobody holds it.  Nothing else is held or released.
* No pipeline was built twice, and one that was disposed of was never built after that.
* A build that fails leaves the catalog with all its pipelines as it was.
* If the catalog is cleared then, every pipeline that was ever registered is disposed of, and every
  handle has been released once. -/
theorem held_or_released_once [DecidableEq η] (steps : List (CatalogStep τ η))
    (hnew : ∀ p, .call (.register p) ∈ steps → p.handle? = none)
    (hdistinct : ((empty : Catalog τ η).after steps).handlesBuilt.Nodup) :
    let start : Catalog τ η := empty
    let c := start.after steps
    (((start.builds steps).map Prod.snd = c.handlesBuilt ∧
          ∀ entry ∈ start.builds steps, c.HeldOnce entry.1 entry.2 ∨ c.ReleasedOnce entry.2) ∧
        ∀ handle, (handle ∈ c.handlesReleased ∨ ∃ id, c.Holds id handle) →
          handle ∈ c.handlesBuilt) ∧
      (((start.builds steps).map Prod.fst).Nodup ∧
        ∀ front rest, steps = front ++ rest → ∀ id,
          (start.after front).phase? id = some .disposed →
            c.phase? id = some .disposed ∧
              ∀ handle, (id, handle) ∉ (start.after front).builds rest) ∧
      (∀ (answer : BuildRequest τ → Except Cause η) (template : τ) (id : PipelineId)
          (p : Pipeline η) (cause : Cause), c.held? id = some p → p.phase = .waiting →
          answer (p.request template) = .error cause →
            c.buildOf answer template id = (.error (.pipelineBuild p.name cause), c) ∧
              (c.index.get? p.name = some id →
                c.activate answer p.name template = (.error (.pipelineBuild p.name cause), c))) ∧
      (∀ id p, c.clear.held? id = some p → p.phase = .disposed) ∧
        ∀ entry ∈ start.builds steps, c.clear.ReleasedOnce entry.2 := by
  intro start c
  have hbooks : c.Accounted (start.builds steps) := by
    have h := Accounted.empty.after hnew
    rwa [List.nil_append] at h
  have hmanaged : c.Managed := Managed.empty.after steps
  have hcleared : c.clear.Accounted (start.builds steps) :=
    (hbooks.disposeAll c.slots).of_eq rfl rfl
  refine ⟨⟨⟨hbooks.logged, fun entry hentry => hbooks.settled hdistinct hentry⟩, ?_⟩,
    ⟨hbooks.once, ?_⟩, ?_, fun id p => hmanaged.phase_clear, ?_⟩
  · intro handle hhandle
    refine hbooks.balance.mem_iff.2 (List.mem_append.2 ?_)
    exact hhandle.symm.imp_left mem_handlesHeld.2
  · rintro front rest rfl id hid
    have h := not_built_of_disposed rest hid
    rwa [← after_append] at h
  · intro answer template id p cause hid hphase hanswer
    have hbuild := buildOf_of_error hid hphase hanswer
    exact ⟨hbuild, fun hname => by simp only [activate, hname, hbuild]⟩
  · intro entry hentry
    have hbuilt : c.clear.handlesBuilt = c.handlesBuilt :=
      hcleared.logged.symm.trans hbooks.logged
    refine (hcleared.settled (hbuilt ▸ hdistinct) hentry).resolve_left fun hheld => ?_
    -- After clearing no pipeline holds a handle.
    have hholds := (hheld.1 entry.1).2 rfl
    obtain ⟨p, hp, hphase⟩ := Option.map_eq_some_iff.1 hholds
    rw [hmanaged.phase_clear hp] at hphase
    cases hphase

/-- A pipeline of two empty shaders. -/
def bare (name : String) : Pipeline η where
  name := name
  pack := Pack.named "bare" "1.0"
  vertex := ⟨name, .vertex, [], none, ⟨List.replicate 32 0, by decide⟩, false⟩
  fragment := ⟨name, .fragment, [], none, ⟨List.replicate 32 0, by decide⟩, false⟩
  geometry := none
  drawState := .ofSpec {}

/-- A pipeline that is built at the second try, replaced, and asked for again by whoever held on to
it, while its successor is built directly, disposed of, and asked for by name; and another one that
is still built in the end. -/
theorem held_or_released_once_replaced :
    let answer : Nat → BuildRequest Unit → Except Cause Nat := fun handle _ => .ok handle
    let failing : BuildRequest Unit → Except Cause Nat := fun _ => .error ⟨"device lost", []⟩
    let steps : List (CatalogStep Unit Nat) :=
      [.call (.register (bare "a")), .call (.activate failing "a" ()),
        .call (.activate (answer 1) "a" ()), .call (.register (bare "a")),
        .build (answer 2) () 0, .build (answer 3) () 1, .dispose 1,
        .call (.activate (answer 4) "a" ()), .call (.register (bare "b")),
        .call (.activate (answer 5) "b" ())]
    let c := (empty : Catalog Unit Nat).after steps
    (∀ p, .call (.register p) ∈ steps → p.handle? = none) ∧ c.handlesBuilt.Nodup ∧
      (empty : Catalog Unit Nat).builds steps = [(0, 1), (1, 3), (2, 5)] ∧
      c.ReleasedOnce 1 ∧ c.ReleasedOnce 3 ∧ c.HeldOnce 2 5 ∧ c.clear.ReleasedOnce 5 := by
  intro answer failing steps c
  have hnew : ∀ p, .call (.register p) ∈ steps → p.handle? = none := by
    intro p hp
    simp only [steps, List.mem_cons, CatalogStep.call.injEq, CatalogCall.register.injEq,
      reduceCtorEq, List.not_mem_nil, or_false, false_or] at hp
    rcases hp with rfl | rfl | rfl <;> rfl
  have hlog : (empty : Catalog Unit Nat).builds steps = [(0, 1), (1, 3), (2, 5)] := by
    decide +kernel
  have hreleased : c.handlesReleased = [1, 3] := by decide +kernel
  have hdistinct : c.handlesBuilt.Nodup := by decide +kernel
  obtain ⟨⟨⟨-, hfate⟩, -⟩, -, -, -, hcleared⟩ := held_or_released_once steps hnew hdistinct
  rw [hlog] at hfate hcleared
  -- What was released decides which of the two fates a handle has.
  have hcount : ∀ handle, c.handlesReleased.count handle = [1, 3].count handle := fun handle => by
    rw [hreleased]
  have first := (hfate (0, 1) (by simp)).resolve_left fun h => by
    have := h.2.symm.trans (hcount 1); revert this; decide
  have second := (hfate (1, 3) (by simp)).resolve_left fun h => by
    have := h.2.symm.trans (hcount 3); revert this; decide
  have third := (hfate (2, 5) (by simp)).resolve_right fun h => by
    have := h.2.symm.trans (hcount 5); revert this; decide
  exact ⟨hnew, hdistinct, hlog, first, second, third, hcleared (2, 5) (by simp)⟩

end Catalog

end Shaderworks
