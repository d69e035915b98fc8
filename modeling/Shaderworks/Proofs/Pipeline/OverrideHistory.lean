/-
**What overrides a host pipeline, read off the calls.**

Three things decide which handle is bound in the stead of a host pipeline: whether overriding is
enabled, which name the host pipeline is routed to, and whether the pipeline of that name was built.
Each of them is settled by the latest call of some kind.  Clearing is of every kind, so nothing
before it counts.

Main definitions:

* `Catalog.afterCalls` — the catalog after some calls;
* `CatalogCall.Latest` — the latest call of a kind, with the calls before and after it;
* `CatalogCall.Switches`, `CatalogCall.Enters`, `CatalogCall.Reroutes` — the three kinds;
* `CatalogCall.InUse` — the calls leave a name in use;
* `Pipeline.builtBy?` — the handle that a call gives to a pipeline.

Main results:

* `CatalogCall.settled_by_latest` — what the latest call of a kind settles;
* `Catalog.enabled_iff`, `Catalog.overrides_iff`, `Catalog.get?_eq_some_iff` — the three, each from
  its latest call;
* `Catalog.override?_eq_some_iff` — **the handle that is bound, from the calls alone.**
-/

import Shaderworks.Proofs.Pipeline.Accounts

set_option autoImplicit false

namespace Shaderworks

variable {τ η : Type}

namespace Catalog

/-- The catalog after some calls. -/
def afterCalls (c : Catalog τ η) (calls : List (CatalogCall τ η)) : Catalog τ η :=
  calls.foldl afterCall c

theorem afterCalls_concat (c : Catalog τ η) (calls : List (CatalogCall τ η))
    (call : CatalogCall τ η) : c.afterCalls (calls ++ [call]) = (c.afterCalls calls).afterCall call :=
  List.foldl_concat ..

/-- Calls are steps. -/
theorem after_map_call (c : Catalog τ η) (calls : List (CatalogCall τ η)) :
    c.after (calls.map .call) = c.afterCalls calls := by
  rw [after, List.foldl_map]
  rfl

end Catalog

/-! ### The latest call of a kind -/

namespace CatalogCall

/-- The latest call of a kind, with the calls before it and those since.  Whether a call is of the
kind may depend on the calls before it. -/
def Latest (kind : List (CatalogCall τ η) → CatalogCall τ η → Prop)
    (calls before : List (CatalogCall τ η)) (call : CatalogCall τ η)
    (since : List (CatalogCall τ η)) : Prop :=
  calls = before ++ call :: since ∧ kind before call ∧
    ∀ mid next rest, since = mid ++ next :: rest → ¬ kind (before ++ call :: mid) next

/-- The calls that say whether overriding is enabled. -/
def Switches (_ : List (CatalogCall τ η)) : CatalogCall τ η → Prop
  | .setEnabled _ => True
  | .clear => True
  | _ => False

/-- The calls that say which pipeline a name has. -/
def Enters (name : String) (_ : List (CatalogCall τ η)) : CatalogCall τ η → Prop
  | .register p => p.name = name
  | .clear => True
  | _ => False

/-- The calls leave a name in use: a pipeline of that name was registered, and nothing was cleared
since. -/
def InUse (calls : List (CatalogCall τ η)) (name : String) : Prop :=
  ∃ before p since, Latest (Enters name) calls before (.register p) since

/-- The calls that say what a host pipeline is routed to.  Routing it to a name that is not in use is
refused. -/
def Reroutes (host : String) (before : List (CatalogCall τ η)) : CatalogCall τ η → Prop
  | .setOverride other custom => other = host ∧ InUse before custom
  | .removeOverride other => other = host
  | .clear => True
  | _ => False

variable {kind : List (CatalogCall τ η) → CatalogCall τ η → Prop}
  {calls before since : List (CatalogCall τ η)} {call next : CatalogCall τ η}

theorem not_latest_nil : ¬ Latest kind [] before call since := by
  rintro ⟨h, -⟩
  simp at h

/-- A call of the kind is the latest from then on. -/
theorem latest_concat (h : kind calls next) : Latest kind (calls ++ [next]) calls next [] :=
  ⟨rfl, h, fun _ _ _ hsince => by simp at hsince⟩

/-- A call of another kind leaves the latest one as it was. -/
theorem Latest.concat (h : Latest kind calls before call since) (hnext : ¬ kind calls next) :
    Latest kind (calls ++ [next]) before call (since ++ [next]) := by
  obtain ⟨rfl, hcall, hsince⟩ := h
  refine ⟨by simp, hcall, fun mid other rest heq => ?_⟩
  rcases List.eq_nil_or_concat' rest with rfl | ⟨rest, last, rfl⟩
  · obtain ⟨rfl, hlast⟩ := List.append_inj' heq rfl
    cases hlast
    exact hnext
  · rw [← List.cons_append, ← List.append_assoc] at heq
    exact hsince mid other rest (List.append_inj' heq rfl).1

/-- There is at most one latest call. -/
theorem Latest.unique {before' since' : List (CatalogCall τ η)} {call' : CatalogCall τ η}
    (h : Latest kind calls before call since) (h' : Latest kind calls before' call' since') :
    before = before' ∧ call = call' ∧ since = since' := by
  obtain ⟨rfl, hcall, hsince⟩ := h
  obtain ⟨heq, hcall', hsince'⟩ := h'
  rcases List.append_eq_append_iff.1 heq with ⟨mid, hbefore, hrest⟩ | ⟨mid, hbefore, hrest⟩
  · cases mid with
    | nil => simp_all
    | cons first mid =>
        rw [List.cons_append, List.cons.injEq] at hrest
        obtain ⟨rfl, hrest⟩ := hrest
        exact absurd (hbefore ▸ hcall') (hsince mid call' since' hrest)
  · cases mid with
    | nil => simp_all
    | cons first mid =>
        rw [List.cons_append, List.cons.injEq] at hrest
        obtain ⟨rfl, hrest⟩ := hrest
        exact absurd (hbefore ▸ hcall) (hsince' mid call since hrest)

/-- **What the latest call of a kind settles.**  Something is observed after calls; a call of the
kind gives it a value, and the calls since then change that value in their own way. -/
theorem settled_by_latest {α : Type} (kind : List (CatalogCall τ η) → CatalogCall τ η → Prop)
    (observed : List (CatalogCall τ η) → Option α)
    (value : CatalogCall τ η → List (CatalogCall τ η) → Option α)
    (hnil : observed [] = none)
    (hkind : ∀ calls next, kind calls next → observed (calls ++ [next]) = value next [])
    (hnone : ∀ calls next, ¬ kind calls next → observed calls = none →
      observed (calls ++ [next]) = none)
    (hother : ∀ calls next call since, ¬ kind calls next → observed calls = value call since →
      observed (calls ++ [next]) = value call (since ++ [next]))
    (calls : List (CatalogCall τ η)) (v : α) :
    observed calls = some v ↔
      ∃ before call since, Latest kind calls before call since ∧ value call since = some v := by
  -- Either no call was of the kind, or the latest one gives the value.
  have hsettled : (observed calls = none ∧ ∀ before call since,
        ¬ Latest kind calls before call since) ∨
      ∃ before call since, Latest kind calls before call since ∧
        observed calls = value call since := by
    induction calls using List.reverseRecOn with
    | nil => exact .inl ⟨hnil, fun _ _ _ => not_latest_nil⟩
    | append_singleton calls next ih =>
        by_cases hnext : kind calls next
        · exact .inr ⟨calls, next, [], latest_concat hnext, hkind calls next hnext⟩
        · rcases ih with ⟨hobserved, hnolatest⟩ | ⟨before, call, since, hlatest, hobserved⟩
          · refine .inl ⟨hnone calls next hnext hobserved, ?_⟩
            rintro before call since ⟨heq, hcall, hsince⟩
            rcases List.eq_nil_or_concat' since with rfl | ⟨since, last, rfl⟩
            · obtain ⟨rfl, hlast⟩ := List.append_inj' heq rfl
              cases hlast
              exact hnext hcall
            · rw [← List.cons_append, ← List.append_assoc] at heq
              refine hnolatest before call since ⟨(List.append_inj' heq rfl).1, hcall, ?_⟩
              rintro mid other rest rfl
              exact hsince mid other (rest ++ [last]) (by simp)
          · exact .inr ⟨before, call, since ++ [next], hlatest.concat hnext,
              hother calls next call since hnext hobserved⟩
  rcases hsettled with ⟨hobserved, hnolatest⟩ | ⟨before, call, since, hlatest, hobserved⟩
  · rw [hobserved]
    refine iff_of_false (by simp) ?_
    rintro ⟨before, call, since, hlatest, -⟩
    exact hnolatest before call since hlatest
  · rw [hobserved]
    refine ⟨fun h => ⟨before, call, since, hlatest, h⟩, ?_⟩
    rintro ⟨before', call', since', hlatest', hvalue⟩
    obtain ⟨-, rfl, rfl⟩ := hlatest.unique hlatest'
    exact hvalue

end CatalogCall

/-! ### What calls do to a pipeline -/

namespace Pipeline

/-- The pipeline after the host was asked to build it, if it waits. -/
def afterBuild (p : Pipeline η) (answer : BuildRequest τ → Except Cause η) (template : τ) :
    Pipeline η :=
  match p.build answer template with
  | .ok step => step.1
  | .error _ => p

/-- The pipeline after a call to the catalog that it is in use in. -/
def afterCall (p : Pipeline η) : CatalogCall τ η → Pipeline η
  | .activate answer name template => if name = p.name then p.afterBuild answer template else p
  | _ => p

/-- The handle that a call gives to a waiting pipeline: the pipeline is activated, and the host
builds it. -/
def builtBy? (p : Pipeline η) : CatalogCall τ η → Option η
  | .activate answer name template =>
      if name = p.name then (answer (p.request template)).toOption else none
  | _ => none

variable {p : Pipeline η}

/-- **The first call that builds a waiting pipeline gives it its handle.** -/
theorem handle?_afterCalls (h : p.phase = .waiting) (since : List (CatalogCall τ η)) :
    (since.foldl afterCall p).handle? = since.findSome? p.builtBy? := by
  -- Later calls do not change a pipeline that was built.
  have hbuilt : ∀ (since : List (CatalogCall τ η)) (q : Pipeline η) (handle : η),
      q.phase = .built handle → (since.foldl afterCall q).handle? = some handle := by
    intro since
    induction since with
    | nil => exact fun q handle hq => handle?_eq_some_iff.2 hq
    | cons call since ih =>
        intro q handle hq
        have hsame : q.afterCall call = q := by
          unfold afterCall afterBuild build
          split
          · split <;> simp [hq]
          · rfl
        rw [List.foldl_cons, hsame]
        exact ih q handle hq
  induction since with
  | nil => simp [handle?, h]
  | cons call since ih =>
      rw [List.foldl_cons, List.findSome?_cons]
      cases call with
      | activate answer name template =>
          by_cases hname : name = p.name
          · simp only [afterCall, builtBy?, if_pos hname, afterBuild, build, h]
            cases answer (p.request template) with
            | error cause => exact ih
            | ok handle => exact hbuilt since _ handle rfl
          · simp only [afterCall, builtBy?, if_neg hname]
            exact ih
      | _ => exact ih

end Pipeline

namespace Catalog

variable {c : Catalog τ η} {name : String}

theorem held?_buildOf (c : Catalog τ η) (answer : BuildRequest τ → Except Cause η) (template : τ)
    (id other : PipelineId) :
    (c.buildOf answer template id).2.held? other =
      if other = id then (c.held? id).map fun p => p.afterBuild answer template
      else c.held? other := by
  unfold buildOf
  cases hid : c.held? id with
  | none =>
      by_cases ho : other = id
      · simp [ho, hid]
      · simp [ho]
  | some p =>
      dsimp only
      unfold Pipeline.afterBuild
      cases hbuild : p.build answer template with
      | error failure =>
          by_cases ho : other = id
          · simp [ho, hid, hbuild]
          · simp [ho]
      | ok step =>
          dsimp only
          rw [held?_update hid]
          by_cases ho : other = id
          · simp [ho, hbuild]
          · simp [ho]

/-- Building changes nothing but a phase. -/
theorem buildOf_fields (c : Catalog τ η) (answer : BuildRequest τ → Except Cause η) (template : τ)
    (id : PipelineId) :
    (c.buildOf answer template id).2.index = c.index ∧
      (c.buildOf answer template id).2.overrides = c.overrides ∧
        (c.buildOf answer template id).2.enabled = c.enabled := by
  rcases buildOf_cases c answer template id with ⟨-, heq⟩ | ⟨p, handle, -, -, -, heq⟩
  · rw [heq]
    exact ⟨rfl, rfl, rfl⟩
  · rw [heq]
    exact ⟨rfl, rfl, rfl⟩

/-- Neither does activating. -/
theorem activate_fields (c : Catalog τ η) (answer : BuildRequest τ → Except Cause η)
    (called : String) (template : τ) :
    (c.activate answer called template).2.overrides = c.overrides ∧
      (c.activate answer called template).2.enabled = c.enabled := by
  rw [activate_snd]
  cases c.index.get? called with
  | none => exact ⟨rfl, rfl⟩
  | some id => exact (buildOf_fields c answer template id).2

theorem get?_activate (h : c.Managed) (answer : BuildRequest τ → Except Cause η)
    (called : String) (template : τ) (name : String) :
    (c.activate answer called template).2.get? name =
      (c.get? name).map fun p => p.afterCall (.activate answer called template) := by
  have hafter := h.afterCall (.activate answer called template)
  change (c.activate answer called template).2.Managed at hafter
  rw [hafter.get?_eq, h.get?_eq, activate_snd]
  cases hcalled : c.index.get? called with
  | none =>
      dsimp only
      cases hname : c.index.get? name with
      | none => rfl
      | some id =>
          obtain ⟨p, hp, hpname⟩ := h.named name id hname
          have hne : called ≠ p.name := by
            rw [hpname]
            rintro rfl
            rw [hname] at hcalled
            cases hcalled
          simp [hp, Pipeline.afterCall, hne]
  | some built =>
      dsimp only
      rw [(buildOf_fields c answer template built).1]
      cases hname : c.index.get? name with
      | none => rfl
      | some id =>
          obtain ⟨p, hp, hpname⟩ := h.named name id hname
          rw [Option.bind_some, Option.bind_some, held?_buildOf, hp, Option.map_some]
          by_cases heq : called = name
          · subst heq
            rw [hname, Option.some.injEq] at hcalled
            rw [if_pos hcalled, ← hcalled, hp, Option.map_some, Pipeline.afterCall,
              if_pos hpname.symm]
          · have hne : id ≠ built := fun hid => heq (h.name_unique hcalled (hid ▸ hname))
            have hother : called ≠ p.name := hpname ▸ heq
            rw [if_neg hne, Pipeline.afterCall, if_neg hother]

/-- What a call does to the pipeline of a name that it does not enter. -/
theorem get?_afterCall (h : c.Managed) {calls : List (CatalogCall τ η)} {call : CatalogCall τ η}
    (hother : ¬ CatalogCall.Enters name calls call) :
    (c.afterCall call).get? name = (c.get? name).map fun p => p.afterCall call := by
  have hsame : (c.get? name).map (fun p => p) = c.get? name := Option.map_id'
  cases call with
  | register p =>
      change (c.register p).2.get? name = (c.get? name).map fun p => p
      rw [get?_register p h.toIndexed, if_neg fun heq => hother heq.symm, hsame]
  | activate answer called template => exact get?_activate h answer called template name
  | setOverride host custom =>
      change (c.setOverride host custom).2.get? name = (c.get? name).map fun p => p
      rw [hsame, setOverride_snd]
      rfl
  | removeOverride host => exact hsame.symm
  | setEnabled enabled => exact hsame.symm
  | clear => exact absurd trivial hother

/-! ### What the latest calls settle -/

section Latest

open CatalogCall

/-- The empty catalog after some calls. -/
theorem managed_afterCalls (calls : List (CatalogCall τ η)) :
    ((empty : Catalog τ η).afterCalls calls).Managed :=
  after_map_call empty calls ▸ Managed.empty.after _

variable (calls : List (CatalogCall τ η))

/-- **The pipeline of a name** is the one that was registered under it last, and has gone through
the calls since. -/
theorem get?_eq_some_iff (name : String) (q : Pipeline η) :
    ((empty : Catalog τ η).afterCalls calls).get? name = some q ↔
      ∃ before p since, Latest (Enters name) calls before (.register p) since ∧
        since.foldl Pipeline.afterCall p = q := by
  let value : CatalogCall τ η → List (CatalogCall τ η) → Option (Pipeline η)
    | .register p, since => some (since.foldl Pipeline.afterCall p)
    | _, _ => none
  refine Iff.trans (settled_by_latest (Enters name)
    (fun calls => ((empty : Catalog τ η).afterCalls calls).get? name) value
    (blank_empty.get?_eq name) ?_ ?_ ?_ calls q) ?_
  · intro calls next hnext
    simp only [afterCalls_concat]
    cases next with
    | register p =>
        exact (get?_register p (managed_afterCalls calls).toIndexed name).trans
          (if_pos (Eq.symm hnext))
    | clear => exact (blank_clear _).get?_eq name
    | _ => exact absurd hnext id
  · intro calls next hnext hnone
    simp only [afterCalls_concat] at hnone ⊢
    rw [get?_afterCall (managed_afterCalls calls) hnext, hnone, Option.map_none]
  · intro calls next call since hnext hvalue
    simp only [afterCalls_concat] at hvalue ⊢
    rw [get?_afterCall (managed_afterCalls calls) hnext, hvalue]
    cases call with
    | register p => exact congrArg some (List.foldl_concat ..).symm
    | _ => rfl
  · constructor
    · rintro ⟨before, call, since, hlatest, hvalue⟩
      cases call with
      | register p => exact ⟨before, p, since, hlatest, Option.some.inj hvalue⟩
      | _ => cases hvalue
    · rintro ⟨before, p, since, hlatest, hq⟩
      exact ⟨before, _, since, hlatest, congrArg some hq⟩

/-- Overriding a host pipeline succeeds when the other name is in use. -/
theorem contains_iff_inUse (custom : String) :
    ((empty : Catalog τ η).afterCalls calls).contains custom = true ↔ InUse calls custom := by
  rw [(managed_afterCalls calls).contains_iff]
  constructor
  · rintro ⟨q, hq⟩
    obtain ⟨before, p, since, hlatest, -⟩ := (get?_eq_some_iff calls custom q).1 hq
    exact ⟨before, p, since, hlatest⟩
  · rintro ⟨before, p, since, hlatest⟩
    exact ⟨_, (get?_eq_some_iff calls custom _).2 ⟨before, p, since, hlatest, rfl⟩⟩

/-- **Overriding is enabled** if it was enabled last. -/
theorem enabled_iff :
    ((empty : Catalog τ η).afterCalls calls).enabled = true ↔
      ∃ before since, Latest Switches calls before (.setEnabled true) since := by
  let value : CatalogCall τ η → List (CatalogCall τ η) → Option Unit
    | .setEnabled true, _ => some ()
    | _, _ => none
  let observed (calls : List (CatalogCall τ η)) : Option Unit :=
    if ((empty : Catalog τ η).afterCalls calls).enabled = true then some () else none
  -- A call that does not switch leaves overriding enabled or disabled.
  have hother : ∀ (calls : List (CatalogCall τ η)) next, ¬ Switches calls next →
      observed (calls ++ [next]) = observed calls := by
    intro calls next hnext
    simp only [observed, afterCalls_concat]
    cases next with
    | register p =>
        change (if ((empty.afterCalls calls).register p).2.enabled = true then _ else _) = _
        rw [(register_fields _ p).2.2.2]
    | activate answer name template =>
        change (if ((empty.afterCalls calls).activate answer name template).2.enabled = true
          then _ else _) = _
        rw [(activate_fields _ answer name template).2]
    | setOverride host custom =>
        change (if ((empty.afterCalls calls).setOverride host custom).2.enabled = true
          then _ else _) = _
        rw [setOverride_snd]
    | removeOverride host => rfl
    | setEnabled enabled => exact absurd trivial hnext
    | clear => exact absurd trivial hnext
  have hobserved : ((empty : Catalog τ η).afterCalls calls).enabled = true ↔
      observed calls = some () := by
    by_cases h : ((empty : Catalog τ η).afterCalls calls).enabled = true <;> simp [observed, h]
  rw [hobserved, settled_by_latest Switches observed value rfl ?_
    (fun calls next hnext hnone => (hother calls next hnext).trans hnone) ?_ calls ()]
  · constructor
    · rintro ⟨before, call, since, hlatest, hvalue⟩
      cases call with
      | setEnabled enabled =>
          cases enabled with
          | true => exact ⟨before, since, hlatest⟩
          | false => cases hvalue
      | _ => cases hvalue
    · rintro ⟨before, since, hlatest⟩
      exact ⟨before, _, since, hlatest, rfl⟩
  · intro calls next hnext
    simp only [observed, afterCalls_concat]
    cases next with
    | setEnabled enabled => cases enabled <;> rfl
    | clear => rfl
    | _ => exact absurd hnext id
  · intro calls next call since hnext hvalue
    rw [hother calls next hnext, hvalue]
    rcases call with _ | _ | _ | _ | (_ | _) | _ <;> rfl

/-- **What a host pipeline is routed to** is what the last successful override says, unless it was
removed since. -/
theorem overrides_iff (host custom : String) :
    ((empty : Catalog τ η).afterCalls calls).overrides.get? host = some custom ↔
      ∃ before since, Latest (Reroutes host) calls before (.setOverride host custom) since := by
  let value : CatalogCall τ η → List (CatalogCall τ η) → Option String
    | .setOverride _ custom, _ => some custom
    | _, _ => none
  let observed (calls : List (CatalogCall τ η)) : Option String :=
    ((empty : Catalog τ η).afterCalls calls).overrides.get? host
  -- A call that does not reroute the host pipeline leaves its override as it was.
  have hother : ∀ (calls : List (CatalogCall τ η)) next, ¬ Reroutes host calls next →
      observed (calls ++ [next]) = observed calls := by
    intro calls next hnext
    simp only [observed, afterCalls_concat]
    cases next with
    | register p => exact congrArg (Table.get? · host) (register_fields _ p).2.2.1
    | activate answer name template =>
        exact congrArg (Table.get? · host) (activate_fields _ answer name template).1
    | setOverride other custom =>
        change ((empty.afterCalls calls).setOverride other custom).2.overrides.get? host = _
        rw [setOverride_snd]
        dsimp only
        split
        · next hcontains =>
            have hne : host ≠ other := fun heq =>
              hnext ⟨heq.symm, (contains_iff_inUse calls custom).1 hcontains⟩
            exact (Table.get?_put ..).trans (if_neg hne)
        · rfl
    | removeOverride other => exact (Table.get?_erase ..).trans (if_neg fun h => hnext h.symm)
    | setEnabled enabled => rfl
    | clear => exact absurd trivial hnext
  refine Iff.trans (settled_by_latest (Reroutes host) observed value rfl ?_
    (fun calls next hnext hnone => (hother calls next hnext).trans hnone) ?_ calls custom) ?_
  · intro calls next hnext
    simp only [observed, afterCalls_concat]
    cases next with
    | setOverride other custom =>
        obtain ⟨rfl, hinUse⟩ := hnext
        change ((empty.afterCalls calls).setOverride other custom).2.overrides.get? other = _
        rw [setOverride_snd, if_pos ((contains_iff_inUse calls custom).2 hinUse)]
        exact (Table.get?_put ..).trans (if_pos rfl)
    | removeOverride other => exact (Table.get?_erase ..).trans (if_pos (Eq.symm hnext))
    | clear => rfl
    | _ => exact absurd hnext id
  · intro calls next call since hnext hvalue
    rw [hother calls next hnext, hvalue]
    cases call <;> rfl
  · constructor
    · rintro ⟨before, call, since, hlatest, hvalue⟩
      cases call with
      | setOverride other route =>
          cases hvalue
          obtain rfl : other = host := hlatest.2.1.1
          exact ⟨before, since, hlatest⟩
      | _ => cases hvalue
    · rintro ⟨before, since, hlatest⟩
      exact ⟨before, _, since, hlatest, rfl⟩

end Latest

/-! ### Replacing a pipeline that overrides -/

/-- As long as a name is not activated, and new pipelines wait, the pipeline of the name waits. -/
theorem waiting_afterCalls (more : List (CatalogCall τ η))
    (hnew : ∀ p, .register p ∈ more → p.phase = .waiting)
    (hidle : ∀ answer template, .activate answer name template ∉ more) :
    ∀ {c : Catalog τ η}, c.Managed → (∀ q, c.get? name = some q → q.phase = .waiting) →
      ∀ q, (c.afterCalls more).get? name = some q → q.phase = .waiting := by
  induction more with
  | nil => exact fun _ hwaits => hwaits
  | cons call more ih =>
      intro c h hwaits
      refine ih (fun p hp => hnew p (.tail _ hp)) (fun answer template hmem =>
        hidle answer template (.tail _ hmem)) (h.afterCall call) ?_
      intro q hq
      by_cases henters : CatalogCall.Enters name [] call
      · cases call with
        | register p =>
            have hget := (get?_register p h.toIndexed name).trans (if_pos (Eq.symm henters))
            obtain rfl := Option.some.inj (hget.symm.trans hq)
            exact hnew _ List.mem_cons_self
        | clear => cases ((blank_clear c).get?_eq name).symm.trans hq
        | _ => exact absurd henters id
      · rw [get?_afterCall h henters] at hq
        obtain ⟨p, hp, rfl⟩ := Option.map_eq_some_iff.1 hq
        have hphase := hwaits p hp
        cases call with
        | activate answer called template =>
            have hne : called ≠ p.name := by
              rintro rfl
              exact hidle answer template (h.toIndexed.name_of_get? hp ▸ List.mem_cons_self)
            rw [Pipeline.afterCall, if_neg hne]
            exact hphase
        | _ => exact hphase

/-- A pipeline that waits overrides nothing. -/
theorem override?_of_waiting {host : String} (hroute : c.overrides.get? host = some name)
    (hwaits : ∀ q, c.get? name = some q → q.phase = .waiting) : c.override? host = none := by
  unfold override?
  rw [hroute, Option.bind_some]
  split
  · cases hq : c.get? name with
    | none => rfl
    | some q => rw [Option.bind_some, Pipeline.handle?, hwaits q hq]
  · rfl

/-! ### The handle that is bound -/

/-- A handle that is bound is held. -/
theorem held_of_override? {host : String} {handle : η} (h : c.override? host = some handle) :
    handle ∈ c.handlesHeld := by
  unfold override? at h
  split at h
  · obtain ⟨q, hq, hhandle⟩ := Option.bind_eq_some_iff.1 h
    obtain ⟨custom, -, hget⟩ := Option.bind_eq_some_iff.1 hq
    obtain ⟨id, -, hid⟩ := Option.bind_eq_some_iff.1 hget
    unfold byId? at hid
    split at hid
    · exact mem_handlesHeld.2 ⟨id, Option.map_eq_some_iff.2
        ⟨q, hid, Pipeline.handle?_eq_some_iff.1 hhandle⟩⟩
    · cases hid
  · cases h

/-- **What overrides a host pipeline, from the calls alone.**  Take any calls that register waiting
pipelines only, with a host that may fail to build at any time.

* A handle is bound in the stead of a host pipeline exactly when, after the last time everything was
  cleared, overriding was last enabled, the last call that rerouted the host pipeline routed it to
  some name, and since the last registration under that name the pipeline was activated with
  success; the first such activation gave the handle.
* A call that overrides is successful exactly when the name it routes to is in use.
* A handle that is bound was not released since it was built.
* Registering a pipeline again keeps the override, and nothing is bound by it until the pipeline is
  activated. -/
theorem override?_eq_some_iff [DecidableEq η] (calls : List (CatalogCall τ η))
    (hnew : ∀ p, .register p ∈ calls → p.phase = .waiting) (host : String) :
    let c := (empty : Catalog τ η).afterCalls calls
    (∀ handle, c.override? host = some handle ↔
        (∃ before since, CatalogCall.Latest CatalogCall.Switches calls before (.setEnabled true)
          since) ∧
        ∃ custom,
          (∃ before since, CatalogCall.Latest (CatalogCall.Reroutes host) calls before
            (.setOverride host custom) since) ∧
          ∃ before p since, CatalogCall.Latest (CatalogCall.Enters custom) calls before
            (.register p) since ∧ since.findSome? p.builtBy? = some handle) ∧
      (∀ custom, (c.setOverride host custom).1 = true ↔ CatalogCall.InUse calls custom) ∧
      (∀ handle, c.override? host = some handle →
        c.handlesReleased.count handle < c.handlesBuilt.count handle ∧
          (c.handlesBuilt.Nodup → handle ∉ c.handlesReleased)) ∧
      ∀ p : Pipeline η, p.phase = .waiting →
        (c.register p).2.overrides = c.overrides ∧
          ∀ more : List (CatalogCall τ η), (∀ q, .register q ∈ more → q.phase = .waiting) →
            (∀ answer template, .activate answer p.name template ∉ more) →
              ((c.register p).2.afterCalls more).overrides.get? host = some p.name →
                ((c.register p).2.afterCalls more).override? host = none := by
  intro c
  have hmanaged : c.Managed := managed_afterCalls calls
  refine ⟨fun handle => ?_, fun custom => ?_, fun handle hbound => ?_, fun p hp =>
    ⟨(register_fields c p).2.2.1, fun more hmore hidle hroute => ?_⟩⟩
  · rw [← enabled_iff]
    unfold override?
    split
    · next henabled =>
        rw [and_iff_right henabled, Option.bind_assoc, Option.bind_eq_some_iff]
        refine exists_congr fun custom => and_congr (overrides_iff calls host custom) ?_
        rw [Option.bind_eq_some_iff]
        constructor
        · rintro ⟨q, hq, hhandle⟩
          obtain ⟨before, p, since, hlatest, rfl⟩ := (get?_eq_some_iff calls custom q).1 hq
          have hwaits := hnew p (hlatest.1 ▸ by simp)
          exact ⟨before, p, since, hlatest, Pipeline.handle?_afterCalls hwaits since ▸ hhandle⟩
        · rintro ⟨before, p, since, hlatest, hhandle⟩
          have hwaits := hnew p (hlatest.1 ▸ by simp)
          exact ⟨_, (get?_eq_some_iff calls custom _).2 ⟨before, p, since, hlatest, rfl⟩,
            (Pipeline.handle?_afterCalls hwaits since).trans hhandle⟩
    · next hdisabled => exact iff_of_false (by simp) fun h => hdisabled h.1
  · rw [setOverride_fst]
    exact contains_iff_inUse calls custom
  · have hbooks : c.Accounted _ := after_map_call (empty : Catalog τ η) calls ▸
      Accounted.empty.after fun p hp => by
        obtain ⟨call, hcall, heq⟩ := List.mem_map.1 hp
        cases heq
        rw [Pipeline.handle?, hnew p hcall]
    have hheld : 0 < c.handlesHeld.count handle := List.count_pos_iff.2 (held_of_override? hbound)
    have hcount := hbooks.count_built handle
    refine ⟨by omega, fun hdistinct hmem => ?_⟩
    have hreleased := List.count_pos_iff.2 hmem
    have honce := List.nodup_iff_count_le_one.1 hdistinct handle
    omega
  · refine override?_of_waiting hroute
      (waiting_afterCalls more hmore hidle (hmanaged.register p) fun q hq => ?_)
    rw [get?_register p hmanaged.toIndexed, if_pos rfl, Option.some.injEq] at hq
    exact hq ▸ hp

/-- A pipeline that overrides before it is built, is built at the second try, and stays bound when
the host would build it once more; registered again, it is not bound until it is activated. -/
theorem override?_eq_some_iff_replaced :
    let answer : Nat → BuildRequest Unit → Except Cause Nat := fun handle _ => .ok handle
    let failing : BuildRequest Unit → Except Cause Nat := fun _ => .error ⟨"device lost", []⟩
    let calls : List (CatalogCall Unit Nat) :=
      [.clear, .setOverride "host" "a", .register (bare "a"), .setOverride "host" "a",
        .setEnabled true, .activate failing "a" (), .activate (answer 1) "a" (),
        .activate (answer 2) "a" (), .setOverride "host" "b"]
    let c := (empty : Catalog Unit Nat).afterCalls calls
    (∀ p, .register p ∈ calls → p.phase = .waiting) ∧ c.override? "host" = some 1 ∧
      (∃ before p since,
        CatalogCall.Latest (CatalogCall.Enters "a") calls before (.register p) since ∧
          since.findSome? p.builtBy? = some 1) ∧
      1 ∉ c.handlesReleased ∧ ((c.register (bare "a")).2.afterCalls []).override? "host" = none := by
  intro answer failing calls c
  have hnew : ∀ p, .register p ∈ calls → p.phase = .waiting := by
    intro p hp
    simp only [calls, List.mem_cons, CatalogCall.register.injEq, reduceCtorEq, List.not_mem_nil,
      or_false, false_or] at hp
    rw [hp]
    rfl
  have hbound : c.override? "host" = some 1 := by decide +kernel
  have hroute : ∀ custom, c.overrides.get? "host" = some custom → custom = "a" := by
    have h : c.overrides.get? "host" = some "a" := by decide +kernel
    exact fun custom hcustom => Option.some.inj (hcustom.symm.trans h)
  obtain ⟨hiff, -, hreleased, hagain⟩ := override?_eq_some_iff calls hnew "host"
  obtain ⟨-, custom, hcustom, hbuilt⟩ := (hiff 1).1 hbound
  obtain rfl := hroute custom ((overrides_iff calls "host" custom).2 hcustom)
  refine ⟨hnew, hbound, hbuilt, (hreleased 1 hbound).2 (by decide +kernel), ?_⟩
  exact (hagain (bare "a") rfl).2 [] (fun _ h => by cases h) (fun _ _ h => by cases h)
    (by decide +kernel)

end Catalog

end Shaderworks
