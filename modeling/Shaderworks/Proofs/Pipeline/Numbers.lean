/-
**The numbers of pipelines.**

A catalog keeps its pipelines by number, the numbers by name, and the overrides by host pipeline, and
its calls change the three one after the other.  Whatever the calls were, a name has a number exactly
if the pipeline with that number is in use and has that name.  A number that has gone out of use never
comes back, since every registration gives a new one; and an override leads to a name in use, since
names only go out of use when the overrides do.

Main definitions:

* `Catalog.Retired` — a number that was given out and is not in use any more;
* `Catalog.Routed` — every override leads to a name in use.

Main results:

* `Catalog.Indexed.index_eq_some_iff`, `Catalog.Indexed.size_eq` — names and numbers in use
  correspond to each other, so there are as many of the one as of the other;
* `Catalog.Retired.afterCalls` — a retired number stays retired;
* `Catalog.get?_after_register`, `Catalog.byId?_after_register` — what the number of a registration
  leads to while the name is not entered anew, and from then on;
* `Catalog.Routed.afterCall` — no call leaves an override without its pipeline;
* `Catalog.numbers_afterCalls` — **what names, numbers and overrides lead to, after any calls.**
-/

import Shaderworks.Proofs.Pipeline.OverrideHistory

set_option autoImplicit false

namespace Shaderworks.Catalog

open CatalogCall

variable {τ η : Type} {c c' : Catalog τ η} {name : String} {id : PipelineId}

/-! ### Names and numbers in use -/

theorem byId?_eq_some_iff {p : Pipeline η} :
    c.byId? id = some p ↔ id ∈ c.slots ∧ c.held? id = some p := by
  unfold byId?
  split
  · next hmem => simp [hmem]
  · next hmem => simp [hmem]

namespace Indexed

/-- **A name has a number exactly if the pipeline with that number has the name.** -/
theorem index_eq_some_iff (h : c.Indexed) (name : String) (id : PipelineId) :
    c.index.get? name = some id ↔ ∃ p, c.byId? id = some p ∧ p.name = name := by
  constructor
  · intro hname
    obtain ⟨p, hp, hpname⟩ := h.named name id hname
    exact ⟨p, byId?_eq_some_iff.2 ⟨(h.mem_slots id).2 ⟨name, hname⟩, hp⟩, hpname⟩
  · rintro ⟨p, hp, rfl⟩
    obtain ⟨hmem, hheld⟩ := byId?_eq_some_iff.1 hp
    obtain ⟨other, hother⟩ := (h.mem_slots id).1 hmem
    obtain ⟨q, hq, rfl⟩ := h.named other id hother
    rw [hheld, Option.some.injEq] at hq
    rw [hq, hother]

/-- Every number in use has a pipeline. -/
theorem mem_slots_iff (h : c.Indexed) (id : PipelineId) :
    id ∈ c.slots ↔ ∃ p, c.byId? id = some p := by
  constructor
  · intro hmem
    obtain ⟨name, hname⟩ := (h.mem_slots id).1 hmem
    obtain ⟨p, hp, -⟩ := (h.index_eq_some_iff name id).1 hname
    exact ⟨p, hp⟩
  · rintro ⟨p, hp⟩
    exact (byId?_eq_some_iff.1 hp).1

/-- There are as many numbers in use as names. -/
theorem size_eq (h : c.Indexed) : c.size = c.names.length := by
  have hnodup : c.index.values.Nodup := by
    rw [NameMap.values, List.nodup_iff_pairwise_ne, List.pairwise_map]
    refine List.Pairwise.imp_of_mem ?_ c.index.ascending
    intro a b ha hb hlt heq
    have hname : a.1 = b.1 :=
      h.name_unique (NameMap.get?_of_mem ha) (heq ▸ NameMap.get?_of_mem hb)
    exact String.lt_irrefl _ (hname ▸ hlt)
  have hmem : ∀ id, id ∈ c.index.values ↔ id ∈ c.slots := by
    intro id
    rw [h.mem_slots, NameMap.values, List.mem_map]
    constructor
    · rintro ⟨e, he, rfl⟩
      exact ⟨e.1, NameMap.get?_of_mem he⟩
    · rintro ⟨name, hname⟩
      exact ⟨(name, id), mem_of_lookup hname, rfl⟩
  have hperm := (List.perm_ext_iff_of_nodup hnodup h.slots_nodup).2 hmem
  rw [size, ← hperm.length_eq, names, NameMap.values, NameMap.names, List.length_map,
    List.length_map]

end Indexed

/-! ### Numbers that have gone out of use -/

theorem register_fst (c : Catalog τ η) (p : Pipeline η) :
    (c.register p).1 = c.pipelines.length := by
  unfold register
  cases c.index.get? p.name <;> rfl

theorem afterCalls_register (c : Catalog τ η) (before since : List (CatalogCall τ η))
    (p : Pipeline η) :
    c.afterCalls (before ++ .register p :: since) =
      ((c.afterCalls before).register p).2.afterCalls since := by
  rw [afterCalls, List.foldl_append, List.foldl_cons]
  rfl

/-- No number is ever given up. -/
theorem Carries.length_le (h : c.Carries c') : c.pipelines.length ≤ c'.pipelines.length := by
  by_contra hlt
  have hlast : c'.pipelines.length < c.pipelines.length := Nat.not_le.1 hlt
  obtain ⟨q, hq, -⟩ := h c'.pipelines.length _ (List.getElem?_eq_getElem hlast)
  exact Nat.lt_irrefl _ (List.getElem?_eq_some_iff.1 hq).1

/-- A call that neither registers nor clears leaves names and numbers alone. -/
theorem numbers_afterCall (call : CatalogCall τ η) (h : ∀ name, ¬ Enters name [] call) :
    (c.afterCall call).slots = c.slots ∧ (c.afterCall call).index = c.index := by
  cases call with
  | register p => exact absurd rfl (h p.name)
  | activate answer called template =>
      change (c.activate answer called template).2.slots = c.slots ∧
        (c.activate answer called template).2.index = c.index
      rw [activate_snd]
      cases c.index.get? called with
      | none => exact ⟨rfl, rfl⟩
      | some id =>
          rcases buildOf_cases c answer template id with ⟨-, heq⟩ | ⟨p, handle, -, -, -, heq⟩
          · dsimp only
            rw [heq]
            exact ⟨rfl, rfl⟩
          · dsimp only
            rw [heq]
            exact ⟨rfl, rfl⟩
  | setOverride host custom =>
      change (c.setOverride host custom).2.slots = c.slots ∧
        (c.setOverride host custom).2.index = c.index
      rw [setOverride_snd]
      exact ⟨rfl, rfl⟩
  | removeOverride host => exact ⟨rfl, rfl⟩
  | setEnabled enabled => exact ⟨rfl, rfl⟩
  | clear => exact absurd trivial (h "")

/-- A number was given out, and is not in use any more. -/
structure Retired (c : Catalog τ η) (id : PipelineId) : Prop where
  /-- It was given out. -/
  given : id < c.pipelines.length
  /-- It is not in use. -/
  unused : id ∉ c.slots

namespace Retired

theorem byId?_eq (h : c.Retired id) : c.byId? id = none := if_neg h.unused

/-- A registration gives a new number, and every other call gives none. -/
theorem afterCall (h : c.Retired id) (hc : c.Indexed) (call : CatalogCall τ η) :
    (c.afterCall call).Retired id := by
  refine ⟨Nat.lt_of_lt_of_le h.given (carries_afterStep c (.call call)).length_le, ?_⟩
  by_cases hnumbers : ∀ name, ¬ Enters name [] call
  · rw [(numbers_afterCall call hnumbers).1]
    exact h.unused
  · cases call with
    | register p =>
        change id ∉ (c.register p).2.slots
        rw [mem_slots_register p hc]
        rintro (rfl | ⟨hmem, -⟩)
        · exact Nat.lt_irrefl _ h.given
        · exact h.unused hmem
    | clear => exact List.not_mem_nil
    | _ => exact absurd (fun _ => not_false) hnumbers

/-- **A retired number stays retired.** -/
theorem afterCalls (calls : List (CatalogCall τ η)) :
    ∀ {c : Catalog τ η}, c.Retired id → c.Managed → (c.afterCalls calls).Retired id := by
  induction calls with
  | nil => exact fun h _ => h
  | cons call calls ih =>
      exact fun h hc => ih (h.afterCall hc.toIndexed call) (hc.afterCall call)

end Retired

/-- A name keeps its number until it is entered anew. -/
theorem index_afterCall {call : CatalogCall τ η} (hname : ¬ Enters name [] call) :
    (c.afterCall call).index.get? name = c.index.get? name := by
  by_cases hnumbers : ∀ name, ¬ Enters name [] call
  · rw [(numbers_afterCall call hnumbers).2]
  · cases call with
    | register p =>
        change (c.register p).2.index.get? name = c.index.get? name
        rw [(register_fields c p).2.1, NameMap.get?_insert, if_neg fun heq => hname heq.symm]
    | clear => exact absurd trivial hname
    | _ => exact absurd (fun _ => not_false) hnumbers

/-- When a name is entered anew, its number is retired. -/
theorem retired_afterCall (hc : c.Indexed) (hid : c.index.get? name = some id)
    {call : CatalogCall τ η} (hname : Enters name [] call) : (c.afterCall call).Retired id := by
  have hlt := hc.lt_length hid
  refine ⟨Nat.lt_of_lt_of_le hlt (carries_afterStep c (.call call)).length_le, ?_⟩
  cases call with
  | register p =>
      change id ∉ (c.register p).2.slots
      obtain rfl : p.name = name := hname
      rw [mem_slots_register p hc]
      rintro (rfl | ⟨-, hne⟩)
      · exact Nat.lt_irrefl _ hlt
      · exact hne hid
  | clear => exact List.not_mem_nil
  | _ => exact absurd hname not_false

theorem index_afterCalls (calls : List (CatalogCall τ η)) :
    ∀ {c : Catalog τ η}, c.Managed → (∀ call ∈ calls, ¬ Enters name [] call) →
      (c.afterCalls calls).index.get? name = c.index.get? name := by
  induction calls with
  | nil => exact fun _ _ => rfl
  | cons call calls ih =>
      intro c hc hnames
      have hrest := ih (hc.afterCall call) fun other hother => hnames other (.tail _ hother)
      exact hrest.trans (index_afterCall (hnames call List.mem_cons_self))

theorem retired_afterCalls (calls : List (CatalogCall τ η)) :
    ∀ {c : Catalog τ η}, c.Managed → c.index.get? name = some id →
      (∃ call ∈ calls, Enters name [] call) → (c.afterCalls calls).Retired id := by
  induction calls with
  | nil =>
      rintro c - - ⟨call, hcall, -⟩
      exact absurd hcall List.not_mem_nil
  | cons call calls ih =>
      intro c hc hid hexists
      by_cases hname : Enters name [] call
      · exact (retired_afterCall hc.toIndexed hid hname).afterCalls calls (hc.afterCall call)
      · obtain ⟨other, hother, henters⟩ := hexists
        rcases List.mem_cons.1 hother with rfl | hmem
        · exact absurd henters hname
        · refine ih (hc.afterCall call) ?_ ⟨other, hmem, henters⟩
          rw [index_afterCall hname, hid]

/-- A registration is the latest of its name exactly if the name is not entered anew. -/
theorem latest_register_iff (before since : List (CatalogCall τ η)) (p : Pipeline η) :
    Latest (Enters p.name) (before ++ .register p :: since) before (.register p) since ↔
      ∀ call ∈ since, ¬ Enters p.name [] call := by
  constructor
  · rintro ⟨-, -, hsince⟩ call hcall
    obtain ⟨mid, rest, hsplit⟩ := List.append_of_mem hcall
    exact hsince mid call rest hsplit
  · intro h
    refine ⟨rfl, rfl, fun mid next rest hsplit => h next ?_⟩
    rw [hsplit]
    exact List.mem_append_right _ List.mem_cons_self

/-! ### The number that a registration gave -/

theorem index_register (c : Catalog τ η) (p : Pipeline η) :
    (c.register p).2.index.get? p.name = some (c.register p).1 := by
  rw [(register_fields c p).2.1, NameMap.get?_insert, if_pos rfl, ← register_fst]

/-- **It leads to the pipeline of the name** while the name is not entered anew: the one that was
registered, at its phase or a later one. -/
theorem get?_after_register (hc : c.Managed) (p : Pipeline η) (since : List (CatalogCall τ η))
    (hsince : ∀ call ∈ since, ¬ Enters p.name [] call) :
    ∃ q, ((c.register p).2.afterCalls since).get? p.name = some q ∧
      ((c.register p).2.afterCalls since).byId? (c.register p).1 = some q ∧ p.Later q := by
  have hregistered := hc.register p
  have hindex := index_afterCalls since hregistered hsince
  rw [index_register] at hindex
  have hindexed : ((c.register p).2.afterCalls since).Indexed :=
    (after_map_call (c.register p).2 since ▸ hregistered.after _).toIndexed
  obtain ⟨q, hq, -⟩ := (hindexed.index_eq_some_iff _ _).1 hindex
  have hp : (c.register p).2.held? (c.register p).1 = some p := by
    rw [held?_register p hc.toIndexed, if_pos (register_fst c p)]
  obtain ⟨q', hq', hlater⟩ := carries_after _ (since.map .call) _ p hp
  rw [after_map_call, (byId?_eq_some_iff.1 hq).2, Option.some.injEq] at hq'
  refine ⟨q, ?_, hq, hq' ▸ hlater⟩
  rw [get?, hindex]
  exact hq

/-- It leads nowhere once the name is entered anew, whatever is called from then on. -/
theorem byId?_after_register (hc : c.Managed) (p : Pipeline η) (since : List (CatalogCall τ η))
    (hsince : ∃ call ∈ since, Enters p.name [] call) (more : List (CatalogCall τ η)) :
    (((c.register p).2.afterCalls since).afterCalls more).byId? (c.register p).1 = none := by
  have hregistered := hc.register p
  have hretired := retired_afterCalls since hregistered (index_register c p) hsince
  exact (hretired.afterCalls more (after_map_call _ since ▸ hregistered.after _)).byId?_eq

/-! ### Overrides lead somewhere -/

/-- Every override leads to a name in use. -/
def Routed (c : Catalog τ η) : Prop :=
  ∀ host custom, c.overrides.get? host = some custom → c.contains custom = true

namespace Routed

/-- **No call leaves an override without its pipeline.** -/
theorem afterCall (h : c.Routed) (call : CatalogCall τ η) : (c.afterCall call).Routed := by
  intro host custom hroute
  cases call with
  | register p =>
      change (c.register p).2.overrides.get? host = some custom at hroute
      change (c.register p).2.index.contains custom = true
      obtain ⟨-, hindex, hoverrides, -⟩ := register_fields c p
      rw [hoverrides] at hroute
      rw [hindex, NameMap.contains_insert]
      exact .inr (h host custom hroute)
  | activate answer called template =>
      change (c.activate answer called template).2.overrides.get? host = some custom at hroute
      rw [(activate_fields c answer called template).1] at hroute
      rw [contains, (numbers_afterCall (.activate answer called template) fun _ => not_false).2]
      exact h host custom hroute
  | setOverride other target =>
      change (c.setOverride other target).2.overrides.get? host = some custom at hroute
      rw [contains, (numbers_afterCall (.setOverride other target) fun _ => not_false).2]
      rw [setOverride_snd] at hroute
      by_cases htarget : c.contains target = true
      · rw [if_pos htarget, Table.get?_put] at hroute
        split at hroute
        · cases hroute
          exact htarget
        · exact h host custom hroute
      · rw [if_neg htarget] at hroute
        exact h host custom hroute
  | removeOverride other =>
      change (c.overrides.erase other).get? host = some custom at hroute
      rw [Table.get?_erase] at hroute
      split at hroute
      · cases hroute
      · exact h host custom hroute
  | setEnabled enabled => exact h host custom hroute
  | clear => cases hroute

theorem afterCalls (calls : List (CatalogCall τ η)) :
    ∀ {c : Catalog τ η}, c.Routed → (c.afterCalls calls).Routed := by
  induction calls with
  | nil => exact fun h => h
  | cons call calls ih => exact fun h => ih (h.afterCall call)

end Routed

/-! ### After any calls -/

/-- **What names, numbers and overrides lead to**, after any calls to an empty catalog.

* A name has a number exactly if the pipeline with that number has the name, and every number in use
  has a pipeline.
* There are as many pipelines in use as names, and the names are listed in ascending order, each
  once.
* The number that the latest registration of a name gave leads to the pipeline of the name, which is
  the one that was registered, at its phase or a later one.  The number of any other registration
  leads nowhere, whatever is called from then on.
* An override leads to a pipeline, and that decides what is bound. -/
theorem numbers_afterCalls (calls : List (CatalogCall τ η)) :
    let c := (empty : Catalog τ η).afterCalls calls
    (c.slots.Nodup ∧ (∀ id, id ∈ c.slots ↔ ∃ p, c.byId? id = some p) ∧
        ∀ name id, c.index.get? name = some id ↔ ∃ p, c.byId? id = some p ∧ p.name = name) ∧
      (c.size = c.names.length ∧ c.stats.registered = c.names.length ∧
        c.names.Pairwise (· < ·) ∧ ∀ name, name ∈ c.names ↔ ∃ p, c.get? name = some p) ∧
      (∀ before p since, calls = before ++ .register p :: since →
        let id := ((empty.afterCalls before).register p).1
        (Latest (Enters p.name) calls before (.register p) since →
            ∃ q, c.get? p.name = some q ∧ c.byId? id = some q ∧ p.Later q) ∧
          (¬ Latest (Enters p.name) calls before (.register p) since →
            ∀ more, (c.afterCalls more).byId? id = none)) ∧
      ∀ host custom, c.overrides.get? host = some custom →
        ∃ p, c.get? custom = some p ∧
          c.override? host = if c.enabled then p.handle? else none := by
  intro c
  have hmanaged : c.Managed := managed_afterCalls calls
  have hindexed := hmanaged.toIndexed
  refine ⟨⟨hindexed.slots_nodup, hindexed.mem_slots_iff, hindexed.index_eq_some_iff⟩,
    ⟨hindexed.size_eq, hindexed.size_eq, c.index.names_ascending, fun name => ?_⟩, ?_, ?_⟩
  · rw [← hindexed.contains_iff]
    exact NameMap.isSome_get?_iff.symm
  · intro before p since hcalls id
    have hbefore : ((empty : Catalog τ η).afterCalls before).Managed := managed_afterCalls before
    have hafter : c = ((empty.afterCalls before).register p).2.afterCalls since := by
      rw [← afterCalls_register, ← hcalls]
    rw [hcalls, latest_register_iff, hafter]
    refine ⟨get?_after_register hbefore p since, fun hsince => ?_⟩
    have hexists : ∃ call ∈ since, Enters p.name [] call := by
      simpa only [not_forall, not_not, exists_prop] using hsince
    exact byId?_after_register hbefore p since hexists
  · intro host custom hroute
    have hrouted : c.Routed := Routed.afterCalls calls fun _ _ h => by cases h
    obtain ⟨p, hp⟩ := hindexed.contains_iff.1 (hrouted host custom hroute)
    refine ⟨p, hp, ?_⟩
    rw [override?, hroute, Option.bind_some, hp, Option.bind_some]

/-- Two pipelines of one name, of which only the second has the name, until everything is cleared; and
a third, whose override outlives its replacement. -/
theorem numbers_afterCalls_replaced :
    let kept : List (CatalogCall Unit Nat) :=
      [.register (bare "a"), .register (bare "b"), .setOverride "host" "b", .register (bare "a")]
    let calls := kept ++ [.register (bare "b")]
    let c := (empty : Catalog Unit Nat).afterCalls calls
    (∃ q, c.get? "a" = some q ∧ c.byId? 2 = some q) ∧
      (∀ more, (c.afterCalls more).byId? 0 = none) ∧
      (∃ p, c.get? "b" = some p ∧ c.override? "host" = none) ∧
      ∀ more, ((empty.afterCalls (kept ++ [.clear])).afterCalls more).byId? 2 = none := by
  intro kept calls c
  obtain ⟨-, -, hids, hroutes⟩ := numbers_afterCalls calls
  have hroute : c.overrides.get? "host" = some "b" := by decide +kernel
  refine ⟨?_, ?_, ?_, ?_⟩
  · have hsince : ∀ call ∈ calls.drop 4, ¬ Enters "a" [] call := by
      simp [calls, kept, Enters, bare]
    obtain ⟨q, hq, hid, -⟩ := (hids (kept.take 3) (bare "a") [.register (bare "b")] rfl).1
      ((latest_register_iff (kept.take 3) _ (bare "a")).2 hsince)
    exact ⟨q, hq, hid⟩
  · refine (hids [] (bare "a") (kept.tail ++ [.register (bare "b")]) rfl).2 fun hlatest => ?_
    exact (latest_register_iff [] _ (bare "a")).1 hlatest (.register (bare "a")) (by simp) rfl
  · obtain ⟨p, hp, hbound⟩ := hroutes "host" "b" hroute
    refine ⟨p, hp, hbound.trans (if_neg ?_)⟩
    decide +kernel
  · refine ((numbers_afterCalls (kept ++ [.clear])).2.2.1 (kept.take 3) (bare "a") [.clear] rfl).2
      fun hlatest => ?_
    exact (latest_register_iff (kept.take 3) _ (bare "a")).1 hlatest .clear List.mem_cons_self trivial

end Shaderworks.Catalog
