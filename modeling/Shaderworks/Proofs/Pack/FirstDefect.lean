/-
**The first defect of a pack.**

A pack may have many defects, and the one that is reported is the first.  The name comes before the
version and the version before the pipelines; the pipelines come one after the other by ascending name;
and of one pipeline it is asked first whether it has a shader to start from, and then for the text of
each shader that it declares, in stage order.

Main definitions:

* `PackDefect.Precedes` — one defect is looked for before another;
* `PackDefect.First` — the first of some defects;
* `Pack.PipelineHas`, `Pack.Has` — the defects of a pipeline and of a pack.

Main results:

* `Pack.first_of_checkPipeline`, `Pack.first_of_checkPipelines` — what is reported of a pipeline, and
  of several, is the first of their defects;
* `Pack.complete_iff_has_none` — a pack is complete exactly when it has no defect;
* `Pack.check_eq_error_iff` — **what is reported of a pack is the first of its defects.**
-/

import Shaderworks.Pack
import Mathlib.Data.List.Basic

set_option autoImplicit false

namespace Shaderworks

/-! ### The order of the defects -/

/-- The place of a stage in stage order. -/
def Stage.number : Stage → Nat
  | vertex => 0
  | fragment => 1
  | geometry => 2

/-- The shaders that a pipeline declares are listed in stage order, one for each stage. -/
theorem PipelineSpec.shaderPaths_ascending (spec : PipelineSpec) :
    spec.shaderPaths.Pairwise fun a b => a.1.number < b.1.number := by
  have hstages : Stage.all.Pairwise fun s t => s.number < t.number := by decide
  rw [shaderPaths, List.pairwise_filterMap]
  refine hstages.imp fun hlt a ha b hb => ?_
  obtain ⟨_, -, rfl⟩ := Option.map_eq_some_iff.1 ha
  obtain ⟨_, -, rfl⟩ := Option.map_eq_some_iff.1 hb
  exact hlt

namespace PackDefect

/-- What a defect is about: the name, the version, the pipelines as a whole, or one of them. -/
def group : PackDefect → Nat
  | missingName => 0
  | missingVersion _ => 1
  | noPipelines _ => 2
  | noShaders _ _ => 3
  | missingShader _ _ _ _ => 3

/-- The pipeline that a defect is about, if it is about one. -/
def pipeline : PackDefect → String
  | missingName => ""
  | missingVersion _ => ""
  | noPipelines _ => ""
  | noShaders _ pipeline => pipeline
  | missingShader _ pipeline _ _ => pipeline

/-- The turn of a defect among those of its pipeline. -/
def turn : PackDefect → Nat
  | missingName => 0
  | missingVersion _ => 0
  | noPipelines _ => 0
  | noShaders _ _ => 0
  | missingShader _ _ stage _ => stage.number + 1

/-- One defect is looked for before another: it is about something that comes first, or about a
pipeline of a smaller name, or has the earlier turn in the same pipeline. -/
def Precedes (defect other : PackDefect) : Prop :=
  defect.group < other.group ∨ defect.group = other.group ∧
    (defect.pipeline < other.pipeline ∨
      defect.pipeline = other.pipeline ∧ defect.turn < other.turn)

/-- Of two defects at most one precedes the other. -/
theorem Precedes.asymm {defect other : PackDefect} (h : defect.Precedes other) :
    ¬ other.Precedes defect := by
  rintro (hgroup' | ⟨hgroup', hinner'⟩)
  · rcases h with hgroup | ⟨hgroup, -⟩ <;> omega
  · rcases h with hgroup | ⟨-, hinner⟩
    · omega
    · rcases hinner with hname | ⟨hname, hturn⟩ <;> rcases hinner' with hname' | ⟨hname', hturn'⟩
      · exact String.lt_irrefl _ (String.lt_trans hname hname')
      · exact String.lt_irrefl _ (hname' ▸ hname)
      · exact String.lt_irrefl _ (hname ▸ hname')
      · omega

/-- A defect is the first of those with a property. -/
def First (P : PackDefect → Prop) (defect : PackDefect) : Prop :=
  P defect ∧ ∀ other, P other → other ≠ defect → defect.Precedes other

/-- There is at most one first defect. -/
theorem First.unique {P : PackDefect → Prop} {defect other : PackDefect} (h : First P defect)
    (h' : First P other) : defect = other := by
  by_contra hne
  exact (h.2 other h'.1 (Ne.symm hne)).asymm (h'.2 defect h.1 hne)

end PackDefect

namespace Pack

open PackDefect

variable {pack : Pack} {name : String} {spec : PipelineSpec} {defect : PackDefect}

/-! ### One pipeline -/

/-- The defects of a pipeline. -/
inductive PipelineHas (pack : Pack) (name : String) (spec : PipelineSpec) : PackDefect → Prop
  /-- It declares neither a vertex nor a fragment shader. -/
  | noShaders (hvertex : spec.vertex = none) (hfragment : spec.fragment = none) :
      PipelineHas pack name spec (.noShaders pack.name name)
  /-- It declares a shader that is not among the sources. -/
  | missingShader {stage : Stage} {path : String} (hpath : spec.path? stage = some path)
      (hsource : pack.source? path = none) :
      PipelineHas pack name spec (.missingShader pack.name name stage path)

/-- The defects of a pipeline are about it. -/
theorem PipelineHas.about (h : pack.PipelineHas name spec defect) :
    defect.group = 3 ∧ defect.pipeline = name := by
  cases h <;> exact ⟨rfl, rfl⟩

/-- A pipeline is complete exactly when it has no defect. -/
theorem pipelineComplete_iff (name : String) :
    pack.PipelineComplete spec ↔ ∀ defect, ¬ pack.PipelineHas name spec defect := by
  constructor
  · rintro ⟨hsome, hsources⟩ defect (⟨hvertex, hfragment⟩ | ⟨hpath, hsource⟩)
    · rw [hvertex, hfragment] at hsome
      rcases hsome with hsome | hsome <;> cases hsome
    · have hthere := hsources _ _ hpath
      rw [hsource] at hthere
      cases hthere
  · intro hnone
    refine ⟨?_, fun stage path hpath => ?_⟩
    · cases hvertex : spec.vertex with
      | some path => exact .inl rfl
      | none =>
          cases hfragment : spec.fragment with
          | some path => exact .inr rfl
          | none => exact absurd (.noShaders hvertex hfragment) (hnone _)
    · cases hsource : pack.source? path with
      | some source => rfl
      | none => exact absurd (.missingShader hpath hsource) (hnone _)

/-- **What is reported of a pipeline is the first of its defects.** -/
theorem first_of_checkPipeline (h : pack.checkPipeline name spec = .error defect) :
    First (pack.PipelineHas name spec) defect := by
  unfold checkPipeline at h
  by_cases hnone : spec.vertex.isNone ∧ spec.fragment.isNone
  · rw [if_pos hnone] at h
    cases h
    refine ⟨.noShaders (Option.isNone_iff_eq_none.1 hnone.1) (Option.isNone_iff_eq_none.1 hnone.2),
      ?_⟩
    rintro _ (_ | _) hne
    · exact absurd rfl hne
    · exact .inr ⟨rfl, .inr ⟨rfl, Nat.succ_pos _⟩⟩
  · rw [if_neg hnone] at h
    cases hfind : spec.shaderPaths.find? fun p => (pack.source? p.2).isNone with
    | none =>
        rw [hfind] at h
        cases h
    | some p =>
        rw [hfind] at h
        cases h
        obtain ⟨hmissing, front, back, hpaths, hfront⟩ := List.find?_eq_some_iff_append.1 hfind
        have hdeclared : (p.1, p.2) ∈ spec.shaderPaths := by simp [hpaths]
        refine ⟨.missingShader (PipelineSpec.mem_shaderPaths.1 hdeclared)
          (Option.isNone_iff_eq_none.1 hmissing), ?_⟩
        rintro _ (⟨hvertex, hfragment⟩ | ⟨hpath, hsource⟩) hne
        · exact absurd ⟨by rw [hvertex]; rfl, by rw [hfragment]; rfl⟩ hnone
        · -- Another missing shader is listed behind this one, so its stage comes later.
          have hlisted := PipelineSpec.mem_shaderPaths.2 hpath
          have hascending := PipelineSpec.shaderPaths_ascending spec
          rw [hpaths, List.mem_append, List.mem_cons] at hlisted
          rw [hpaths] at hascending
          rcases hlisted with hbefore | rfl | hbehind
          · have hthere := hfront _ hbefore
            rw [hsource] at hthere
            cases hthere
          · exact absurd rfl hne
          · have hlater := (List.pairwise_cons.1 (List.pairwise_append.1 hascending).2.1).1 _ hbehind
            exact .inr ⟨rfl, .inr ⟨rfl, Nat.succ_lt_succ hlater⟩⟩

/-! ### Several pipelines -/

/-- **What is reported of several pipelines is the first of their defects,** if their names
ascend. -/
theorem first_of_checkPipelines {pipelines : List (String × PipelineSpec)}
    (hascending : pipelines.Pairwise fun a b => a.1 < b.1)
    (h : pack.checkPipelines pipelines = .error defect) :
    First (fun d => ∃ entry ∈ pipelines, pack.PipelineHas entry.1 entry.2 d) defect := by
  induction pipelines with
  | nil => cases h
  | cons entry rest ih =>
      obtain ⟨hlater, hrest⟩ := List.pairwise_cons.1 hascending
      rw [checkPipelines] at h
      cases hcheck : pack.checkPipeline entry.1 entry.2 with
      | error found =>
          simp only [hcheck, Except.error.injEq] at h
          subst h
          obtain ⟨hhas, hfirst⟩ := first_of_checkPipeline hcheck
          refine ⟨⟨entry, List.mem_cons_self, hhas⟩, ?_⟩
          rintro other ⟨entry', hmem, hother⟩ hne
          rcases List.mem_cons.1 hmem with rfl | hmem
          · exact hfirst other hother hne
          · obtain ⟨hgroup, hname⟩ := hhas.about
            obtain ⟨hgroup', hname'⟩ := hother.about
            refine .inr ⟨hgroup.trans hgroup'.symm, .inl ?_⟩
            rw [hname, hname']
            exact hlater entry' hmem
      | ok _ =>
          simp only [hcheck] at h
          obtain ⟨⟨entry', hmem, hhas⟩, hfirst⟩ := ih hrest h
          refine ⟨⟨entry', List.mem_cons_of_mem _ hmem, hhas⟩, ?_⟩
          rintro other ⟨entry'', hmem', hother⟩ hne
          rcases List.mem_cons.1 hmem' with rfl | hmem'
          · -- A pipeline that passed has no defect.
            have hcomplete := checkPipeline_eq_ok_iff.1 hcheck
            exact absurd hother ((pipelineComplete_iff entry''.1).1 hcomplete other)
          · exact hfirst other ⟨entry'', hmem', hother⟩ hne

/-! ### Whole packs -/

/-- The defects of a pack. -/
inductive Has (pack : Pack) : PackDefect → Prop
  /-- Its name is empty. -/
  | missingName (hname : pack.name = "") : Has pack .missingName
  /-- Its version is empty. -/
  | missingVersion (hversion : pack.version = "") : Has pack (.missingVersion pack.name)
  /-- It describes no pipeline. -/
  | noPipelines (hpipelines : pack.pipelines.entries = []) : Has pack (.noPipelines pack.name)
  /-- One of its pipelines has a defect. -/
  | pipeline {name : String} {spec : PipelineSpec} {defect : PackDefect}
      (hspec : pack.pipelines.get? name = some spec) (hhas : pack.PipelineHas name spec defect) :
      Has pack defect

/-- A pack is complete exactly when it has no defect. -/
theorem complete_iff_has_none : pack.Complete ↔ ∀ defect, ¬ pack.Has defect := by
  constructor
  · rintro ⟨hname, hversion, hpipelines, hcomplete⟩ defect
      (hnone | hnone | hnone | ⟨hspec, hhas⟩)
    · exact hname hnone
    · exact hversion hnone
    · exact hpipelines hnone
    · exact (pipelineComplete_iff _).1 (hcomplete _ (mem_of_lookup hspec)) _ hhas
  · intro hnone
    refine ⟨fun h => hnone _ (.missingName h), fun h => hnone _ (.missingVersion h),
      fun h => hnone _ (.noPipelines h), fun entry hentry => ?_⟩
    refine (pipelineComplete_iff entry.1).2 fun defect hhas => ?_
    exact hnone defect (.pipeline (NameMap.get?_of_mem hentry) hhas)

/-- What is reported of a pack is the first of its defects. -/
theorem first_of_check (h : pack.check = .error defect) : First pack.Has defect := by
  unfold check at h
  split_ifs at h with hname hversion hpipelines
  · cases h
    refine ⟨.missingName hname, ?_⟩
    rintro other (_ | _ | _ | ⟨_, hhas⟩) hne
    · exact absurd rfl hne
    · exact .inl (Nat.lt_succ_self 0)
    · exact .inl (Nat.succ_pos 1)
    · exact .inl (hhas.about.1 ▸ Nat.succ_pos 2)
  · cases h
    refine ⟨.missingVersion hversion, ?_⟩
    rintro other (hnone | _ | _ | ⟨_, hhas⟩) hne
    · exact absurd hnone hname
    · exact absurd rfl hne
    · exact .inl (Nat.lt_succ_self 1)
    · exact .inl (hhas.about.1 ▸ Nat.succ_lt_succ (Nat.succ_pos 1))
  · cases h
    refine ⟨.noPipelines hpipelines, ?_⟩
    rintro other (hnone | hnone | _ | ⟨_, hhas⟩) hne
    · exact absurd hnone hname
    · exact absurd hnone hversion
    · exact absurd rfl hne
    · exact .inl (hhas.about.1 ▸ Nat.lt_succ_self 2)
  · obtain ⟨⟨entry, hentry, hhas⟩, hfirst⟩ :=
      first_of_checkPipelines pack.pipelines.ascending h
    refine ⟨.pipeline (NameMap.get?_of_mem hentry) hhas, ?_⟩
    rintro other (hnone | hnone | hnone | ⟨hspec, hother⟩) hne
    · exact absurd hnone hname
    · exact absurd hnone hversion
    · exact absurd hnone hpipelines
    · exact hfirst other ⟨_, mem_of_lookup hspec, hother⟩ hne

/-- **What is reported of a pack is the first of its defects,** and a pack with a first defect is
refused. -/
theorem check_eq_error_iff : pack.check = .error defect ↔ First pack.Has defect := by
  refine ⟨first_of_check, fun hfirst => ?_⟩
  cases hcheck : pack.check with
  | error found => rw [(first_of_check hcheck).unique hfirst]
  | ok _ => exact absurd hfirst.1 (complete_iff_has_none.1 (check_eq_ok_iff.1 hcheck) defect)

end Pack

end Shaderworks
