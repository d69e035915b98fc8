/-
**What several packs leave, and which of them.**

Packs are taken one after the other, and those that are refused leave nothing but a count.  The
others are accepted, each with a report, and everything else can be read off these reports: the
summary adds them up, and a pipeline comes from the last pack whose report lists its name.  A later
pack that declares the name and fails to compile its pipeline does not list it, so it shadows
nothing.

Main definitions:

* `Pack.passes` — a pack is accepted;
* `Engine.accepted` — the accepted packs, each with its report;
* `LoadReport.Balanced` — the numbers of a report fit together.

Main results:

* `Engine.taken_concat_cases` — one more pack is refused, or accepted with a report;
* `Engine.taken_filter` — refused packs only count;
* `Engine.accepted_eq_append` — an accepted pack, with what was there before it and what came after;
* `Engine.contains_taken`, `Engine.get?_taken` — the names in use, and those that nobody touched;
* `Engine.loadPacks_of_filter_eq` — packs of which the same pass leave the same;
* `Engine.get?_loadPacks_last` — the pipeline of a name is that of the last pack that lists it;
* `Engine.loadPacks_accepted` — **the summary and the pipelines, read off the accepted packs.**
-/

import Shaderworks.Proofs.Engine.Building
import Shaderworks.Proofs.Engine.Reload
import Mathlib.Algebra.GroupWithZero.Nat

set_option autoImplicit false

namespace Shaderworks

variable {τ η : Type}

/-- Whether a pack is accepted. -/
def Pack.passes (pack : Pack) : Bool := pack.check.isOk

theorem Pack.passes_of_ok {pack : Pack} (h : pack.check = .ok ()) : pack.passes = true := by
  rw [passes, h]
  rfl

theorem Pack.passes_of_error {pack : Pack} {defect : PackDefect} (h : pack.check = .error defect) :
    pack.passes = false := by
  rw [passes, h]
  rfl

/-- The numbers of a report fit together: each pipeline that was found compiled or failed, and those
that compiled are registered and listed. -/
structure LoadReport.Balanced (r : LoadReport) : Prop where
  found : r.found = r.compiled + r.failed
  registered : r.registered = r.compiled
  listed : r.pipelines.length = r.compiled

namespace Engine

variable {tools : Toolchain} {e e' : Engine τ η} {pack : Pack} {packs : List Pack}
  {report : LoadReport} {name : String}

variable (tools) in
/-- The packs that are accepted when some are taken one after the other, each with its report. -/
def accepted : Engine τ η → List Pack → List (Pack × LoadReport)
  | _, [] => []
  | e, pack :: packs =>
      match e.loadPack tools pack with
      | (.error _, e) => accepted e packs
      | (.ok report, e) => (pack, report) :: accepted e packs

/-! ### One pack -/

/-- **The numbers of a report fit together.** -/
theorem balanced_of_loadPack (h : e.loadPack tools pack = (.ok report, e')) : report.Balanced := by
  have hfold : ∀ (entries : List (String × PipelineSpec)) (e : Engine τ η) (r : LoadReport),
      r.Balanced → (entries.foldl (loadPipeline tools pack) (e, r)).2.Balanced := by
    intro entries
    induction entries with
    | nil => exact fun _ _ hr => hr
    | cons entry entries ih =>
        intro e r hr
        rw [List.foldl_cons]
        rcases loadPipeline_cases tools pack e r entry with ⟨c, heq⟩ | ⟨c, p, -, heq⟩
        · rw [heq]
          refine ih _ _ ⟨?_, hr.registered, hr.listed⟩
          dsimp only
          rw [hr.found, Nat.add_assoc]
        · rw [heq]
          refine ih _ _ ⟨?_, congrArg (· + 1) hr.registered, ?_⟩
          · dsimp only
            rw [hr.found, Nat.add_right_comm]
          · dsimp only
            rw [List.length_append, hr.listed, List.length_singleton]
  unfold loadPack at h
  split at h
  · cases h
  · cases h
    exact hfold _ _ _ ⟨rfl, rfl, rfl⟩

/-- **What a pack registers** has the name, the pack and the draw state it was declared with; it
waits. -/
theorem get?_of_loadPack (h : e.catalog.Indexed) (hload : e.loadPack tools pack = (.ok report, e'))
    (hname : name ∈ report.pipelines) :
    ∃ spec p, pack.pipelines.get? name = some spec ∧ e'.catalog.get? name = some p ∧
      p.name = name ∧ p.pack = pack ∧ p.drawState = .ofSpec spec ∧ p.phase = .waiting := by
  unfold loadPack at hload
  split at hload
  · cases hload
  · cases hload
    obtain ⟨before, spec, after, p, c', hentries, hcompile, hget⟩ :=
      foldl_registers (e := { e with shelf := e.shelf.register pack }) h pack.pipelines.entries
        name hname
    have hspec : pack.pipelines.get? name = some spec :=
      NameMap.get?_of_mem (hentries ▸ List.mem_append_right _ List.mem_cons_self)
    exact ⟨spec, p, hspec, hget, fields_of_compilePipeline hcompile⟩

/-! ### One pack after the other -/

theorem engine_loadNext (p : Progress τ η) (pack : Pack) :
    (loadNext tools p pack).engine = (p.engine.loadPack tools pack).2 := by
  unfold loadNext loadPack
  cases pack.check <;> rfl

/-- The first pack is taken before the others. -/
theorem engine_taken_cons (tools : Toolchain) (e : Engine τ η) (pack : Pack) (packs : List Pack) :
    (e.taken tools (pack :: packs)).engine =
      ((e.loadPack tools pack).2.taken tools packs).engine := by
  induction packs using List.reverseRecOn with
  | nil => exact engine_loadNext { engine := e } pack
  | append_singleton packs last ih =>
      rw [← List.cons_append, taken_concat, taken_concat, engine_loadNext, engine_loadNext, ih]

theorem accepted_append (tools : Toolchain) (e : Engine τ η) (front back : List Pack) :
    e.accepted tools (front ++ back) =
      e.accepted tools front ++ (e.taken tools front).engine.accepted tools back := by
  induction front generalizing e with
  | nil => rfl
  | cons pack front ih =>
      rw [engine_taken_cons, List.cons_append, accepted, accepted]
      rcases e.loadPack tools pack with ⟨_ | report, e'⟩
      · exact ih e'
      · exact congrArg ((pack, report) :: ·) (ih e')

/-- **One more pack is refused, or accepted with a report.** -/
theorem taken_concat_cases (tools : Toolchain) (e : Engine τ η) (packs : List Pack) (pack : Pack) :
    (pack.passes = false ∧ e.accepted tools (packs ++ [pack]) = e.accepted tools packs ∧
      e.taken tools (packs ++ [pack]) =
        { e.taken tools packs with summary := (e.taken tools packs).summary.reject }) ∨
    (pack.passes = true ∧ ∃ report engine,
      (e.taken tools packs).engine.loadPack tools pack = (.ok report, engine) ∧
      e.accepted tools (packs ++ [pack]) = e.accepted tools packs ++ [(pack, report)] ∧
      e.taken tools (packs ++ [pack]) =
        { engine
          summary := (e.taken tools packs).summary.add report
          mainNames := (e.taken tools packs).mainNames ++
            report.pipelines.filter engine.inMainPass }) := by
  rw [taken_concat, accepted_append, accepted, loadNext]
  cases hcheck : pack.check with
  | error defect =>
      rw [loadPack_of_defect hcheck]
      exact .inl ⟨Pack.passes_of_error hcheck, List.append_nil _, rfl⟩
  | ok _ =>
      obtain ⟨report, engine, hload⟩ := loadPack_of_check tools (e.taken tools packs).engine hcheck
      rw [hload]
      exact .inr ⟨Pack.passes_of_ok hcheck, report, engine, rfl, rfl, rfl⟩

/-- The accepted packs are those that pass. -/
theorem map_fst_accepted (tools : Toolchain) (e : Engine τ η) (packs : List Pack) :
    (e.accepted tools packs).map Prod.fst = packs.filter Pack.passes := by
  induction packs using List.reverseRecOn with
  | nil => rfl
  | append_singleton packs pack ih =>
      rw [List.filter_append, ← ih]
      rcases taken_concat_cases tools e packs pack with
        ⟨hpasses, haccepted, -⟩ | ⟨hpasses, report, engine, -, haccepted, -⟩
      · rw [haccepted, List.filter_cons_of_neg (by simp [hpasses]), List.filter_nil,
          List.append_nil]
      · rw [haccepted, List.filter_cons_of_pos hpasses, List.filter_nil, List.map_append]
        rfl

/-- **Refused packs only count.** -/
theorem taken_filter (tools : Toolchain) (e : Engine τ η) (packs : List Pack) :
    e.accepted tools (packs.filter Pack.passes) = e.accepted tools packs ∧
      e.taken tools packs =
        { e.taken tools (packs.filter Pack.passes) with
          summary :=
            { (e.taken tools (packs.filter Pack.passes)).summary with
              packsRejected := packs.countP fun pack => !pack.passes } } := by
  induction packs using List.reverseRecOn with
  | nil => exact ⟨rfl, rfl⟩
  | append_singleton packs pack ih =>
      obtain ⟨hsame, htaken⟩ := ih
      rw [List.filter_append, List.countP_append]
      rcases taken_concat_cases tools e packs pack with
        ⟨hpasses, haccepted, heq⟩ | ⟨hpasses, report, engine, hload, haccepted, heq⟩
      · rw [haccepted, heq, List.filter_cons_of_neg (by simp [hpasses]), List.filter_nil,
          List.append_nil, htaken, List.countP_cons_of_pos (by simp [hpasses]), List.countP_nil]
        exact ⟨hsame, rfl⟩
      · rw [haccepted, heq, List.filter_cons_of_pos hpasses, List.filter_nil,
          List.countP_cons_of_neg (by simp [hpasses]), List.countP_nil]
        rcases taken_concat_cases tools e (packs.filter Pack.passes) pack with
          ⟨hfails, -⟩ | ⟨-, report', engine', hload', haccepted', heq'⟩
        · rw [hpasses] at hfails
          cases hfails
        · rw [htaken] at hload
          obtain ⟨hreport, rfl⟩ := Prod.mk.inj (hload.symm.trans hload')
          cases hreport
          rw [haccepted', heq', hsame, htaken]
          exact ⟨rfl, rfl⟩

/-- **The summary adds up the reports.** -/
theorem summary_taken (tools : Toolchain) (e : Engine τ η) (packs : List Pack) :
    (e.taken tools packs).summary =
      { packsLoaded := (e.accepted tools packs).length
        packsRejected := packs.countP fun pack => !pack.passes
        found := ((e.accepted tools packs).map fun entry => entry.2.found).sum
        compiled := ((e.accepted tools packs).map fun entry => entry.2.compiled).sum
        registered := ((e.accepted tools packs).map fun entry => entry.2.registered).sum
        failed := ((e.accepted tools packs).map fun entry => entry.2.failed).sum } := by
  induction packs using List.reverseRecOn with
  | nil => rfl
  | append_singleton packs pack ih =>
      rw [List.countP_append]
      rcases taken_concat_cases tools e packs pack with
        ⟨hpasses, haccepted, heq⟩ | ⟨hpasses, report, engine, hload, haccepted, heq⟩
      · rw [haccepted, heq, ih, List.countP_cons_of_pos (by simp [hpasses]), List.countP_nil]
        rfl
      · rw [haccepted, heq, List.countP_cons_of_neg (by simp [hpasses]), List.countP_nil]
        simp only [ih, LoadSummary.add, List.length_append, List.length_singleton, List.map_append,
          List.map_singleton, List.sum_append, List.sum_singleton, Nat.add_zero]

/-- The numbers of the summary fit together as those of the reports do. -/
theorem summary_taken_balanced (tools : Toolchain) (e : Engine τ η) (packs : List Pack) :
    (e.taken tools packs).summary.found =
        (e.taken tools packs).summary.compiled + (e.taken tools packs).summary.failed ∧
      (e.taken tools packs).summary.registered = (e.taken tools packs).summary.compiled := by
  induction packs using List.reverseRecOn with
  | nil => exact ⟨rfl, rfl⟩
  | append_singleton packs pack ih =>
      obtain ⟨hfound, hregistered⟩ := ih
      rcases taken_concat_cases tools e packs pack with
        ⟨-, -, heq⟩ | ⟨-, report, engine, hload, -, heq⟩
      · rw [heq]
        exact ⟨hfound, hregistered⟩
      · have hbalanced := balanced_of_loadPack hload
        rw [heq]
        dsimp only [LoadSummary.add]
        rw [hfound, hregistered, hbalanced.found, hbalanced.registered]
        exact ⟨by omega, rfl⟩

/-! ### The last pack that lists a name -/

/-- **An accepted pack, among the others.**  It was taken after the accepted ones before it, and then
those behind it were taken. -/
theorem accepted_eq_append {front back : List (Pack × LoadReport)}
    (h : e.accepted tools packs = front ++ (pack, report) :: back) :
    ∃ loaded,
      (e.taken tools (front.map Prod.fst)).engine.loadPack tools pack = (.ok report, loaded) ∧
      loaded.accepted tools (back.map Prod.fst) = back ∧
      (e.taken tools packs).engine = (loaded.taken tools (back.map Prod.fst)).engine := by
  induction packs generalizing e front with
  | nil => exact absurd h (by simp [accepted])
  | cons first packs ih =>
      rw [engine_taken_cons]
      rw [accepted] at h
      rcases hload : e.loadPack tools first with ⟨defect | report', e'⟩
      · rw [hload] at h
        obtain ⟨loaded, hpack, hback, hengine⟩ := ih h
        refine ⟨loaded, ?_, hback, hengine⟩
        have hsame : e' = e := by
          unfold loadPack at hload
          split at hload <;> cases hload
          rfl
        rwa [hsame] at hpack
      · rw [hload] at h
        cases front with
        | nil =>
            obtain ⟨hfirst, hback⟩ := List.cons.inj h
            cases hfirst
            obtain ⟨haccepted, htaken⟩ := taken_filter tools e' packs
            dsimp only at hback ⊢
            rw [← map_fst_accepted tools e', hback] at haccepted htaken
            refine ⟨e', hload, haccepted, ?_⟩
            rw [htaken]
        | cons entry front =>
            obtain ⟨rfl, hrest⟩ := List.cons.inj h
            obtain ⟨loaded, hpack, hback, hengine⟩ := ih hrest
            refine ⟨loaded, ?_, hback, hengine⟩
            rw [List.map_cons, engine_taken_cons, hload]
            exact hpack

/-- A name is in use exactly if it was before, or a report lists it. -/
theorem contains_taken (h : e.catalog.Indexed) (packs : List Pack) :
    (e.taken tools packs).engine.catalog.contains name = true ↔
      e.catalog.contains name = true ∨ ∃ entry ∈ e.accepted tools packs, name ∈ entry.2.pipelines := by
  induction packs using List.reverseRecOn with
  | nil => simp [taken, accepted]
  | append_singleton packs pack ih =>
      rcases taken_concat_cases tools e packs pack with
        ⟨-, haccepted, heq⟩ | ⟨-, report, engine, hload, haccepted, heq⟩
      · rw [haccepted, heq]
        exact ih
      · have hindexed := (taken_keeps tools packs h).1
        have hloaded := loaded_of_loadPack hindexed hload
        rw [haccepted, heq]
        simp only [List.mem_append, List.mem_singleton, or_and_right, exists_or, exists_eq_left,
          ← or_assoc, ← ih]
        constructor
        · intro hname
          by_cases hlisted : name ∈ report.pipelines
          · exact .inr hlisted
          · rw [hloaded.indexed.contains_iff, hloaded.others name hlisted,
              ← hindexed.contains_iff] at hname
            exact .inl hname
        · rintro (hname | hlisted)
          · exact hloaded.contains hindexed hname
          · exact hloaded.listed name hlisted

/-- Under a name that no report lists, the same is found as before. -/
theorem get?_taken (h : e.catalog.Indexed) (packs : List Pack)
    (hname : ∀ entry ∈ e.accepted tools packs, name ∉ entry.2.pipelines) :
    (e.taken tools packs).engine.catalog.get? name = e.catalog.get? name := by
  induction packs using List.reverseRecOn with
  | nil => rfl
  | append_singleton packs pack ih =>
      rcases taken_concat_cases tools e packs pack with
        ⟨-, haccepted, heq⟩ | ⟨-, report, engine, hload, haccepted, heq⟩
      · rw [heq]
        exact ih (haccepted ▸ hname)
      · rw [haccepted] at hname
        have hloaded := loaded_of_loadPack (taken_keeps tools packs h).1 hload
        rw [heq]
        dsimp only
        rw [hloaded.others name (hname (pack, report) (by simp))]
        exact ih fun entry hentry => hname entry (List.mem_append_left _ hentry)

/-- Overriding afterwards changes no pipeline. -/
theorem get?_loadPacks (tools : Toolchain) (e : Engine τ η) (packs : List Pack) (name : String) :
    (e.loadPacks tools packs).2.catalog.get? name =
      (e.taken tools packs).engine.catalog.get? name := by
  rw [loadPacks_eq_finished]
  unfold Progress.finished
  split
  · refine overrideMain_rel
      (fun c _ => c.get? name = (e.taken tools packs).engine.catalog.get? name)
      (fun c _ other h => ?_) (fun _ _ h => h) _ (e.taken tools packs).engine.catalog rfl _ _
    rw [Catalog.setOverride_snd]
    exact h
  · rfl

/-! ### Several packs -/

/-- Packs of which the same pass leave the same, and differ in how many are refused. -/
theorem loadPacks_of_filter_eq (tools : Toolchain) (e : Engine τ η) {others : List Pack}
    (h : others.filter Pack.passes = packs.filter Pack.passes) :
    (e.loadPacks tools others).2 = (e.loadPacks tools packs).2 ∧
      (e.loadPacks tools others).1 =
        { (e.loadPacks tools packs).1 with
          packsRejected := others.countP fun pack => !pack.passes } := by
  have htaken : e.taken tools others =
      { e.taken tools packs with
        summary :=
          { (e.taken tools packs).summary with
            packsRejected := others.countP fun pack => !pack.passes } } := by
    rw [(taken_filter tools e others).2, h, (taken_filter tools e packs).2]
  rw [loadPacks_eq_finished, loadPacks_eq_finished, htaken]
  exact ⟨rfl, rfl⟩

/-- If no name was in use before, those in use afterwards are the names that the reports list. -/
theorem get?_loadPacks_iff (hblank : e.catalog.Blank) (packs : List Pack) (name : String) :
    (∃ p, (e.loadPacks tools packs).2.catalog.get? name = some p) ↔
      ∃ entry ∈ e.accepted tools packs, name ∈ entry.2.pipelines := by
  have hindexed := (taken_keeps tools packs hblank.indexed).1
  simp only [get?_loadPacks]
  rw [← hindexed.contains_iff, contains_taken hblank.indexed]
  refine or_iff_right fun hname => ?_
  obtain ⟨p, hp⟩ := hblank.indexed.contains_iff.1 hname
  rw [hblank.get?_eq] at hp
  cases hp

/-- **The pipeline of a name** is the one that the last pack whose report lists it has registered. -/
theorem get?_loadPacks_last (h : e.catalog.Indexed) {front back : List (Pack × LoadReport)}
    (hentries : e.accepted tools packs = front ++ (pack, report) :: back)
    (hlisted : name ∈ report.pipelines) (hlast : ∀ entry ∈ back, name ∉ entry.2.pipelines) :
    ∃ loaded spec p,
      (e.taken tools (front.map Prod.fst)).engine.loadPack tools pack = (.ok report, loaded) ∧
      (e.loadPacks tools packs).2.catalog.get? name = some p ∧
      loaded.catalog.get? name = some p ∧ pack.pipelines.get? name = some spec ∧
      p.name = name ∧ p.pack = pack ∧ p.drawState = .ofSpec spec ∧ p.phase = .waiting := by
  obtain ⟨loaded, hload, hback, hengine⟩ := accepted_eq_append hentries
  have hbefore := (taken_keeps tools (front.map Prod.fst) h).1
  obtain ⟨spec, p, hspec, hget, hname, hpack, hdraw, hphase⟩ :=
    get?_of_loadPack hbefore hload hlisted
  refine ⟨loaded, spec, p, hload, ?_, hget, hspec, hname, hpack, hdraw, hphase⟩
  have hloaded := (loaded_of_loadPack hbefore hload).indexed
  rw [get?_loadPacks, hengine, get?_taken hloaded _ (by rwa [hback]), hget]

/-- **What several packs leave can be read off the accepted ones,** whatever the engine and the packs.

* Packs that are refused may be put in or left out anywhere: the engine is the same afterwards, and so
  is the summary but for their number.
* The accepted packs are those that pass, in their order.
* The summary counts them and adds up their reports.  Each pipeline that was found compiled or failed,
  and those that compiled are registered.
* If no name was in use before, those in use afterwards are the names that the reports list.  The
  pipeline of a name is the one that the last pack whose report lists it has registered when it was
  taken, and that was declared by this pack. -/
theorem loadPacks_accepted (tools : Toolchain) (e : Engine τ η) (packs : List Pack) :
    let entries := e.accepted tools packs
    let summary := (e.loadPacks tools packs).1
    let final := (e.loadPacks tools packs).2
    (∀ others : List Pack, others.filter Pack.passes = packs.filter Pack.passes →
        (e.loadPacks tools others).2 = final ∧
          (e.loadPacks tools others).1 =
            { summary with packsRejected := others.countP fun pack => !pack.passes }) ∧
      entries.map Prod.fst = packs.filter Pack.passes ∧
      summary =
        { packsLoaded := entries.length
          packsRejected := packs.countP fun pack => !pack.passes
          found := (entries.map fun entry => entry.2.found).sum
          compiled := (entries.map fun entry => entry.2.compiled).sum
          registered := (entries.map fun entry => entry.2.registered).sum
          failed := (entries.map fun entry => entry.2.failed).sum } ∧
      (summary.found = summary.compiled + summary.failed ∧
        summary.registered = summary.compiled) ∧
      (e.catalog.Blank → ∀ name,
        ((∃ p, final.catalog.get? name = some p) ↔
            ∃ entry ∈ entries, name ∈ entry.2.pipelines) ∧
          ∀ front pack report back, entries = front ++ (pack, report) :: back →
            name ∈ report.pipelines → (∀ entry ∈ back, name ∉ entry.2.pipelines) →
              ∃ loaded spec p,
                (e.taken tools (front.map Prod.fst)).engine.loadPack tools pack =
                  (.ok report, loaded) ∧
                final.catalog.get? name = some p ∧ loaded.catalog.get? name = some p ∧
                pack.pipelines.get? name = some spec ∧ p.name = name ∧ p.pack = pack ∧
                p.drawState = .ofSpec spec ∧ p.phase = .waiting) := by
  intro entries summary final
  have hsummary : summary = (e.taken tools packs).summary := by
    simp only [summary, loadPacks_eq_finished]
  refine ⟨fun others => loadPacks_of_filter_eq tools e, map_fst_accepted tools e packs,
    hsummary.trans (summary_taken tools e packs), ?_, fun hblank name => ⟨?_, ?_⟩⟩
  · rw [hsummary]
    exact summary_taken_balanced tools e packs
  · exact get?_loadPacks_iff hblank packs name
  · intro front pack report back hentries hlisted hlast
    exact get?_loadPacks_last hblank.indexed hentries hlisted hlast

/-- A pack whose pipeline has no fragment shader, so it is accepted and the pipeline fails. -/
def vertexOnly (name pipeline : String) : Pack :=
  (Pack.named name "1.0").withPipeline pipeline { vertex := some "a.vsh" }
    |>.withSource "a.vsh" ""

/-- Two packs with a pipeline of one name, between them one that is refused.  The pipeline of the
second pack fails, so the name has that of the first one, with or without the refused pack. -/
theorem loadPacks_accepted_failing :
    let first := single "A" "terrain" .main
    let last := vertexOnly "B" "terrain"
    let packs := [first, Pack.named "void" "1.0", last]
    fresh.catalog.Blank ∧ packs.filter Pack.passes = [first, last] ∧
      (fresh.loadPacks plain [first, last]).2 = (fresh.loadPacks plain packs).2 ∧
      (fresh.loadPacks plain packs).1.packsRejected = 1 ∧
      ∃ p, (fresh.loadPacks plain packs).2.catalog.get? "terrain" = some p ∧ p.pack = first := by
  intro first last packs
  have hfirst : first.passes = true := by decide +kernel
  have hlast : last.passes = true := by decide +kernel
  have hvoid : (Pack.named "void" "1.0").passes = false := by decide +kernel
  have hpasses : packs.filter Pack.passes = [first, last] := by
    simp [packs, hfirst, hlast, hvoid]
  have hothers : [first, last].filter Pack.passes = packs.filter Pack.passes := by
    rw [hpasses]
    simp [hfirst, hlast]
  obtain ⟨hsame, hentries, hsummary, -, hnames⟩ := loadPacks_accepted plain fresh packs
  have hreports : (fresh.accepted plain packs).map Prod.snd =
      [⟨"A", 1, 1, 1, 0, ["terrain"]⟩, ⟨"B", 1, 0, 0, 1, []⟩] := by decide +kernel
  obtain ⟨loaded, spec, p, -, hget, -, -, -, hpack, -⟩ :=
    (hnames Catalog.blank_empty "terrain").2 [] first _ [_]
      (List.zip_of_prod (hentries.trans hpasses) hreports) (by simp) (by simp)
  refine ⟨Catalog.blank_empty, hpasses, (hsame _ hothers).1, ?_, p, hget, hpack⟩
  rw [hsummary]
  decide +kernel

end Engine

end Shaderworks
