/-
**The outcome of taking a pack.**

A pack with a defect changes nothing at all.  Any other pack goes on the shelf, its good pipelines
take the place of the pipelines of their names, and its bad ones are counted.  Nothing else changes
in the catalog, and it does not matter what the cache has or what the engine did before.

Main results:

* `Engine.loadPack_outcome` — **the exact outcome of taking a pack.**
-/

import Shaderworks.Proofs.Engine.Reached
import Shaderworks.Proofs.Pack.Selection
import Shaderworks.Proofs.Pipeline.Accounts

set_option autoImplicit false

namespace Shaderworks

variable {τ η : Type}

namespace Engine

variable {tools : Toolchain} {jobs : List CompileJob} {e : Engine τ η}

/-- **The exact outcome of taking a pack**, by any engine that can be reached, when different shaders
have different keys.

* A pack with a defect is refused, and the engine is what it was.
* Any other pack is accepted.  The report lists by ascending name exactly its good pipelines, and
  counts them and the others.
* The catalog afterwards is the previous one with exactly the good pipelines registered: they wait,
  and are what the host's tools make of them, whatever the cache has.  The pipelines that they
  replace are disposed of, and a handle is released once.
* The pack is found on the shelf. -/
theorem loadPack_outcome (h : Reached tools jobs e) (pack : Pack)
    (hkeys : Compiler.KeysApart tools e.settings.maxDepth (jobs ++ pack.jobs)) :
    (∀ defect, pack.check = .error defect → e.loadPack tools pack = (.error defect, e)) ∧
      (pack.check = .ok () →
        ∃ (report : LoadReport) (e' : Engine τ η) (fresh : List (Pipeline η)),
          e.loadPack tools pack = (.ok report, e') ∧
          (report.pack = pack.name ∧ report.found = pack.pipelines.size ∧
            report.compiled = report.pipelines.length ∧
            report.registered = report.pipelines.length ∧
            report.compiled + report.failed = report.found) ∧
          (report.pipelines.Pairwise (· < ·) ∧
            ∀ name, name ∈ report.pipelines ↔ ∃ spec,
              pack.pipelines.get? name = some spec ∧
                pack.Good tools e.settings.maxDepth spec) ∧
          (fresh.map Pipeline.name = report.pipelines ∧
            ∀ p ∈ fresh, p.phase = .waiting ∧ p.pack = pack ∧ ∃ spec,
              pack.pipelines.get? p.name = some spec ∧ p.drawState = .ofSpec spec ∧
                pack.uncached tools e.settings.maxDepth p.name spec = .ok p.asCompiled) ∧
          e.catalog.Replaces e'.catalog fresh ∧
          (e'.shelf = e.shelf.register pack ∧ e'.shelf.get? pack.name = some pack ∧
            e'.settings = e.settings)) := by
  refine ⟨fun defect hcheck => loadPack_of_defect hcheck, fun hcheck => ?_⟩
  have hsound := h.proper.sound.mono (List.subset_append_left jobs pack.jobs)
  obtain ⟨compiler, fresh, -, hfresh, heq⟩ :=
    loadPack_of_ok hsound (List.subset_append_right jobs pack.jobs) hcheck
  have hcompiled := hfresh hkeys
  -- Where its shaders came from does not show in the name of a pipeline.
  have hnames : fresh.map Pipeline.name =
      (pack.compiled (η := η) tools e.settings.maxDepth).map Pipeline.name := by
    rw [← hcompiled, List.map_map]
    rfl
  obtain ⟨hascending, hgood⟩ := Pack.names_compiled (η := η) tools e.settings.maxDepth pack
  rw [← hnames] at hascending hgood
  have hle : fresh.length ≤ pack.pipelines.size := by
    have hlength := congrArg List.length hcompiled
    rw [List.length_map] at hlength
    rw [hlength]
    exact List.length_filterMap_le ..
  refine ⟨_, _, fresh, heq, ⟨rfl, rfl, ?_, ?_, ?_⟩, ⟨hascending, hgood⟩, ⟨rfl, fun p hp => ?_⟩, ?_,
    rfl, ?_, rfl⟩
  · simp [reportOn]
  · simp [reportOn]
  · exact Nat.add_sub_cancel' hle
  · obtain ⟨spec, hspec, hok⟩ := Pack.mem_compiled.1 (hcompiled ▸ List.mem_map_of_mem hp)
    obtain ⟨-, hpack, hdraw, hphase⟩ := Pack.fields_of_uncached hok
    exact ⟨hphase, hpack, spec, hspec, hdraw, hok⟩
  · exact Catalog.replaces_registerAll h.proper.managed.toIndexed
      (NameMap.nodup_of_ascending hascending)
  · rw [Shelf.get?_register, if_pos rfl]

/-- A pack with a good pipeline, one without a fragment shader, and one whose fragment shader asks
for a file that is missing. -/
def mixed : Pack :=
  (Pack.named "mixed" "1.0").withPipeline "good"
      { vertex := some "a.vsh", fragment := some "a.fsh" }
    |>.withPipeline "half" { vertex := some "a.vsh" }
    |>.withPipeline "lost" { vertex := some "a.vsh", fragment := some "b.fsh" }
    |>.withSource "a.vsh" "" |>.withSource "a.fsh" ""
    |>.withSource "b.fsh" "#include \"c.glsl\"\n"

/-- Its good pipeline is the one called so. -/
theorem good_mixed_iff (name : String) :
    (∃ spec, mixed.pipelines.get? name = some spec ∧ mixed.Good Compiler.echo 32 spec) ↔
      name = "good" := by
  have hentries : mixed.pipelines.entries =
      [("good", { vertex := some "a.vsh", fragment := some "a.fsh" }),
        ("half", { vertex := some "a.vsh" }),
        ("lost", { vertex := some "a.vsh", fragment := some "b.fsh" })] := by decide +kernel
  have hlost : ∃ fault, Shader.expand mixed.sources 32 "#include \"c.glsl\"\n" "b.fsh" =
      .error fault := ⟨_, rfl⟩
  constructor
  · rintro ⟨spec, hspec, hgood⟩
    have hentry := mem_of_lookup hspec
    rw [hentries] at hentry
    simp only [List.mem_cons, Prod.mk.injEq, List.not_mem_nil, or_false] at hentry
    rcases hentry with ⟨hname, -⟩ | ⟨-, rfl⟩ | ⟨-, rfl⟩
    · exact hname
    · cases hgood.fragment
    · obtain ⟨source, expanded, -, hsource, hexpand, -⟩ := hgood.accepted .fragment "b.fsh" rfl
      obtain ⟨fault, hfault⟩ := hlost
      have hfile : mixed.source? "b.fsh" = some "#include \"c.glsl\"\n" := by decide +kernel
      rw [hfile, Option.some.injEq] at hsource
      rw [← hsource, hfault] at hexpand
      cases hexpand
  · rintro rfl
    refine ⟨{ vertex := some "a.vsh", fragment := some "a.fsh" }, by decide +kernel, rfl, rfl, ?_⟩
    intro stage path hpath
    cases stage with
    | vertex =>
        cases hpath
        exact ⟨"", "", [], by decide +kernel, by decide +kernel, by decide +kernel⟩
    | fragment =>
        cases hpath
        exact ⟨"", "", [], by decide +kernel, by decide +kernel, by decide +kernel⟩
    | geometry => cases hpath

theorem keysApart_mixed : Compiler.KeysApart Compiler.echo 32 mixed.jobs := by
  let vertex : ShaderIdentity := ⟨"a.vsh", "", .vertex, "1.0"⟩
  let fragment : ShaderIdentity := ⟨"a.fsh", "", .fragment, "1.0"⟩
  have hidentities : mixed.jobs.filterMap (Compiler.finalIdentity? Compiler.echo 32) =
      [vertex, fragment, vertex, vertex] := by decide +kernel
  have hne : vertex.key ≠ fragment.key := by decide +kernel
  rw [Compiler.keysApart_iff, hidentities]
  simp [hne, hne.symm]

/-- A new engine on a new directory of a name. -/
def inDirectory (dir : Path) : Engine Unit Nat where
  settings := { cacheDir := dir }
  compiler :=
    { cache := { files := (FileTree.empty.createDirectories dir).2, dir }
      maxDepth := defaultMaxDepth }

theorem start_inDirectory {dir : Path} (h : (FileTree.empty.createDirectories dir).1 = none) :
    start { cacheDir := dir } FileTree.empty = (.ok (inDirectory dir), (inDirectory dir).files) := by
  unfold start Cache.mount
  rcases hmade : FileTree.empty.createDirectories dir with ⟨fault, made⟩
  rw [hmade] at h
  subst h
  simp [inDirectory, files, hmade]

/-- The same engine after the host registered a pipeline of its own and built it. -/
def occupied (dir : Path) (name : String) (handle : Nat) : Engine Unit Nat :=
  { inDirectory dir with
    catalog := (inDirectory dir).catalog.after
      [.call (.register (Catalog.bare name)), .call (.activate (fun _ => .ok handle) name ())] }

theorem reached_occupied (name : String) (handle : Nat) :
    Reached tools [] (occupied "cache" name handle) := by
  have hnew : Reached (η := Nat) tools [] (inDirectory "cache") :=
    .start (start_inDirectory (by decide +kernel))
      (Cache.contentAt_home_of_namesIn (by decide +kernel))
  exact (hnew.catalog (.call (.register (Catalog.bare name)))).catalog
    (.call (.activate (fun _ => .ok handle) name ()))

/-- A pack takes over a name under which a pipeline was built: the handle is released, and the two
bad pipelines are counted. -/
theorem loadPack_outcome_occupied :
    let e := occupied "cache" "good" 7
    Reached Compiler.echo [] e ∧
      Compiler.KeysApart Compiler.echo e.settings.maxDepth ([] ++ mixed.jobs) ∧
      mixed.check = .ok () ∧
      ∃ report e', e.loadPack Compiler.echo mixed = (.ok report, e') ∧
        report.found = 3 ∧ report.failed = 2 ∧ report.pipelines = ["good"] ∧
        e'.catalog.events = e.catalog.events ++ [.released 7] := by
  intro e
  have hreached : Reached Compiler.echo [] e := reached_occupied "good" 7
  have hcheck : mixed.check = .ok () := by decide +kernel
  have hsize : mixed.pipelines.size = 3 := by decide +kernel
  have hheld : (e.catalog.get? "good").bind Pipeline.handle? = some 7 := by decide +kernel
  obtain ⟨report, e', fresh, heq, ⟨-, hfound, hcompiled, -, hsum⟩, ⟨hascending, hgood⟩,
    ⟨hnames, -⟩, hreplaces, -⟩ := (loadPack_outcome hreached mixed keysApart_mixed).2 hcheck
  have hpipelines : report.pipelines = ["good"] := by
    refine List.perm_singleton.1 ((List.perm_ext_iff_of_nodup ?_ (List.nodup_singleton _)).2 ?_)
    · exact NameMap.nodup_of_ascending hascending
    · intro name
      rw [List.mem_singleton, ← good_mixed_iff]
      exact hgood name
  rw [hpipelines] at hcompiled hnames
  rw [hcompiled, hfound, hsize] at hsum
  refine ⟨hreached, keysApart_mixed, hcheck, report, e', heq, hfound.trans hsize, ?_, hpipelines, ?_⟩
  · simp only [List.length_cons, List.length_nil] at hsum
    omega
  · obtain ⟨p, rfl, hname⟩ := List.map_eq_singleton_iff.1 hnames
    rw [hreplaces.events]
    simp [hname, hheld]

end Engine

end Shaderworks
