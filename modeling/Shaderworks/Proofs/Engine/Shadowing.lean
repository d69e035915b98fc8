/-
**Which pack of a directory a pipeline comes from.**

The packs of a directory are taken by ascending name, and a pipeline that compiles takes the place of
the earlier one of its name.  So of the packs that bring a pipeline of some name the one with the
greatest name of its own prevails, and neither the order in which the directory is listed nor what else
lies in it has a say.

Main results:

* `Engine.loadFrom_eq` — the packs of a directory are taken as they are discovered;
* `Engine.exists_latest` — a pipeline comes from the latest pack that brings it;
* `Engine.discovery_by_name` — **what is discovered, and which pack prevails, by the names in a
  directory.**
-/

import Shaderworks.Proofs.Engine.Accepted
import Shaderworks.Proofs.Pack.Discovery
import Shaderworks.Proofs.Text.ByteOrder

set_option autoImplicit false

namespace Shaderworks

variable {τ η : Type}

/-- Of the members of a list with some property one is the last. -/
theorem exists_last {α : Type} {P : α → Prop} {l : List α} (h : ∃ x ∈ l, P x) :
    ∃ front x back, l = front ++ x :: back ∧ P x ∧ ∀ y ∈ back, ¬ P y := by
  induction l with
  | nil =>
      obtain ⟨x, hx, -⟩ := h
      cases hx
  | cons a l ih =>
      by_cases hl : ∃ x ∈ l, P x
      · obtain ⟨front, x, back, rfl, hx, hback⟩ := ih hl
        exact ⟨a :: front, x, back, rfl, hx, hback⟩
      · have ha : P a := (List.exists_mem_cons_iff ..).1 h |>.resolve_right hl
        exact ⟨[], a, l, rfl, ha, fun y hy hp => hl ⟨y, hy, hp⟩⟩

namespace Engine

variable {tools : Toolchain} {e : Engine τ η} {packs : List Pack} {pipeline : String}
  {files : FileTree} {dir : Path} {place : Place}

/-- The packs of a directory are taken as they are discovered. -/
theorem loadFrom_eq (tools : Toolchain) (hfind : e.files.find dir = .ok (place, .directory)) :
    e.loadFrom tools dir = e.loadPacks tools (discover e.settings.manifestName e.files dir).1 := by
  obtain ⟨names, hnames⟩ := FileTree.namesIn_of_find hfind
  rw [loadFrom, discover_eq hfind hnames]
  rfl

/-- **A pipeline comes from the latest pack that brings it:** the others that do come before it. -/
theorem exists_latest {R : Pack → Pack → Prop} (hindexed : e.catalog.Indexed)
    (horder : packs.Pairwise R)
    (hlisted : ∃ entry ∈ e.accepted tools packs, pipeline ∈ entry.2.pipelines) :
    ∃ p report, (e.loadPacks tools packs).2.catalog.get? pipeline = some p ∧
      (p.pack, report) ∈ e.accepted tools packs ∧ pipeline ∈ report.pipelines ∧
      ∀ entry ∈ e.accepted tools packs, pipeline ∈ entry.2.pipelines →
        entry = (p.pack, report) ∨ R entry.1 p.pack := by
  obtain ⟨front, ⟨pack, report⟩, back, hentries, hbrings, hlast⟩ := exists_last hlisted
  obtain ⟨-, -, p, -, hget, -, -, -, rfl, -⟩ :=
    get?_loadPacks_last hindexed hentries hbrings hlast
  refine ⟨p, report, hget, by simp [hentries], hbrings, fun entry hentry hother => ?_⟩
  -- The accepted packs keep the order of the packs.
  have haccepted := horder.filter Pack.passes
  rw [← map_fst_accepted tools e, List.pairwise_map, hentries, List.pairwise_append] at haccepted
  rw [hentries, List.mem_append, List.mem_cons] at hentry
  rcases hentry with hfront | rfl | hback
  · exact .inr (haccepted.2.2 entry hfront _ List.mem_cons_self)
  · exact .inl rfl
  · exact absurd hother (hlast entry hback)

/-- Taking packs keeps the depth to which includes are followed. -/
theorem maxDepth_taken (tools : Toolchain) (e : Engine τ η) (packs : List Pack) :
    (e.taken tools packs).engine.compiler.maxDepth = e.compiler.maxDepth := by
  have hload : ∀ (e : Engine τ η) (pack : Pack),
      (e.loadPack tools pack).2.compiler.maxDepth = e.compiler.maxDepth := by
    intro e pack
    unfold loadPack
    cases pack.check with
    | error defect => rfl
    | ok _ =>
        dsimp only
        rw [compiler_foldl, maxDepth_compilerAfter]
  induction packs using List.reverseRecOn with
  | nil => rfl
  | append_singleton packs pack ih => rw [taken_concat, engine_loadNext, hload, ih]

/-- A pack without a defect brings its good pipelines, whatever the cache has. -/
theorem exists_accepted_of_good {pack : Pack} {spec : PipelineSpec} (hmem : pack ∈ packs)
    (hcheck : pack.check = .ok ()) (hspec : pack.pipelines.get? pipeline = some spec)
    (hgood : pack.Good tools e.compiler.maxDepth spec) :
    ∃ report, (pack, report) ∈ e.accepted tools packs ∧ pipeline ∈ report.pipelines := by
  have hpasses : pack ∈ (e.accepted tools packs).map Prod.fst := by
    rw [map_fst_accepted]
    exact List.mem_filter.2 ⟨hmem, Pack.passes_of_ok hcheck⟩
  obtain ⟨⟨pack, report⟩, hentry, rfl⟩ := List.mem_map.1 hpasses
  obtain ⟨front, back, hentries⟩ := List.append_of_mem hentry
  obtain ⟨loaded, hload, -⟩ := accepted_eq_append hentries
  rw [← maxDepth_taken tools e (front.map Prod.fst)] at hgood
  exact ⟨report, hentry, mem_pipelines_of_good hload hspec hgood⟩

/-- **What is discovered, and which pack prevails, by the names in a directory.**  Take a directory in a
tree whose names are all names that files can have, with whatever in it.

* The packs that are discovered are those that can be loaded from candidates, the subdirectories with a
  manifest and the regular files with the extension of archives, in the byte order of their names.
* They are the same in whatever order the names are listed.
* They are the same in every other tree where each name in the directory has the same at and below it,
  or yields no pack in either tree, because it is no candidate or cannot be loaded.
* When an engine takes the packs of the directory, every accepted one brings its good pipelines, and a
  pipeline that some of them bring is that of the one with the greatest name among these. -/
theorem discovery_by_name (hnamed : files.Named)
    (hfind : files.find dir = .ok (place, .directory)) :
    (∀ manifestName,
      (∃ names : List String, names.Pairwise (fun a b => Bytes.ofText a < Bytes.ofText b) ∧
        (∀ name, name ∈ names ↔ Candidate manifestName files dir place name) ∧
        discover manifestName files dir = (names.filterMap (packAt? manifestName files dir), files)) ∧
      (∀ listed names, files.namesIn dir = .ok listed → names.Perm listed →
        packsNamed manifestName files dir names = (discover manifestName files dir).1) ∧
      ∀ files' place', files'.Named → files'.find dir = .ok (place', .directory) →
        (∀ name, FileTree.IsName name →
          (∀ below, files.entryAt (place ++ name :: below) =
            files'.entryAt (place' ++ name :: below)) ∨
          (∀ pack, ¬ Found manifestName files dir place name pack ∧
            ¬ Found manifestName files' dir place' name pack)) →
        (discover manifestName files' dir).1 = (discover manifestName files dir).1) ∧
      ∀ (tools : Toolchain) (e : Engine τ η), e.catalog.Indexed → e.files = files →
        ∀ pipeline,
          let found := Found e.settings.manifestName files dir place
          let accepted := e.accepted tools (discover e.settings.manifestName files dir).1
          (∀ name pack spec, found name pack → pack.check = .ok () →
            pack.pipelines.get? pipeline = some spec → pack.Good tools e.compiler.maxDepth spec →
              ∃ report, (pack, report) ∈ accepted ∧ pipeline ∈ report.pipelines) ∧
          ((∃ entry ∈ accepted, pipeline ∈ entry.2.pipelines) →
            ∃ name p, (e.loadFrom tools dir).2.catalog.get? pipeline = some p ∧
              found name p.pack ∧
              (∃ report, (p.pack, report) ∈ accepted ∧ pipeline ∈ report.pipelines) ∧
              ∀ entry ∈ accepted, pipeline ∈ entry.2.pipelines →
                ∃ other, found other entry.1 ∧
                  (other = name ∨ Bytes.ofText other < Bytes.ofText name)) := by
  refine ⟨fun manifestName => ⟨?_, fun listed names hlisted hperm => ?_, ?_⟩, ?_⟩
  · obtain ⟨names, hascending, hcandidates, hdiscover⟩ :=
      exists_candidates manifestName hnamed hfind
    exact ⟨names, hascending.imp Bytes.ofText_lt_iff.2, hcandidates, hdiscover⟩
  · exact packsNamed_of_perm hfind hlisted hperm
  · intro files' place' hnamed' hfind' hentries
    refine discover_eq_of_found_iff hnamed' hnamed hfind' hfind fun name pack => ?_
    constructor
    · intro hfound
      have hname := hnamed' place' name hfound.1.isSome
      rcases hentries name hname with hsame | hidle
      · exact found_congr hname hfind' hfind (fun below => (hsame below).symm) hfound
      · exact absurd hfound (hidle pack).2
    · intro hfound
      have hname := hnamed place name hfound.1.isSome
      rcases hentries name hname with hsame | hidle
      · exact found_congr hname hfind hfind' hsame hfound
      · exact absurd hfound (hidle pack).1
  · intro tools e hindexed hfiles pipeline found accepted
    subst hfiles
    refine ⟨fun name pack spec hfound hcheck hspec hgood => ?_, fun hlisted => ?_⟩
    · have hmem := (mem_discover_iff hnamed hfind).2 ⟨name, hfound⟩
      exact exists_accepted_of_good hmem hcheck hspec hgood
    have horder := discover_ascending e.settings.manifestName hnamed hfind
    obtain ⟨p, report, hget, haccepted, hbrings, hothers⟩ :=
      exists_latest hindexed horder hlisted
    -- What is accepted was discovered.
    have hdiscovered : ∀ entry ∈ accepted, ∃ name, found name entry.1 := by
      intro entry hentry
      have hmem := List.mem_map_of_mem (f := Prod.fst) hentry
      rw [map_fst_accepted] at hmem
      exact (mem_discover_iff hnamed hfind).1 (List.mem_of_mem_filter hmem)
    obtain ⟨name, hname⟩ := hdiscovered _ haccepted
    refine ⟨name, p, ?_, hname, ⟨report, haccepted, hbrings⟩, fun entry hentry hother => ?_⟩
    · rw [loadFrom_eq tools hfind]
      exact hget
    · obtain ⟨other, hfound⟩ := hdiscovered entry hentry
      rcases hothers entry hentry hother with rfl | hbefore
      · exact ⟨other, hfound, .inl (hfound.unique hnamed hname)⟩
      · exact ⟨other, hfound, .inr (Bytes.ofText_lt_iff.2 (hbefore other name hfound hname))⟩

/-- Two packs with a pipeline of one name, of which the one with the greater name was there first. -/
def rivals : FileTree :=
  let made := ["cache", "packs/b", "packs/a"].foldl
    (fun files dir => (files.createDirectories dir).2) FileTree.empty
  let manifest (name : String) := "\x7b\"name\":\"" ++ name ++ "\",\"version\":\"1.0\"," ++
    "\"pipelines\":\x7b\"p\":\x7b\"vertex\":\"s\",\"fragment\":\"s\"\x7d\x7d\x7d"
  ["a", "b"].foldl
    (fun files name =>
      (files.set ["packs", name, "pack.json"] (.file (Bytes.ofText (manifest name)))).set
        ["packs", name, "s"] (.file []))
    made

/-- The same directory with an archive that is none, a directory without a manifest and a text. -/
def crowded : FileTree :=
  ((rivals.set ["packs", "c.ZIP"] (.file [80])).set ["packs", "d"] .directory).set
    ["packs", "notes.txt"] (.file [])

/-- A new engine among these files. -/
def amongRivals : Engine Unit Unit where
  settings := {}
  compiler :=
    { cache := { files := crowded, dir := "cache" }
      maxDepth := defaultMaxDepth }

/-- Each of the two packs can be loaded and has a good pipeline. -/
theorem good_rivals {name : String} (h : name = "a" ∨ name = "b") :
    ∃ pack spec, Found "pack.json" crowded "packs" ["packs"] name pack ∧ pack.check = .ok () ∧
      pack.pipelines.get? "p" = some spec ∧ pack.Good plain defaultMaxDepth spec := by
  let spec : PipelineSpec := { vertex := some "s", fragment := some "s" }
  have hpack : (packAt? "pack.json" crowded "packs" name).map (fun pack =>
      (pack.check, pack.pipelines.get? "p", pack.source? "s")) =
        some (.ok (), some spec, some "") := by
    rcases h with rfl | rfl <;> decide +kernel
  have hcandidate : Candidate "pack.json" crowded "packs" ["packs"] name := by
    rcases h with rfl | rfl <;> exact .inl (by decide +kernel)
  obtain ⟨pack, hfound, hfacts⟩ := Option.map_eq_some_iff.1 hpack
  simp only [Prod.mk.injEq] at hfacts
  obtain ⟨hcheck, hspec, hsource⟩ := hfacts
  refine ⟨pack, spec, ⟨hcandidate, packAt?_eq_some_iff.1 hfound⟩, hcheck, hspec, rfl, rfl, ?_⟩
  intro stage path hpath
  have hexpand : Shader.expand pack.sources defaultMaxDepth "" path = .ok "" := rfl
  have hs : path = "s" := by
    cases stage <;> cases hpath <;> rfl
  exact ⟨"", "", _, hs ▸ hsource, hexpand, rfl⟩

/-- The entries that yield no pack do not matter, and the pipeline that both packs bring is that of the
one with the greater name. -/
theorem discovery_by_name_rivals :
    crowded.Named ∧ crowded.find "packs" = .ok (["packs"], .directory) ∧
      rivals.Named ∧ rivals.find "packs" = .ok (["packs"], .directory) ∧
      amongRivals.catalog.Indexed ∧ amongRivals.files = crowded ∧
      (discover "pack.json" rivals "packs").1 = (discover "pack.json" crowded "packs").1 ∧
      ∃ p, (amongRivals.loadFrom plain "packs").2.catalog.get? "p" = some p ∧
        p.pack.origin = some "packs/b" := by
  have hnamed : crowded.Named := by decide +kernel
  have hfind : crowded.find "packs" = .ok (["packs"], .directory) := by decide +kernel
  have hnamed' : rivals.Named := by decide +kernel
  have hfind' : rivals.find "packs" = .ok (["packs"], .directory) := by decide +kernel
  have hindexed : amongRivals.catalog.Indexed := Catalog.blank_empty.indexed
  have hnames : crowded.namesIn "packs" = .ok ["b", "a", "c.ZIP", "d", "notes.txt"] := by
    decide +kernel
  -- The other three entries yield no pack in either directory.
  have hidle : ∀ name ∈ ["c.ZIP", "d", "notes.txt"],
      packAt? "pack.json" crowded "packs" name = none ∧
        packAt? "pack.json" rivals "packs" name = none := by decide +kernel
  have hnone : ∀ {files : FileTree} {name : String} {pack : Pack},
      packAt? "pack.json" files "packs" name = none →
        ¬ Found "pack.json" files "packs" ["packs"] name pack := by
    intro files name pack hnone hfound
    rw [packAt?_eq_some_iff.2 hfound.2] at hnone
    cases hnone
  obtain ⟨hdirectory, hengine⟩ := discovery_by_name (τ := Unit) (η := Unit) hnamed hfind
  obtain ⟨-, -, hother⟩ := hdirectory "pack.json"
  obtain ⟨hgood, hlatest⟩ := hengine plain amongRivals hindexed rfl "p"
  have hsame : (discover "pack.json" rivals "packs").1 =
      (discover "pack.json" crowded "packs").1 := by
    refine hother rivals ["packs"] hnamed' hfind' fun name _ => ?_
    by_cases hmem : name ∈ ["c.ZIP", "d", "notes.txt"]
    · exact .inr fun pack => ⟨hnone (hidle name hmem).1, hnone (hidle name hmem).2⟩
    · refine .inl fun below => ?_
      simp only [List.mem_cons, List.not_mem_nil, or_false, not_or] at hmem
      simp [crowded, FileTree.entryAt_set, hmem]
  obtain ⟨pack, spec, hfound, hcheck, hspec, hcompiles⟩ := good_rivals (.inr rfl)
  obtain ⟨report, haccepted, hbrings⟩ := hgood "b" pack spec hfound hcheck hspec hcompiles
  obtain ⟨name, p, hget, hname, -, hgreatest⟩ := hlatest ⟨_, haccepted, hbrings⟩
  obtain ⟨other, hpack, hle⟩ := hgreatest _ haccepted hbrings
  obtain rfl := hpack.unique hnamed hfound
  have hb : name = "b" := by
    have hlisted := (FileTree.mem_namesIn_iff hfind hnames).2 hname.1.isSome
    simp only [List.mem_cons, List.not_mem_nil, or_false] at hlisted
    rcases hlisted with rfl | rfl | hidler
    · rfl
    · exact absurd hle (by decide +kernel)
    · exact absurd hname (hnone (hidle name (by simpa using hidler)).1)
  rw [hb] at hname
  exact ⟨hnamed, hfind, hnamed', hfind', hindexed, rfl, hsame, p, hget, origin_of_loadPath hname.2⟩

end Engine

end Shaderworks
