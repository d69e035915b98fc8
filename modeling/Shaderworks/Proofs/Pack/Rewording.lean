/-
**Another word in a manifest.**

The blending and the culling of a pipeline are given by words, and a word without a meaning stands for
the default.  So a slip in such a word costs nothing else: with any other word in its stead the text
is a manifest as before, and all that may change is what the word is about.

What makes this more than a look at the words is the text around them.  The string is found in the text
by its place in the outline, the keys may be written with escapes, a pipeline may be given as an array,
and a name that is given again hides the pipeline before it.  Only a string that stands for no text
at all, since half of a character is missing in it, is not JSON to the reader.

Main definitions:

* `WordSetting` — the settings of a pipeline that are given by words;
* `WordSetting.give`, `WordSetting.reset` — a pipeline with a setting by a word, or by default.

Main results:

* `WordSetting.give_congr`, `WordSetting.give_of_unknown` — what a word is good for;
* `PipelineSpec.read_reword` — another word changes a pipeline in its setting only;
* `Manifest.ofJson_reword` — **another word changes a manifest in one setting of one pipeline only.**
-/

import Shaderworks.Pack.Manifest
import Shaderworks.Proofs.Json.Rereading

set_option autoImplicit false

namespace Shaderworks

open Json

/-! ### Settings by words -/

/-- The settings of a pipeline that are given by words. -/
inductive WordSetting where
  /-- How colours are blended. -/
  | blend
  /-- Which faces are culled. -/
  | cullFace
  deriving DecidableEq

namespace WordSetting

/-- The name of the field. -/
def field : WordSetting → String
  | blend => "blend"
  | cullFace => "cullFace"

/-- The small words with a meaning, other spellings of the same meaning included. -/
def words : WordSetting → List String
  | blend => ["opaque", "off", "cutout", "translucent", "alpha", "add", "multiply"]
  | cullFace => ["none", "off", "front", "back"]

/-- The pipeline with the setting by a word. -/
def give : WordSetting → PipelineSpec → String → PipelineSpec
  | blend, spec, word => { spec with blend := .ofWord word }
  | cullFace, spec, word => { spec with cullFace := .ofWord word }

/-- The pipeline with the setting of a pipeline that does not give it. -/
def reset : WordSetting → PipelineSpec → PipelineSpec
  | blend, spec => { spec with blend := ({} : PipelineSpec).blend }
  | cullFace, spec => { spec with cullFace := ({} : PipelineSpec).cullFace }

/-- Words that differ in case only give the same. -/
theorem give_congr (setting : WordSetting) (spec : PipelineSpec) {v w : String}
    (h : lowerWord v = lowerWord w) : setting.give spec v = setting.give spec w := by
  cases setting with
  | blend => rw [give, give, BlendMode.ofWord_congr h]
  | cullFace => rw [give, give, CullFace.ofWord_congr h]

/-- A word without a meaning gives the default. -/
theorem give_of_unknown {setting : WordSetting} {word : String}
    (h : lowerWord word ∉ setting.words) (spec : PipelineSpec) :
    setting.give spec word = setting.reset spec := by
  cases setting with
  | blend =>
      have hunknown : BlendMode.known? (lowerWord word) = none := by
        simp only [words, List.mem_cons, List.not_mem_nil, or_false, not_or] at h
        simp only [BlendMode.known?, h, or_self, if_false]
      rw [give, BlendMode.ofWord, hunknown]
      rfl
  | cullFace =>
      have hunknown : CullFace.known? (lowerWord word) = none := by
        simp only [words, List.mem_cons, List.not_mem_nil, or_false, not_or] at h
        simp only [CullFace.known?, h, or_self, if_false]
      rw [give, CullFace.ofWord, hunknown]
      rfl

/-- A setting is a field that is read as a text. -/
theorem of_mem_fields (setting : WordSetting) :
    .of setting.field readText setting.give ∈ PipelineSpec.fields := by
  have hput {β : Type} (read : String → β) (put : PipelineSpec → β → PipelineSpec) (name : String) :
      RecordField.of name readText (fun spec word => put spec (read word)) =
        .of name (fun node => (readText node).map read) put := by
    refine congrArg (RecordField.mk name) (funext fun node => funext fun spec => ?_)
    dsimp only
    cases readText node <;> rfl
  cases setting with
  | blend =>
      have hfield := hput BlendMode.ofWord (fun spec blend => { spec with blend := blend }) "blend"
      exact hfield ▸ List.mem_of_getElem? (i := 4) rfl
  | cullFace =>
      have hfield :=
        hput CullFace.ofWord (fun spec face => { spec with cullFace := face }) "cullFace"
      exact hfield ▸ List.mem_of_getElem? (i := 7) rfl

/-- The other fields have nothing to do with a setting. -/
theorem separate (setting : WordSetting) :
    Separate PipelineSpec.fields setting.field setting.give where
  put_put record word word' := by cases setting <;> rfl
  put_field field hfield hname := by
    simp only [PipelineSpec.fields, List.mem_cons, List.not_mem_nil, or_false] at hfield
    rcases hfield with rfl | rfl | rfl | rfl | rfl | rfl | rfl | rfl | rfl | rfl
    all_goals cases setting
    all_goals first
      | exact absurd rfl hname
      | exact RecordField.put_of_comm fun _ _ _ => by simp only [give]

end WordSetting

/-! ### Pipelines -/

variable {setting : WordSetting} {node : Node}

/-- **Another word changes a pipeline in its setting only.** -/
theorem PipelineSpec.read_reword {frame : Frame} {spec : PipelineSpec}
    (hholds : frame.Holds fields setting.field) (h : read (frame.fill node) = .ok spec)
    (node' : Node) : read (frame.fill node') = (readText node').map (setting.give spec) :=
  readRecord_replace setting.separate (by decide) setting.of_mem_fields hholds h node'

/-! ### Manifests -/

namespace Manifest

variable {m : Manifest} {name : String} {manifest pipelines pipeline : Frame}

/-- The other fields have nothing to do with the pipelines. -/
theorem separate_pipelines :
    Separate fields "pipelines" fun m v => { m with pipelines := v } where
  put_put record value value' := rfl
  put_field field hfield hname := by
    simp only [fields, List.mem_cons, List.not_mem_nil, or_false] at hfield
    rcases hfield with rfl | rfl | rfl | rfl | rfl
    all_goals first
      | exact absurd rfl hname
      | exact RecordField.put_of_comm fun m _ _ => by cases m; rfl

/-- Keys without a meaning have nothing to do with the pipelines. -/
theorem heedless_keepMember :
    Heedless keepMember fun m (v : NameMap PipelineSpec) => { m with pipelines := v } := by
  intro key node m value
  rw [keepMember, keepMember]
  cases readValue extensionDepth node <;> rfl

/-- Other pipelines change a manifest in its pipelines only. -/
theorem read_pipelines (hmanifest : manifest.Names "pipelines")
    (h : read (manifest.fill node) = .ok m) :
    readMap PipelineSpec.read node = .ok m.pipelines ∧
      ∀ node', read (manifest.fill node') =
        (readMap PipelineSpec.read node').map fun v => { m with pipelines := v } := by
  cases manifest with
  | item earlier later ending => exact hmanifest.elim
  | member earlier key later ending =>
      have hreplace := readNamed_replace separate_pipelines heedless_keepMember rfl hmanifest h
      refine ⟨?_, hreplace⟩
      obtain ⟨v, hv, hm⟩ := map_eq_ok ((hreplace node).symm.trans h)
      rw [hv, ← hm]

/-- Another word is read as another manifest, at most the setting of the pipeline being changed, and
nothing if the pipeline is given again. -/
theorem read_reword (hmanifest : manifest.Names "pipelines") (hname : pipelines.Names name)
    (hsetting : pipeline.Holds PipelineSpec.fields setting.field)
    (h : read (Place.fill [manifest, pipelines, pipeline] node) = .ok m) :
    ∃ change : String → Manifest,
      (∀ node', read (Place.fill [manifest, pipelines, pipeline] node') =
        (readText node').map change) ∧
      (pipelines.NamesAgain name → ∀ word, change word = m) ∧
      (¬ pipelines.NamesAgain name → ∃ spec, m.pipelines.get? name = some spec ∧
        ∀ word, change word =
          { m with pipelines := m.pipelines.insert name (setting.give spec word) }) := by
  obtain ⟨hmap, hother⟩ := read_pipelines hmanifest h
  have hfill (node' : Node) : read (Place.fill [manifest, pipelines, pipeline] node') =
      (readMap PipelineSpec.read (pipelines.fill (pipeline.fill node'))).map
        fun v => { m with pipelines := v } := hother _
  by_cases hagain : pipelines.NamesAgain name
  · obtain ⟨spec, hspec, hpipelines⟩ := readMap_replace_earlier hname hagain hmap
    refine ⟨fun _ => m, fun node' => ?_, fun _ _ => rfl, fun hlast => absurd hagain hlast⟩
    rw [hfill, hpipelines, PipelineSpec.read_reword hsetting hspec]
    cases readText node' <;> rfl
  · obtain ⟨spec, hspec, hget, hpipelines⟩ := readMap_replace_last hname hagain hmap
    refine ⟨fun word => { m with pipelines := m.pipelines.insert name (setting.give spec word) },
      fun node' => ?_, fun hold => absurd hold hagain, fun _ => ⟨spec, hget, fun _ => rfl⟩⟩
    rw [hfill, hpipelines, PipelineSpec.read_reword hsetting hspec]
    cases readText node' <;> rfl

/-- **Another word changes a manifest in one setting of one pipeline only.**  Take any text that is
read as a manifest, and a string that stands in it as a setting by a word of a pipeline.

* It is a part of the text, between two quotes, and what is in front of it is outlined up to this place.
* With any other string in its stead, if the string stands for a text, a manifest is read: the same one
  if the pipeline is given again, and else the one with this word for the setting of this pipeline.
* With a string in its stead that stands for no text, no manifest is read.

Words that differ in case only give the same setting, and a word without a meaning gives the default. -/
theorem ofJson_reword {text : String} (hread : ofJson text = .ok m) {quoted : Quoted}
    {rest : List Char} (houtline : outline text.toList =
      (Place.fill [manifest, pipelines, pipeline] (.text quoted), rest))
    (hmanifest : manifest.Names "pipelines") (hname : pipelines.Names name)
    (hsetting : pipeline.Holds PipelineSpec.fields setting.field) :
    (∃ before body after, text.toList = withString before body after ∧
      Spells body quoted.pieces ∧
      outline (before ++ ['"']) =
        (Place.fill (Place.cut [manifest, pipelines, pipeline]) opened, []) ∧
      ∀ body' pieces', Spells body' pieces' →
        (∀ word : String, Means pieces' word.toList →
          (pipelines.NamesAgain name →
            ofJson (String.ofList (withString before body' after)) = .ok m) ∧
          (¬ pipelines.NamesAgain name → ∃ spec, m.pipelines.get? name = some spec ∧
            ofJson (String.ofList (withString before body' after)) =
              .ok { m with pipelines := m.pipelines.insert name (setting.give spec word) })) ∧
        ((∀ chars, ¬ Means pieces' chars) →
          ofJson (String.ofList (withString before body' after)) = .error (.fault .malformed))) ∧
      (∀ spec v w, lowerWord v = lowerWord w → setting.give spec v = setting.give spec w) ∧
      ∀ spec word, lowerWord word ∉ setting.words →
        setting.give spec word = setting.reset spec := by
  refine ⟨?_, fun spec v w => setting.give_congr spec, fun spec word h =>
    WordSetting.give_of_unknown h spec⟩
  obtain ⟨hvalue, hdocument⟩ := readDocument_replace houtline hread
  obtain ⟨change, hchange, hsame, hgiven⟩ := read_reword hmanifest hname hsetting hvalue
  have hfault : quoted.fault = none := by
    obtain ⟨word, hword, -⟩ := map_eq_ok ((hchange _).symm.trans hvalue)
    exact Quoted.fault_of_read hword
  obtain ⟨before, body, after, htext, hspells, hcut, hplace⟩ := exists_place hfault houtline
  refine ⟨before, body, after, htext, hspells, hcut, fun body' pieces' hspells' => ?_⟩
  have hreads : ofJson (String.ofList (withString before body' after)) =
      (⟨pieces', none⟩ : Quoted).read.map change :=
    (hdocument _ _ (hplace body' pieces' hspells')).trans (hchange _)
  refine ⟨fun word hmeans => ⟨fun hagain => ?_, fun hlast => ?_⟩, fun hnone => ?_⟩
  · rw [hreads, Quoted.read_of_means hmeans]
    exact congrArg Except.ok (hsame hagain word)
  · obtain ⟨spec, hget, hspec⟩ := hgiven hlast
    refine ⟨spec, hget, ?_⟩
    rw [hreads, Quoted.read_of_means hmeans]
    exact congrArg Except.ok (hspec word)
  · rw [hreads, Quoted.read_of_not_means hnone]
    rfl

/-- A manifest with one pipeline, and what stands between the quotes of its way of blending. -/
def blending (body : List Char) : String :=
  String.ofList (withString "\x7b\"pipelines\":\x7b\"p\":\x7b\"blend\":".toList body
    "\x7d\x7d\x7d".toList)

/-- An object with one member. -/
def only (key : String) : Frame := .member [] (.text (quotedOf key)) [] .closed

theorem outline_blending_add :
    outline (blending ['a', 'd', 'd']).toList =
      (Place.fill [only "pipelines", only "p", only "blend"] (.text (quotedOf "add")), []) := by
  have htext : (blending ['a', 'd', 'd']).toList =
      printObject [("pipelines", printObject [("p", printObject [("blend", printText "add")])])] := by
    decide +kernel
  have houtlines (key : String) {text : List Char} {node : Node} (h : Outlines text node) :
      Outlines (printObject [(key, text)]) ((only key).fill node) :=
    outlines_printObject (.cons ⟨rfl, h⟩ .nil)
  rw [htext]
  exact (houtlines _ (houtlines _ (houtlines _ (outlines_printText "add")))).outline

theorem exists_ofJson_blending_add : ∃ m, ofJson (blending ['a', 'd', 'd']) = .ok m := by
  have hread : (ofJson (blending ['a', 'd', 'd'])).isOk = true := by decide +kernel
  cases hjson : ofJson (blending ['a', 'd', 'd']) with
  | error fault =>
      rw [hjson] at hread
      cases hread
  | ok m => exact ⟨m, rfl⟩

/-- With a word without a meaning in its stead, the way of blending is the default. -/
theorem ofJson_reword_blending :
    ∃ m spec before body after, ofJson (blending ['a', 'd', 'd']) = .ok m ∧
      m.pipelines.get? "p" = some spec ∧
      (blending ['a', 'd', 'd']).toList = withString before body after ∧
      Spells body [.char 'a', .char 'd', .char 'd'] ∧
      ofJson (String.ofList (withString before ['a', 'u', 'd'] after)) =
        .ok { m with pipelines := m.pipelines.insert "p" (WordSetting.blend.reset spec) } := by
  obtain ⟨m, hread⟩ := exists_ofJson_blending_add
  have hsetting : (only "blend").Holds PipelineSpec.fields WordSetting.blend.field :=
    readKey_quotedOf _
  obtain ⟨⟨before, body, after, htext, hspells, -, hother⟩, -, hunknown⟩ :=
    ofJson_reword hread outline_blending_add (readKey_quotedOf _) (readKey_quotedOf _) hsetting
  have hword : Spells ['a', 'u', 'd'] [.char 'a', .char 'u', .char 'd'] :=
    .plain (by decide) (by decide) (by decide) <| .plain (by decide) (by decide) (by decide) <|
    .plain (by decide) (by decide) (by decide) .nil
  have hmeans : Means [.char 'a', .char 'u', .char 'd'] "aud".toList := .char (.char (.char .nil))
  have hlast : ¬ (only "p").NamesAgain "p" := fun ⟨_, hmem, _⟩ => absurd hmem List.not_mem_nil
  obtain ⟨spec, hget, hreset⟩ := ((hother _ _ hword).1 "aud" hmeans).2 hlast
  refine ⟨m, spec, before, body, after, hread, hget, htext, hspells, ?_⟩
  rw [hreset, hunknown spec "aud" (by decide)]

/-- With half of a character in its stead, no manifest is read, though the text keeps to the grammar of
JSON. -/
theorem ofJson_blending_half :
    (∃ m, ofJson (blending ['a', 'd', 'd']) = .ok m) ∧
      outline (blending ['a', 'd', 'd']).toList =
        (Place.fill [only "pipelines", only "p", only "blend"] (.text (quotedOf "add")), []) ∧
      Spells ['\\', 'u', 'd', '8', '0', '0'] [.codeUnit 0xD800] ∧
      ofJson (blending ['\\', 'u', 'd', '8', '0', '0']) = .error (.fault .malformed) := by
  refine ⟨exists_ofJson_blending_add, outline_blending_add, .codeUnit rfl .nil, ?_⟩
  have hread : (ofJson (blending ['\\', 'u', 'd', '8', '0', '0'])).map (fun _ => ()) =
      .error (.fault .malformed) := by
    decide +kernel
  exact map_eq_error hread

end Manifest

end Shaderworks
