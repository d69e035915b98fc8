/-
**A manifest that was read, written and read again is the same.**

Writing and reading a manifest are two separate pieces of code.  Every field is written under the name
that it is read under, every word is one that stands for what it was written for, and the keys without
a meaning are written behind the fields, of which none has such a key: a field that was given is never
kept as something else.

Main results:

* `PipelineSpec.writtenAs` — a pipeline is read back, whatever it is;
* `Manifest.keeps_of_ofJson` — the keys without a meaning that were read, and their values;
* `Manifest.ofJson_toJson` — **a manifest that was read is read back.**
-/

import Shaderworks.Pack.Manifest
import Shaderworks.Proofs.Json.ReadBack

set_option autoImplicit false

namespace Shaderworks

open Json

/-! ### Pipelines -/

namespace PipelineSpec

theorem writtenAs_blend (blend : BlendMode) :
    WrittenAs readBlend (printText blend.word) blend := by
  have h := (writtenAs_printText blend.word).map BlendMode.ofWord
  rwa [BlendMode.ofWord_word] at h

theorem writtenAs_cullFace (face : CullFace) :
    WrittenAs readCull (printText face.word) face := by
  have h := (writtenAs_printText face.word).map CullFace.ofWord
  rwa [CullFace.ofWord_word] at h

theorem writtenAs_pass (pass : Pass) : WrittenAs readPass (printText pass.word) pass := by
  cases pass with
  | main => exact writtenAs_first _ _ _ _
  | postProcess => exact writtenAs_second (by decide) _ _

theorem writtenAs_includes (includes : List String) :
    WrittenAs (readList readText) (printArray (includes.map printText)) includes :=
  writtenAs_printArray
    (List.forall₂_map_left_iff.2 (List.forall₂_same.2 fun text _ => writtenAs_printText text))

/-- **A pipeline is read back**, whatever it is. -/
theorem writtenAs (spec : PipelineSpec) : WrittenAs read spec.print spec := by
  have hfills : Fills fields
      [("vertex", printOptional spec.vertex), ("fragment", printOptional spec.fragment),
        ("geometry", printOptional spec.geometry),
        ("includes", printArray (spec.includes.map printText)),
        ("blend", printText spec.blend.word), ("depthTest", printBool spec.depthTest),
        ("depthWrite", printBool spec.depthWrite), ("cullFace", printText spec.cullFace.word),
        ("stage", printText spec.pass.word), ("vertexFormat", printOptional spec.vertexFormat)]
      {} spec :=
    .of (writtenAs_printOptional _) <| .of (writtenAs_printOptional _) <|
    .of (writtenAs_printOptional _) <| .of (writtenAs_includes _) <|
    .of (writtenAs_blend _) <| .of (writtenAs_printBool _) <|
    .of (writtenAs_printBool _) <| .of (writtenAs_cullFace _) <|
    .of (writtenAs_pass _) <| .of (writtenAs_printOptional _) <| .nil spec
  obtain ⟨entries, given, houtlines, hreads⟩ := hfills.readNamed (by decide) ignoreMember
  refine ⟨_, outlines_printObject houtlines, ?_⟩
  have hread := hreads [] .closed
  rw [List.append_nil] at hread
  exact hread

end PipelineSpec

/-! ### Keys without a meaning -/

namespace Manifest

variable {m m' : Manifest} {text : String}

/-- The names of the fields. -/
def fieldNames : List String := fields.map RecordField.name

/-- The keys without a meaning have no name of a field, and values that were read. -/
def Keeps (m : Manifest) : Prop :=
  ∀ e ∈ m.extensions.entries, e.1 ∉ fieldNames ∧
    ∃ node, readValue extensionDepth node = .ok e.2

/-- A field keeps the keys without a meaning. -/
theorem extensions_of_put {field : RecordField Manifest} (hfield : field ∈ fields) {node : Node}
    (h : field.put node m = .ok m') : m'.extensions = m.extensions := by
  simp only [fields, List.mem_cons, List.not_mem_nil, or_false] at hfield
  rcases hfield with rfl | rfl | rfl | rfl | rfl
  all_goals
    obtain ⟨value, -, rfl⟩ := map_eq_ok h
    rfl

theorem Keeps.keepMember (h : m.Keeps) {name : String} (hname : name ∉ fieldNames) {node : Node}
    (hkeep : keepMember name node m = .ok m') : m'.Keeps := by
  obtain ⟨value, hvalue, rfl⟩ := map_eq_ok hkeep
  intro e he
  rcases NameMap.mem_insertEntry he with rfl | hold
  · exact ⟨hname, node, hvalue⟩
  · exact h e hold

/-- **Reading one member after the other keeps only what is no field.** -/
theorem Keeps.readNamed (members : List (Node × Node)) :
    ∀ {given : List String} {ending : Ending} {m m' : Manifest}, m.Keeps →
      Json.readNamed fields Manifest.keepMember given members ending m = .ok m' → m'.Keeps := by
  induction members with
  | nil =>
      intro given ending m m' h hread
      rw [Json.readNamed] at hread
      obtain ⟨-, -, rfl⟩ := map_eq_ok hread
      exact h
  | cons member members ih =>
      intro given ending m m' h hread
      rw [Json.readNamed] at hread
      split at hread
      · cases hread
      · next name hkey =>
          split at hread
          · next hfind =>
              split at hread
              · cases hread
              · next next hput =>
                  have hname : name ∉ fieldNames := by
                    intro hmem
                    obtain ⟨field, hfield, rfl⟩ := List.mem_map.1 hmem
                    exact absurd (List.find?_eq_none.1 hfind field hfield) (by simp)
                  exact ih (h.keepMember hname hput) hread
          · next field hfind =>
              split at hread
              · cases hread
              · split at hread
                · cases hread
                · next next hput =>
                    have hsame := extensions_of_put (List.mem_of_find?_eq_some hfind) hput
                    refine ih (fun e he => ?_) hread
                    rw [hsame] at he
                    exact h e he

/-- The keys without a meaning that were read, and their values. -/
theorem keeps_of_ofJson (h : ofJson text = .ok m) : m.Keeps := by
  have hread : ∃ node, read node = .ok m := by
    unfold ofJson readDocument at h
    split at h
    split at h
    · cases h
    · next hvalue =>
        split at h
        · cases h
          exact ⟨_, hvalue⟩
        · cases h
  obtain ⟨node, hread⟩ := hread
  unfold read at hread
  split at hread
  · next members ending =>
      exact Keeps.readNamed members (fun e he => absurd he List.not_mem_nil) hread
  · unfold unwanted at hread
    split at hread <;> cases hread

/-! ### Reading back -/

/-- Written keys without a meaning are kept one after another. -/
theorem readNamed_extensions (pairs : List (String × Value))
    (h : ∀ e ∈ pairs, e.1 ∉ fieldNames ∧
      WrittenAs (readValue extensionDepth) (printValue e.2) e.2) :
    ∃ entries, List.Forall₂ OutlinesMember (printMembers pairs) entries ∧
      ∀ (given : List String) (m : Manifest),
        Json.readNamed fields Manifest.keepMember given entries .closed m =
          .ok { m with extensions := pairs.foldl (fun x e => x.insert e.1 e.2) m.extensions } := by
  induction pairs with
  | nil => exact ⟨[], .nil, fun _ _ => rfl⟩
  | cons e pairs ih =>
      obtain ⟨⟨hname, node, houtline, hread⟩, hpairs⟩ := List.forall_mem_cons.1 h
      obtain ⟨entries, houtlines, hreads⟩ := ih hpairs
      refine ⟨(.text (quotedOf e.1), node) :: entries, ?_, fun given m => ?_⟩
      · rw [printMembers]
        exact .cons ⟨rfl, houtline⟩ houtlines
      · have hfind : fields.find? (fun field => field.name == e.1) = none := by
          refine List.find?_eq_none.2 fun field hfield heq => hname ?_
          exact List.mem_map.2 ⟨field, hfield, by simpa using heq⟩
        rw [Json.readNamed, readKey_quotedOf]
        simp only [hfind, Manifest.keepMember, hread, Except.map, hreads, List.foldl_cons]

/-- **A manifest is read back** if its other keys are no fields and have values that are read back. -/
theorem writtenAs (h : ∀ e ∈ m.extensions.entries, e.1 ∉ fieldNames ∧
    WrittenAs (readValue extensionDepth) (printValue e.2) e.2) :
    WrittenAs read (printObject m.members) m := by
  have hfills : Fills fields
      [("name", printText m.name), ("version", printText m.version),
        ("author", printOptional m.author), ("description", printOptional m.description),
        ("pipelines", printObject (m.pipelines.entries.map fun p => (p.1, p.2.print)))]
      {} { m with extensions := NameMap.empty } :=
    .of (writtenAs_printText _) <| .of (writtenAs_printText _) <|
    .of (writtenAs_printOptional _) <| .of (writtenAs_printOptional _) <|
    .of (writtenAs_printObject fun e _ => e.2.writtenAs) <| .nil _
  obtain ⟨entries, given, houtlines, hreads⟩ := hfills.readNamed (by decide) Manifest.keepMember
  obtain ⟨others, houthers, hkept⟩ := readNamed_extensions m.extensions.entries h
  refine ⟨_, outlines_printObject (List.rel_append houtlines houthers), ?_⟩
  have hextensions : m.extensions.entries.foldl (fun x e => x.insert e.1 e.2) NameMap.empty =
      m.extensions := m.extensions.ofList_entries
  rw [read, hreads others .closed, hkept, hextensions]

/-- **A manifest that was read is read back.**  Take any text that is read as a manifest.

* The keys without a meaning have other names than the fields.
* If there is no floating-point number inside of their values, what is written for the manifest is read
  as the same manifest: all fields, every pipeline with all that it declares, and every other key with
  its value. -/
theorem ofJson_toJson (h : ofJson text = .ok m) :
    (∀ name ∈ m.extensions.names,
        name ∉ ["name", "version", "author", "description", "pipelines"]) ∧
      ((∀ e ∈ m.extensions.entries, e.2.whole = true) → ofJson m.toJson = .ok m) := by
  have hkeeps := keeps_of_ofJson h
  refine ⟨fun name hname => ?_, fun hwhole => ?_⟩
  · obtain ⟨e, he, rfl⟩ := List.mem_map.1 hname
    exact (hkeeps e he).1
  · refine (writtenAs fun e he => ?_).readDocument
    obtain ⟨hname, node, hread⟩ := hkeeps e he
    exact ⟨hname, (kept_of_readValue node hread (hwhole e he)).writtenAs⟩

/-- A manifest with escapes, a control character, a word in capitals, a key given twice, and the
smallest whole number. -/
def ornate : String :=
  "\x7b\"x\": 1.5, \"name\": \"a\\\"\\u0001\", \"pipelines\": \x7b\"p\": \x7b\"blend\": \"ADD\"" ++
    "\x7d\x7d, \"x\": \x7b\"b\": -9223372036854775808, \"a\": [null]\x7d\x7d"

/-- It is read back, the second value of the key that is given twice being the one that counts. -/
theorem ofJson_toJson_ornate :
    ∃ m, ofJson ornate = .ok m ∧ m.extensions.names = ["x"] ∧
      (∀ e ∈ m.extensions.entries, e.2.whole = true) ∧ m.toJson ≠ ornate ∧
      ofJson m.toJson = .ok m := by
  have hread : (ofJson ornate).toOption.map (fun m =>
      (m.extensions.names, m.extensions.entries.all fun e => e.2.whole, m.toJson == ornate)) =
        some (["x"], true, false) := by
    decide +kernel
  cases hjson : ofJson ornate with
  | error fault =>
      rw [hjson] at hread
      cases hread
  | ok m =>
      rw [hjson] at hread
      obtain ⟨hnames, hwhole, hother⟩ :
          m.extensions.names = ["x"] ∧ (m.extensions.entries.all fun e => e.2.whole) = true ∧
            (m.toJson == ornate) = false := by
        simpa [Except.toOption] using hread
      have hwhole : ∀ e ∈ m.extensions.entries, e.2.whole = true := List.all_eq_true.1 hwhole
      exact ⟨m, rfl, hnames, hwhole, by simpa using hother, (ofJson_toJson hjson).2 hwhole⟩

end Manifest

end Shaderworks
