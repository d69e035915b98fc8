/-
**The limit of the nesting only rejects.**

Two expansions of a source under different limits run side by side until one of them is cut off.  So a
result that is no cut-off is the result under every greater limit, the fault of a missing file
included.  With as many levels as there are files nothing is cut off; hence there is a least limit
that cuts nothing off, and from there on all results are the same.

Main definitions:

* `CutOff` — a result that was cut off at a limit;
* `Persists` — a result that another expansion has too, unless it was cut off.

Main results:

* `expandLines_persists`, `expandFile_persists` — more levels change nothing but cut-offs;
* `expand_of_le` — a result that is no cut-off is the result under every greater limit;
* `cutOff_expand_iff` — a cut-off carries the limit in force;
* `limit_only_rejects` — **below a threshold everything is cut off, from there on all is the same.**
-/

import Shaderworks.Proofs.Shader.Completeness
import Mathlib.Data.Nat.Find

set_option autoImplicit false

namespace Shaderworks.Shader

open Text

variable {sources : Sources} {limit limit' : Nat} {source origin : String}

/-! ### Cut-offs -/

section Results

variable {α β : Type}

/-- A result that was cut off at a limit. -/
def CutOff (result : Except IncludeFault α) : Prop :=
  ∃ path limit, result = .error (.tooDeep path limit)

/-- A result that another expansion has too, unless it was cut off. -/
def Persists (result other : Except IncludeFault α) : Prop := CutOff result ∨ other = result

namespace Persists

theorem refl (result : Except IncludeFault α) : Persists result result := .inr rfl

theorem map {x y : Except IncludeFault α} (h : Persists x y) (f : α → β) :
    Persists (x.map f) (y.map f) := by
  rcases h with ⟨path, limit, rfl⟩ | rfl
  · exact .inl ⟨path, limit, rfl⟩
  · exact refl _

theorem bind {x y : Except IncludeFault α} {f g : α → Except IncludeFault β} (h : Persists x y)
    (hnext : ∀ a, Persists (f a) (g a)) : Persists (x.bind f) (y.bind g) := by
  rcases h with ⟨path, limit, rfl⟩ | rfl
  · exact .inl ⟨path, limit, rfl⟩
  · cases y with
    | error fault => exact refl _
    | ok a => exact hnext a

end Persists

end Results

/-! ### Two limits side by side -/

/-- Lines whose nested files persist persist. -/
theorem expandLines_persists
    {nested nested' : String → List (List Char) → List String → Except IncludeFault Expanded}
    (hnested : ∀ path ls seen, Persists (nested path ls seen) (nested' path ls seen))
    (origin : String) (ls : List (List Char)) : ∀ n seen,
      Persists (expandLines sources nested origin n ls seen)
        (expandLines sources nested' origin n ls seen) := by
  induction ls with
  | nil => exact fun n seen => .refl _
  | cons line rest ih =>
      intro n seen
      cases hpath : includePath? line with
      | none =>
          rw [expandLines_plain hpath, expandLines_plain hpath]
          exact (ih _ _).map _
      | some path =>
          by_cases hseen : String.ofList path ∈ seen
          · rw [expandLines_repeated hpath hseen, expandLines_repeated hpath hseen]
            exact (ih _ _).map _
          · cases htext : sources.get? (String.ofList path) with
            | none =>
                rw [expandLines_missing hpath hseen htext, expandLines_missing hpath hseen htext]
                exact .refl _
            | some text =>
                rw [expandLines_nested hpath hseen htext, expandLines_nested hpath hseen htext]
                exact (hnested _ _ _).bind fun inner => (ih _ _).map _

/-- **More levels change nothing but cut-offs.** -/
theorem expandFile_persists {levels : Nat} : ∀ {levels' : Nat}, levels ≤ levels' → ∀ origin ls seen,
    Persists (expandFile sources limit levels origin ls seen)
      (expandFile sources limit' levels' origin ls seen) := by
  induction levels with
  | zero =>
      intro levels' _ origin ls seen
      exact .inl ⟨origin, limit, rfl⟩
  | succ levels ih =>
      intro levels' hle origin ls seen
      cases levels' with
      | zero => omega
      | succ levels' => exact expandLines_persists (ih (by omega)) origin ls 1 seen

/-- **A result that is no cut-off is the result under every greater limit.** -/
theorem expand_of_le (hle : limit ≤ limit') (h : ¬ CutOff (expand sources limit source origin)) :
    expand sources limit' source origin = expand sources limit source origin := by
  have hpersists : Persists (expand sources limit source origin) (expand sources limit' source origin) :=
    (expandFile_persists (Nat.succ_le_succ hle) origin (lines source.toList) []).map _
  exact hpersists.resolve_left h

/-! ### The threshold -/

/-- A cut-off carries the limit in force. -/
theorem cutOff_expand_iff :
    CutOff (expand sources limit source origin) ↔
      ∃ path, expand sources limit source origin = .error (.tooDeep path limit) := by
  constructor
  · rintro ⟨path, m, h⟩
    obtain ⟨chain, file, ls, -, -, ⟨hfault, -⟩ | ⟨k, missing, hfault, -⟩⟩ := descent_of_expand h
    · exact ⟨file, hfault ▸ h⟩
    · cases hfault
  · rintro ⟨path, h⟩
    exact ⟨path, limit, h⟩

/-- Nothing is cut off at a limit no smaller than the number of files. -/
theorem not_cutOff_of_size_le (h : sources.size ≤ limit) :
    ¬ CutOff (expand sources limit source origin) := by
  rintro ⟨path, m, hdeep⟩
  obtain ⟨missing, file, k, text, hfault, -⟩ := namesMissing_of_expand h hdeep
  cases hfault

/-- **The limit only rejects.**  A result that is no cut-off is the result under every greater limit.
So up to a threshold, which is at most the number of files, an expansion is cut off and says at which
limit, and from there on it always has the same result, which is no cut-off. -/
theorem limit_only_rejects (sources : Sources) (source origin : String) :
    (∀ limit limit', limit ≤ limit' → ¬ CutOff (expand sources limit source origin) →
        expand sources limit' source origin = expand sources limit source origin) ∧
      ∃ threshold ≤ sources.size, ∃ result, ¬ CutOff result ∧
        (∀ limit, threshold ≤ limit → expand sources limit source origin = result) ∧
        ∀ limit < threshold,
          ∃ path, expand sources limit source origin = .error (.tooDeep path limit) := by
  classical
  have henough : ¬ CutOff (expand sources sources.size source origin) :=
    not_cutOff_of_size_le (Nat.le_refl _)
  have hsome : ∃ limit, ¬ CutOff (expand sources limit source origin) := ⟨_, henough⟩
  -- The threshold is the least limit that does not cut off.
  have hfirst := Nat.find_spec hsome
  refine ⟨fun limit limit' hle h => expand_of_le hle h, Nat.find hsome,
    Nat.find_min' hsome henough, _, hfirst, fun limit hle => expand_of_le hle hfirst, ?_⟩
  intro limit hlt
  have hcut := Nat.find_min hsome hlt
  rw [not_not] at hcut
  exact cutOff_expand_iff.1 hcut

/-- Three files, one of which asks for a missing one: two levels are enough to come upon it, so the
third, which the file behind it would need, never matters. -/
theorem limit_only_rejects_missing :
    let sources : Sources := NameMap.ofList
      [("a", "#include \"b\"\n"), ("b", "#include <gone>\n#include \"c\"\n"), ("c", "float c;\n")]
    let source := "#include \"a\"\n"
    expand sources 1 source "main" = .error (.tooDeep "b" 1) ∧
      ¬ CutOff (expand sources 2 source "main") ∧
      (∀ limit, 2 ≤ limit → expand sources limit source "main" = .error (.notFound "gone" "b" 1)) ∧
      ∃ threshold ≤ sources.size, 1 < threshold ∧
        expand sources threshold source "main" = .error (.notFound "gone" "b" 1) := by
  intro sources source
  have hone : expand sources 1 source "main" = .error (.tooDeep "b" 1) := by decide +kernel
  have htwo : expand sources 2 source "main" = .error (.notFound "gone" "b" 1) := by decide +kernel
  have hcut : ¬ CutOff (expand sources 2 source "main") := by
    rintro ⟨path, m, h⟩
    rw [htwo] at h
    cases h
  obtain ⟨hpersists, threshold, hsize, result, hresult, hfrom, -⟩ :=
    limit_only_rejects sources source "main"
  have hgone : ∀ limit, 2 ≤ limit →
      expand sources limit source "main" = .error (.notFound "gone" "b" 1) :=
    fun limit hle => (hpersists 2 limit hle hcut).trans htwo
  have hlt : 1 < threshold := by
    by_contra hle
    have hcutOff : CutOff (expand sources 1 source "main") := ⟨"b", 1, hone⟩
    rw [hfrom 1 (by omega)] at hcutOff
    exact hresult hcutOff
  exact ⟨hone, hcut, hgone, threshold, hsize, hlt, hgone threshold hlt⟩

end Shaderworks.Shader
