/-
**Which qualifiers make a source native.**

A qualifier gives a resource its place: the word `layout`, a parenthesis, and the name of what places
it, with blanks before and behind the parenthesis if the author likes.  The dialect of a source is
told from the source without any of its blanks, so a blank inside a word does not count either: what
is no qualifier, since one of its words is torn, still makes the source native.

The letters are those of a lower-case form of the source.  A text has several, for a capital sigma
turns into one small sigma inside a word and into another at its end; nothing that is looked for has
a sigma, so any of them will do.

Main definitions:

* `Mentions` — a uniform or a sampler is mentioned;
* `Qualifier`, `Qualified` — a qualifier as it is written, and a text that has one;
* `Torn` — a piece with a blank between two of its letters;
* `TornQualified` — a text with a qualifier of which a word is torn;
* `LowerForm` — a text is a source in lower case, with either small sigma for a capital one.

Main results:

* `hasQualifier_iff_spelled` — what is found in a text without its blanks;
* `exists_blanks_of_not_torn` — a word that is not torn has blanks at its ends only;
* `hasQualifier_iff` — what is found is a qualifier, or one that is torn;
* `LowerForm.infix_iff` — texts without a sigma are found in every lower-case form or in none;
* `ofSource_rule` — **a source is legacy exactly if it mentions a resource and has neither**, and
  where this departs from the rule that knows of whole qualifiers only;
* `native_of_torn_word` — a source where it does.
-/

import Shaderworks.Shader.Dialect

set_option autoImplicit false

namespace Shaderworks.Dialect

open Text

/-! ### Texts without their blanks -/

/-- A text without its blanks. -/
def squeeze (text : List Char) : List Char := text.filter fun c => !isBlank c

theorem squeeze_append (s t : List Char) : squeeze (s ++ t) = squeeze s ++ squeeze t :=
  List.filter_append ..

theorem squeeze_cons_of_blank {c : Char} (h : isBlank c = true) (text : List Char) :
    squeeze (c :: text) = squeeze text := by
  simp [squeeze, h]

theorem squeeze_cons_of_not_blank {c : Char} (h : isBlank c = false) (text : List Char) :
    squeeze (c :: text) = c :: squeeze text := by
  simp [squeeze, h]

theorem squeeze_eq_nil_iff {text : List Char} :
    squeeze text = [] ↔ ∀ c ∈ text, isBlank c = true := by
  simp [squeeze]

theorem squeeze_eq_self_iff {text : List Char} :
    squeeze text = text ↔ ∀ c ∈ text, isBlank c = false := by
  simp [squeeze]

/-- What is found in a text without its blanks is a piece of the text without the piece's blanks. -/
theorem infix_squeeze_iff {letters text : List Char} :
    letters <:+: squeeze text ↔ ∃ piece, piece <:+: text ∧ squeeze piece = letters := by
  rw [squeeze, List.infix_filter_iff]
  exact exists_congr fun piece => and_congr_right fun _ => eq_comm

/-! ### What is looked for -/

/-- A lower-case source mentions a uniform or a sampler. -/
def Mentions (low : List Char) : Prop :=
  "uniform ".toList <:+: low ∨ "sampler2d".toList <:+: low ∨ "samplercube".toList <:+: low

/-- The name of what gives a resource its place. -/
def IsPlace (name : List Char) : Prop := name = "binding".toList ∨ name = "location".toList

/-- A qualifier as it is written. -/
structure Qualifier where
  /-- The blanks before the parenthesis. -/
  before : List Char
  /-- The blanks behind the parenthesis. -/
  behind : List Char
  /-- The name of what gives the place. -/
  name : List Char
  blank_before : ∀ c ∈ before, isBlank c = true
  blank_behind : ∀ c ∈ behind, isBlank c = true
  isPlace : IsPlace name

/-- The text of a qualifier. -/
def Qualifier.text (q : Qualifier) : List Char :=
  "layout".toList ++ (q.before ++ '(' :: (q.behind ++ q.name))

theorem Qualifier.text_eq (q : Qualifier) :
    q.text = "layout".toList ++ (q.before ++ '(' :: (q.behind ++ q.name)) :=
  rfl

/-- A text has a qualifier. -/
def Qualified (low : List Char) : Prop := ∃ q : Qualifier, q.text <:+: low

/-- A piece of text has a blank between two of its letters. -/
def Torn (piece : List Char) : Prop :=
  ∃ front c back, piece = front ++ c :: back ∧ isBlank c = true ∧ squeeze front ≠ [] ∧
    squeeze back ≠ []

/-- A text has a qualifier of which a word is torn. -/
def TornQualified (low : List Char) : Prop :=
  ∃ word name, word ++ '(' :: name <:+: low ∧ squeeze word = "layout".toList ∧
    IsPlace (squeeze name) ∧ (Torn word ∨ Torn name)

theorem mentionsResource_iff {low : List Char} : mentionsResource low = true ↔ Mentions low := by
  simp only [mentionsResource, Bool.or_eq_true, occursIn_iff, Mentions, or_assoc]

theorem not_isBlank_of_isPlace {name : List Char} (h : IsPlace name) :
    ∀ c ∈ name, isBlank c = false := by
  rcases h with rfl | rfl <;> exact squeeze_eq_self_iff.1 (by decide)

/-! ### What is found -/

/-- The letters of a qualifier without blanks are those of a word, a parenthesis and a name. -/
theorem exists_spelled_iff {low name : List Char} :
    "layout(".toList ++ name <:+: squeeze low ↔
      ∃ word rest, word ++ '(' :: rest <:+: low ∧ squeeze word = "layout".toList ∧
        squeeze rest = name := by
  rw [infix_squeeze_iff]
  constructor
  · rintro ⟨piece, hpiece, hletters⟩
    have hparts : squeeze piece = "layout".toList ++ '(' :: name := hletters
    obtain ⟨word, behind, rfl, hword, hbehind⟩ := List.filter_eq_append_iff.1 hparts
    obtain ⟨blanks, rest, rfl, hblanks, -, hrest⟩ := List.filter_eq_cons_iff.1 hbehind
    have hnil : squeeze blanks = [] := squeeze_eq_nil_iff.2 fun c hc => by simpa using hblanks c hc
    refine ⟨word ++ blanks, rest, by rwa [List.append_assoc], ?_, hrest⟩
    rw [squeeze_append, hnil, List.append_nil]
    exact hword
  · rintro ⟨word, rest, hfound, hword, rfl⟩
    refine ⟨_, hfound, ?_⟩
    rw [squeeze_append, hword, squeeze_cons_of_not_blank (by decide)]
    rfl

/-- **What is found in a text without its blanks** are the letters of a qualifier. -/
theorem hasQualifier_iff_spelled {low : List Char} :
    hasQualifier low = true ↔
      ∃ word name, word ++ '(' :: name <:+: low ∧ squeeze word = "layout".toList ∧
        IsPlace (squeeze name) := by
  have hsplit : hasQualifier low = true ↔
      "layout(".toList ++ "binding".toList <:+: squeeze low ∨
        "layout(".toList ++ "location".toList <:+: squeeze low := by
    rw [hasQualifier, Bool.or_eq_true, occursIn_iff, occursIn_iff]
    rfl
  rw [hsplit, exists_spelled_iff, exists_spelled_iff]
  constructor
  · rintro (⟨word, name, hfound, hword, hname⟩ | ⟨word, name, hfound, hword, hname⟩)
    · exact ⟨word, name, hfound, hword, .inl hname⟩
    · exact ⟨word, name, hfound, hword, .inr hname⟩
  · rintro ⟨word, name, hfound, hword, hname | hname⟩
    · exact .inl ⟨word, name, hfound, hword, hname⟩
    · exact .inr ⟨word, name, hfound, hword, hname⟩

/-! ### Words that are not torn -/

/-- A text without letters behind a blank has blanks at its end only. -/
theorem exists_blanks_behind {text : List Char}
    (h : ∀ front c back, text = front ++ c :: back → isBlank c = true → squeeze back = []) :
    ∃ blanks, (∀ c ∈ blanks, isBlank c = true) ∧ text = squeeze text ++ blanks := by
  induction text with
  | nil => exact ⟨[], by simp, rfl⟩
  | cons c text ih =>
      cases hc : isBlank c with
      | true =>
          have hletters := squeeze_eq_nil_iff.1 (h [] c text rfl hc)
          refine ⟨c :: text, List.forall_mem_cons.2 ⟨hc, hletters⟩, ?_⟩
          rw [squeeze_cons_of_blank hc, squeeze_eq_nil_iff.2 hletters, List.nil_append]
      | false =>
          obtain ⟨blanks, hblanks, htext⟩ := ih fun front b back heq =>
            h (c :: front) b back (by rw [heq, List.cons_append])
          refine ⟨blanks, hblanks, ?_⟩
          rw [squeeze_cons_of_not_blank hc, List.cons_append, ← htext]

/-- **A word that is not torn has blanks at its ends only.** -/
theorem exists_blanks_of_not_torn {word : List Char} (h : ¬ Torn word) :
    ∃ before behind, (∀ c ∈ before, isBlank c = true) ∧ (∀ c ∈ behind, isBlank c = true) ∧
      word = before ++ squeeze word ++ behind := by
  induction word with
  | nil => exact ⟨[], [], by simp, by simp, rfl⟩
  | cons c word ih =>
      cases hc : isBlank c with
      | true =>
          -- The blank at the front is one of those before the letters.
          have hword : ¬ Torn word := by
            rintro ⟨front, b, back, rfl, hb, hfront, hback⟩
            exact h ⟨c :: front, b, back, rfl, hb, by rwa [squeeze_cons_of_blank hc], hback⟩
          obtain ⟨before, behind, hbefore, hbehind, heq⟩ := ih hword
          refine ⟨c :: before, behind, List.forall_mem_cons.2 ⟨hc, hbefore⟩, hbehind, ?_⟩
          rw [squeeze_cons_of_blank hc, List.cons_append, List.cons_append, ← heq]
      | false =>
          -- A letter stands at the front, so a blank has no letter behind it.
          have hletter : ∀ front, squeeze (c :: front) ≠ [] := fun front heq => by
            rw [squeeze_cons_of_not_blank hc] at heq
            cases heq
          have hbehind : ∀ front b back, c :: word = front ++ b :: back → isBlank b = true →
              squeeze back = [] := by
            intro front b back hsplit hb
            cases front with
            | nil =>
                obtain ⟨rfl, -⟩ := List.cons.inj hsplit
                rw [hc] at hb
                cases hb
            | cons d front =>
                obtain ⟨rfl, -⟩ := List.cons.inj hsplit
                by_cases hback : squeeze back = []
                · exact hback
                · exact absurd ⟨c :: front, b, back, hsplit, hb, hletter front, hback⟩ h
          obtain ⟨blanks, hblanks, heq⟩ := exists_blanks_behind hbehind
          exact ⟨[], blanks, by simp, hblanks, heq⟩

/-! ### Whole and torn qualifiers -/

theorem Qualifier.squeeze_word (q : Qualifier) :
    squeeze ("layout".toList ++ q.before) = "layout".toList := by
  rw [squeeze_append, squeeze_eq_nil_iff.2 q.blank_before, List.append_nil]
  decide

theorem Qualifier.isPlace_squeeze (q : Qualifier) : IsPlace (squeeze (q.behind ++ q.name)) := by
  rw [squeeze_append, squeeze_eq_nil_iff.2 q.blank_behind, List.nil_append,
    squeeze_eq_self_iff.2 (not_isBlank_of_isPlace q.isPlace)]
  exact q.isPlace

/-- A qualifier is found. -/
theorem Qualified.hasQualifier {low : List Char} (h : Qualified low) :
    Dialect.hasQualifier low = true := by
  obtain ⟨q, hfound⟩ := h
  rw [Qualifier.text_eq, ← List.append_assoc] at hfound
  exact hasQualifier_iff_spelled.2 ⟨_, _, hfound, q.squeeze_word, q.isPlace_squeeze⟩

/-- What is found is a qualifier if none of its words is torn. -/
theorem qualified_of_spelled {low word name : List Char} (hfound : word ++ '(' :: name <:+: low)
    (hword : squeeze word = "layout".toList) (hname : IsPlace (squeeze name))
    (hwhole : ¬ Torn word) (hwhole' : ¬ Torn name) : Qualified low := by
  obtain ⟨front, before, -, hbefore, heq⟩ := exists_blanks_of_not_torn hwhole
  obtain ⟨behind, back, hbehind, -, heq'⟩ := exists_blanks_of_not_torn hwhole'
  refine ⟨⟨before, behind, squeeze name, hbefore, hbehind, hname⟩, .trans ⟨front, back, ?_⟩ hfound⟩
  rw [Qualifier.text_eq, ← hword]
  conv => rhs; rw [heq, heq']
  simp

/-- **What is found is a qualifier, or one of which a word is torn.** -/
theorem hasQualifier_iff {low : List Char} :
    hasQualifier low = true ↔ Qualified low ∨ TornQualified low := by
  constructor
  · intro h
    obtain ⟨word, name, hfound, hword, hname⟩ := hasQualifier_iff_spelled.1 h
    by_cases htorn : Torn word ∨ Torn name
    · exact .inr ⟨word, name, hfound, hword, hname, htorn⟩
    · obtain ⟨hwhole, hwhole'⟩ := not_or.1 htorn
      exact .inl (qualified_of_spelled hfound hword hname hwhole hwhole')
  · rintro (h | ⟨word, name, hfound, hword, hname, -⟩)
    · exact h.hasQualifier
    · exact hasQualifier_iff_spelled.2 ⟨word, name, hfound, hword, hname⟩

/-! ### The two small sigmas -/

/-- Both small sigmas as one. -/
def joinSigma (c : Char) : Char := if c = '\u03c2' then '\u03c3' else c

/-- A text is a source in lower case, with either small sigma for a capital one. -/
def LowerForm (source : String) (low : List Char) : Prop :=
  low.map joinSigma = (lower source.toList).map joinSigma

/-- No letter of a piece of text is a small sigma. -/
def SigmaFree (piece : List Char) : Prop := '\u03c2' ∉ squeeze piece ∧ '\u03c3' ∉ squeeze piece

theorem eq_of_joinSigma_eq {c x : Char} (h : joinSigma x = joinSigma c) (hc : c ≠ '\u03c2')
    (hc' : c ≠ '\u03c3') : x = c := by
  unfold joinSigma at h
  rw [if_neg hc] at h
  split at h
  · exact absurd h.symm hc'
  · exact h

theorem SigmaFree.ne {piece : List Char} (h : SigmaFree piece) {c : Char} (hc : c ∈ piece) :
    c ≠ '\u03c2' ∧ c ≠ '\u03c3' := by
  -- A sigma is no blank, so it would be one of the letters.
  have hmem : ∀ d ∈ piece, isBlank d = false → d ∈ squeeze piece := fun d hd hblank =>
    List.mem_filter.2 ⟨hd, by simp [hblank]⟩
  constructor
  · rintro rfl
    exact h.1 (hmem _ hc (by decide))
  · rintro rfl
    exact h.2 (hmem _ hc (by decide))

/-- A piece without a sigma is the only one that looks like it when the sigmas are one. -/
theorem SigmaFree.eq_of_map {piece : List Char} (h : ∀ c ∈ piece, c ≠ '\u03c2' ∧ c ≠ '\u03c3') :
    ∀ other : List Char, other.map joinSigma = piece.map joinSigma → other = piece := by
  induction piece with
  | nil => exact fun other heq => List.map_eq_nil_iff.1 heq
  | cons c piece ih =>
      intro other heq
      obtain ⟨hc, hpiece⟩ := List.forall_mem_cons.1 h
      obtain ⟨d, more, rfl, hd, hmore⟩ := List.map_eq_cons_iff.1 heq
      rw [eq_of_joinSigma_eq hd hc.1 hc.2, ih hpiece more hmore]

theorem SigmaFree.infix_of_infix {piece s t : List Char} (hfree : SigmaFree piece)
    (h : s.map joinSigma = t.map joinSigma) (hfound : piece <:+: s) : piece <:+: t := by
  obtain ⟨front, back, rfl⟩ := hfound
  rw [List.map_append, List.map_append] at h
  obtain ⟨upTo, back', rfl, hupTo, -⟩ := List.map_eq_append_iff.1 h.symm
  obtain ⟨front', piece', rfl, -, hpiece⟩ := List.map_eq_append_iff.1 hupTo
  obtain rfl := SigmaFree.eq_of_map (fun c hc => hfree.ne hc) piece' hpiece
  exact ⟨front', back', rfl⟩

namespace LowerForm

variable {source : String} {low : List Char}

/-- **What has no sigma is found in every lower-case form or in none.** -/
theorem infix_iff (h : LowerForm source low) {piece : List Char} (hfree : SigmaFree piece) :
    piece <:+: low ↔ piece <:+: lower source.toList :=
  ⟨hfree.infix_of_infix h, hfree.infix_of_infix h.symm⟩

theorem mentions_iff (h : LowerForm source low) :
    Mentions low ↔ Mentions (lower source.toList) := by
  rw [Mentions, h.infix_iff ⟨by decide, by decide⟩, h.infix_iff ⟨by decide, by decide⟩,
    h.infix_iff ⟨by decide, by decide⟩, Mentions]

/-- The letters of a qualifier, whole or torn, are no sigmas. -/
theorem sigmaFree_of_spelled {word name : List Char} (hword : squeeze word = "layout".toList)
    (hname : IsPlace (squeeze name)) : SigmaFree (word ++ '(' :: name) := by
  unfold SigmaFree
  rw [squeeze_append, hword, squeeze_cons_of_not_blank (by decide)]
  rcases hname with hname | hname
  · rw [hname]
    decide
  · rw [hname]
    decide

theorem qualified_iff (h : LowerForm source low) :
    Qualified low ↔ Qualified (lower source.toList) := by
  refine exists_congr fun q => h.infix_iff ?_
  rw [Qualifier.text_eq, ← List.append_assoc]
  exact sigmaFree_of_spelled q.squeeze_word q.isPlace_squeeze

theorem tornQualified_iff (h : LowerForm source low) :
    TornQualified low ↔ TornQualified (lower source.toList) := by
  refine exists_congr fun word => exists_congr fun name => ?_
  constructor
  · rintro ⟨hfound, hword, hname, htorn⟩
    exact ⟨(h.infix_iff (sigmaFree_of_spelled hword hname)).1 hfound, hword, hname, htorn⟩
  · rintro ⟨hfound, hword, hname, htorn⟩
    exact ⟨(h.infix_iff (sigmaFree_of_spelled hword hname)).2 hfound, hword, hname, htorn⟩

end LowerForm

/-! ### The rule -/

/-- **A source is legacy exactly if it mentions a resource and has no qualifier, neither a whole one
nor a torn one,** in lower case.  The rule that knows of whole ones only fails of exactly the sources
that mention a resource, have no whole qualifier and have a torn one. -/
theorem ofSource_rule {source : String} {low : List Char} (hlow : LowerForm source low) :
    (ofSource source = legacy ↔ Mentions low ∧ ¬ Qualified low ∧ ¬ TornQualified low) ∧
      ((ofSource source = legacy ↔ Mentions low ∧ ¬ Qualified low) ↔
        ¬ (Mentions low ∧ ¬ Qualified low ∧ TornQualified low)) := by
  have hlegacy : ofSource source = legacy ↔
      Mentions low ∧ ¬ Qualified low ∧ ¬ TornQualified low := by
    rw [ofSource_eq_legacy_iff, mentionsResource_iff, ← Bool.not_eq_true, hasQualifier_iff, not_or,
      hlow.mentions_iff, hlow.qualified_iff, hlow.tornQualified_iff]
  refine ⟨hlegacy, ?_⟩
  rw [hlegacy]
  constructor
  · rintro hrule ⟨hmentions, hwhole, htorn⟩
    exact (hrule.2 ⟨hmentions, hwhole⟩).2.2 htorn
  · intro hnone
    constructor
    · rintro ⟨hmentions, hwhole, -⟩
      exact ⟨hmentions, hwhole⟩
    · rintro ⟨hmentions, hwhole⟩
      exact ⟨hmentions, hwhole, fun htorn => hnone ⟨hmentions, hwhole, htorn⟩⟩

/-- A source that declares a uniform and has no qualifier, with a capital sigma at the end of a word. -/
theorem ofSource_rule_sigma :
    let source := "UNIFORM vec4 \u03a3\u03a3;"
    let low := "uniform vec4 \u03c3\u03c2;".toList
    LowerForm source low ∧ ofSource source = legacy ∧ Mentions low ∧ ¬ Qualified low ∧
      ¬ TornQualified low := by
  intro source low
  have hlow : LowerForm source low := by
    unfold LowerForm
    decide +kernel
  have hlegacy : ofSource source = legacy := by decide +kernel
  exact ⟨hlow, hlegacy, (ofSource_rule hlow).1.1 hlegacy⟩

/-- **A word torn in a comment makes a source native** that declares a uniform and has no qualifier. -/
theorem native_of_torn_word :
    let source := "uniform mat4 m; // lay out (bindings)"
    let low := "uniform mat4 m; // lay out (bindings)".toList
    LowerForm source low ∧ ofSource source = native ∧ Mentions low ∧ ¬ Qualified low := by
  intro source low
  have hlow : LowerForm source low := by
    unfold LowerForm
    decide +kernel
  have hmentions : "uniform ".toList <:+: low := occursIn_iff.1 (by decide +kernel)
  have hword : occursIn "layout".toList low = false := by decide +kernel
  refine ⟨hlow, by decide +kernel, .inl hmentions, ?_⟩
  rintro ⟨q, hfound⟩
  have hpart : "layout".toList <:+: q.text := ⟨[], _, q.text_eq.symm⟩
  have hlayout : occursIn "layout".toList low = true := occursIn_iff.2 (hpart.trans hfound)
  exact Bool.false_ne_true (hword.symm.trans hlayout)

end Shaderworks.Dialect
