/-
**What is outlined does not depend on what stands behind.**

The scanners of values, items and members go on with one another under a limit on their steps.  The
limit makes no difference if it is large enough for the text, and neither does the text behind what
was taken, as long as the next character stays the same.  So a text can be changed behind a place
without any change to what was outlined before.

Main definitions:

* `Scans` — a scanner with a limit takes something off a text, whatever the limit and the text
  behind;
* `outlineItems`, `outlineMembers` — items and members without a limit.

Main results:

* `scansUpTo` — **the scanners take something off every text;**
* `outline_local` — the outline of a text stays the same when what stands behind it changes.
-/

import Shaderworks.Proofs.Json.Lookahead

set_option autoImplicit false

namespace Shaderworks.Json

variable {ρ σ : Type} {used rest text : List Char}

/-! ### Scanners with a limit -/

/-- A scanner with a limit takes something off every text that goes on in the same way and that the
limit is large enough for: twice its length and `slack` more. -/
def TakesWithin (slack : Nat) (scan : Nat → List Char → ρ) (used rest : List Char)
    (result : List Char → ρ) : Prop :=
  ∀ fuel rest', 2 * (used ++ rest').length + slack ≤ fuel → rest'.head? = rest.head? →
    scan fuel (used ++ rest') = result rest'

/-- A scanner takes something off a text, at least one character if there is one. -/
def Scans (slack : Nat) (scan : Nat → List Char → ρ) (text rest : List Char)
    (result : List Char → ρ) : Prop :=
  ∃ used, text = used ++ rest ∧ (text ≠ [] → used ≠ []) ∧ TakesWithin slack scan used rest result

/-- What does not depend on the limit takes something off within any. -/
theorem Takes.within {scan : List Char → ρ} {result : List Char → ρ}
    (h : Takes scan used rest result) (slack : Nat) :
    TakesWithin slack (fun _ => scan) used rest result :=
  fun _ rest' _ hhead => h rest' hhead

namespace Scans

variable {slack : Nat} {scan : Nat → List Char → ρ} {result : List Char → ρ}

/-- The scan of the text itself does not depend on the limit. -/
theorem eq_result (h : Scans slack scan text rest result) {fuel : Nat}
    (hfuel : 2 * text.length + slack ≤ fuel) : scan fuel text = result rest := by
  obtain ⟨used, rfl, -, htakes⟩ := h
  exact htakes fuel rest hfuel rfl

theorem length_le (h : Scans slack scan text rest result) : rest.length ≤ text.length := by
  obtain ⟨used, rfl, -, -⟩ := h
  rw [List.length_append]
  exact Nat.le_add_left _ _

/-- Behind the first value of a text, or behind a comma and a value, the text is shorter. -/
theorem length_le_of_cons {c : Char} {first : Bool}
    (h : Scans slack scan (if first then c :: text else text) rest result) :
    rest.length ≤ text.length := by
  cases first with
  | true =>
      obtain ⟨used, htext, hused, -⟩ := h
      rw [if_pos rfl] at htext hused
      have hlength := congrArg List.length htext
      rw [List.length_cons, List.length_append] at hlength
      have hpos := List.length_pos_iff.2 (hused (List.cons_ne_nil _ _))
      omega
  | false => exact h.length_le

/-- A scan that takes the whole text, whatever the limit. -/
theorem whole (h : ∀ fuel, scan (fuel + 1) text = result []) (hslack : 0 < slack) :
    Scans slack scan text [] result := by
  refine ⟨text, (List.append_nil text).symm, id, fun fuel rest' hfuel hhead => ?_⟩
  obtain rfl : rest' = [] := List.head?_eq_none_iff.1 hhead
  obtain ⟨fuel, rfl⟩ := Nat.exists_eq_succ_of_ne_zero (show fuel ≠ 0 by omega)
  rw [List.append_nil, h]

/-- Spaces in front do not matter to a scanner that drops them. -/
theorem space (hspace : ∀ fuel text, scan (fuel + 1) text = scan (fuel + 1) (dropSpace text))
    (hslack : 0 < slack) (h : Scans slack scan (dropSpace text) rest result) :
    Scans slack scan text rest result := by
  obtain ⟨used, htext, hused, htakes⟩ := h
  have hparts : text = text.takeWhile isSpace ++ dropSpace text :=
    List.takeWhile_append_dropWhile.symm
  have hspaces : ∀ c ∈ text.takeWhile isSpace, isSpace c = true :=
    fun c hc => List.mem_takeWhile_imp hc
  refine ⟨text.takeWhile isSpace ++ used, ?_, fun hne hnil => ?_, fun fuel rest' hfuel hhead => ?_⟩
  · rw [List.append_assoc, ← htext]
    exact hparts
  · obtain ⟨hnone, hempty⟩ := List.append_eq_nil_iff.1 hnil
    rw [hnone, List.nil_append] at hparts
    exact hused (hparts ▸ hne) hempty
  · rw [List.append_assoc, List.length_append] at hfuel
    obtain ⟨fuel, rfl⟩ := Nat.exists_eq_succ_of_ne_zero (show fuel ≠ 0 by omega)
    have hdrop : dropSpace (text.takeWhile isSpace ++ (used ++ rest')) = dropSpace (used ++ rest') :=
      List.dropWhile_append_of_pos hspaces
    rw [List.append_assoc, hspace, hdrop, ← hspace]
    exact htakes _ _ (by omega) hhead

/-- A scanner that takes a character and nothing else. -/
theorem single {c : Char} (hscan : ∀ fuel text, scan (fuel + 1) (c :: text) = result text)
    (hslack : 0 < slack) : Scans slack scan (c :: text) text result := by
  refine ⟨[c], rfl, fun _ => List.cons_ne_nil _ _, fun fuel rest' hfuel _ => ?_⟩
  obtain ⟨fuel, rfl⟩ := Nat.exists_eq_succ_of_ne_zero (show fuel ≠ 0 by omega)
  exact hscan fuel rest'

/-- A scanner that takes a character and goes on with another scanner. -/
theorem cons {c : Char} {inner : Nat → List Char → σ} {innerResult : List Char → σ} {innerSlack : Nat}
    (h : ∃ used, text = used ++ rest ∧ TakesWithin innerSlack inner used rest innerResult)
    {f : σ → ρ} (hscan : ∀ fuel text, scan (fuel + 1) (c :: text) = f (inner fuel text))
    (hslack : innerSlack ≤ slack + 1) :
    Scans slack scan (c :: text) rest fun r => f (innerResult r) := by
  obtain ⟨used, rfl, htakes⟩ := h
  refine ⟨c :: used, rfl, fun _ => List.cons_ne_nil _ _, fun fuel rest' hfuel hhead => ?_⟩
  rw [List.cons_append, List.length_cons] at hfuel
  obtain ⟨fuel, rfl⟩ := Nat.exists_eq_succ_of_ne_zero (show fuel ≠ 0 by omega)
  rw [List.cons_append, hscan, htakes fuel rest' (by omega) hhead]

/-- A scanner that scans a value, behind a comma unless it is the first one, and goes on behind it. -/
theorem value (after : Nat → Node × List Char → ρ) {c : Char} {first : Bool} {node : Node}
    {middle : List Char}
    (hnode : Scans 2 scanNode (if first then c :: text else text) middle fun r => (node, r))
    (hafter : ∃ used, middle = used ++ rest ∧
      TakesWithin 3 (fun fuel text => after fuel (node, text)) used rest result)
    (hscan : ∀ fuel text, scan (fuel + 1) (c :: text) =
      after fuel (scanNode fuel (if first then c :: text else text))) :
    Scans 3 scan (c :: text) rest result := by
  obtain ⟨used, htext, hused, htakes⟩ := hnode
  obtain ⟨used', rfl, htakes'⟩ := hafter
  cases first with
  | true =>
      rw [if_pos rfl] at htext hused
      cases used with
      | nil => exact absurd rfl (hused (List.cons_ne_nil _ _))
      | cons d used =>
          obtain ⟨rfl, rfl⟩ := List.cons.inj htext
          refine ⟨c :: used ++ used', by simp, fun _ => by simp, fun fuel rest' hfuel hhead => ?_⟩
          have hhead' := head?_append_congr hhead used'
          simp only [List.length_append, List.length_cons] at hfuel
          obtain ⟨fuel, rfl⟩ := Nat.exists_eq_succ_of_ne_zero (show fuel ≠ 0 by omega)
          have hvalue := htakes fuel (used' ++ rest')
            (by simp only [List.length_append, List.length_cons]; omega) hhead'
          rw [List.cons_append] at hvalue
          rw [List.append_assoc, List.cons_append, hscan, if_pos rfl, hvalue]
          exact htakes' fuel rest' (by simp only [List.length_append]; omega) hhead
  | false =>
      rw [if_neg Bool.false_ne_true] at htext
      subst htext
      refine ⟨c :: (used ++ used'), by simp, fun _ => by simp, fun fuel rest' hfuel hhead => ?_⟩
      have hhead' := head?_append_congr hhead used'
      simp only [List.length_append, List.length_cons] at hfuel
      obtain ⟨fuel, rfl⟩ := Nat.exists_eq_succ_of_ne_zero (show fuel ≠ 0 by omega)
      have hvalue := htakes fuel (used' ++ rest') (by simp only [List.length_append]; omega) hhead'
      rw [List.cons_append, List.append_assoc, hscan, if_neg Bool.false_ne_true, hvalue]
      exact htakes' fuel rest' (by simp only [List.length_append]; omega) hhead

end Scans

/-! ### Values, items and members -/

theorem dropSpace_dropSpace (text : List Char) : dropSpace (dropSpace text) = dropSpace text :=
  List.dropWhile_idempotent _ _

theorem isSpace_of_dropSpace {c : Char} {more : List Char} (h : dropSpace text = c :: more) :
    isSpace c = false := by
  have hhead := List.head?_dropWhile_not isSpace text
  rw [dropSpace] at h
  rwa [h] at hhead

/-- In front of what is left stand spaces, and they are dropped whatever stands behind. -/
theorem exists_spaces {c : Char} {more : List Char} (h : dropSpace text = c :: more) :
    ∃ spaces, text = spaces ++ c :: more ∧
      ∀ more', dropSpace (spaces ++ c :: more') = c :: more' := by
  refine ⟨text.takeWhile isSpace, ?_, fun more' => ?_⟩
  · rw [← h]
    exact List.takeWhile_append_dropWhile.symm
  · rw [dropSpace, List.dropWhile_append_of_pos fun c hc => List.mem_takeWhile_imp hc]
    exact dropSpace_cons (isSpace_of_dropSpace h) more'

theorem scanNode_dropSpace (fuel : Nat) (text : List Char) :
    scanNode (fuel + 1) text = scanNode (fuel + 1) (dropSpace text) := by
  rw [scanNode, scanNode, dropSpace_dropSpace]

theorem scanItems_dropSpace (first : Bool) (fuel : Nat) (text : List Char) :
    scanItems (fuel + 1) first text = scanItems (fuel + 1) first (dropSpace text) := by
  rw [scanItems, scanItems, dropSpace_dropSpace]

theorem scanMembers_dropSpace (first : Bool) (fuel : Nat) (text : List Char) :
    scanMembers (fuel + 1) first text = scanMembers (fuel + 1) first (dropSpace text) := by
  rw [scanMembers, scanMembers, dropSpace_dropSpace]

/-- The scanner of values takes something off every text that the limit is large enough for. -/
def NodesUpTo (fuel : Nat) : Prop :=
  ∀ {text node rest}, 2 * text.length + 2 ≤ fuel → scanNode fuel text = (node, rest) →
    Scans 2 scanNode text rest fun r => (node, r)

/-- So does the scanner of items. -/
def ItemsUpTo (fuel : Nat) : Prop :=
  ∀ {first text items ending rest}, 2 * text.length + 3 ≤ fuel →
    scanItems fuel first text = (items, ending, rest) →
      Scans 3 (scanItems · first) text rest fun r => (items, ending, r)

/-- So does the scanner of members. -/
def MembersUpTo (fuel : Nat) : Prop :=
  ∀ {first text members ending rest}, 2 * text.length + 3 ≤ fuel →
    scanMembers fuel first text = (members, ending, rest) →
      Scans 3 (scanMembers · first) text rest fun r => (members, ending, r)

/-- A value that starts with none of the characters that start the others is a number. -/
theorem scanNode_other {c : Char} (hspace : isSpace c = false)
    (hc : c ∉ ['n', 't', 'f', '"', '[', '\x7b']) (fuel : Nat) (text : List Char) :
    scanNode (fuel + 1) (c :: text) =
      if c = '-' || c.isDigit then scanNumber (c :: text) else (.broken .malformed, []) := by
  rw [scanNode, dropSpace_cons hspace]
  split
  case h_8 heq =>
    obtain ⟨rfl, rfl⟩ := List.cons.inj heq
    rfl
  all_goals
    next heq =>
      cases heq
      try exact absurd hc (by decide)

theorem nodesUpTo_succ {fuel : Nat} (hitems : ItemsUpTo fuel) (hmembers : MembersUpTo fuel) :
    NodesUpTo (fuel + 1) := by
  intro text node rest hfuel h
  refine .space scanNode_dropSpace (by decide) ?_
  have hlength : (dropSpace text).length ≤ text.length := List.length_dropWhile_le _ _
  rw [scanNode_dropSpace, scanNode, dropSpace_dropSpace] at h
  split at h
  case h_1 heq =>
    obtain ⟨rfl, rfl⟩ := Prod.mk.inj h
    rw [heq]
    exact .whole (fun _ => rfl) (by decide)
  case h_2 more heq | h_3 more heq | h_4 more heq =>
    obtain ⟨used, hused, htakes⟩ := takes_scanKeyword h
    rw [heq]
    exact .cons ⟨used, hused, htakes.within 2⟩ (f := id) (fun _ _ => rfl) (by decide)
  case h_5 more heq =>
    cases hquoted : scanQuoted [] more with
    | mk quoted left =>
        rw [hquoted] at h
        obtain ⟨rfl, rfl⟩ := Prod.mk.inj h
        obtain ⟨used, hused, htakes⟩ := takes_scanQuoted hquoted
        rw [heq]
        exact .cons ⟨used, hused, htakes.within 2⟩ (f := fun r => (Node.text r.1, r.2))
          (fun _ _ => rfl) (by decide)
  case h_6 more heq =>
    obtain ⟨items, ending, left, hscan⟩ : ∃ items ending left,
        scanItems fuel true more = (items, ending, left) := ⟨_, _, _, rfl⟩
    rw [hscan] at h
    obtain ⟨rfl, rfl⟩ := Prod.mk.inj h
    rw [heq, List.length_cons] at hlength
    obtain ⟨used, hused, -, htakes⟩ := hitems (by omega) hscan
    rw [heq]
    exact .cons ⟨used, hused, htakes⟩ (f := fun r => (Node.array r.1 r.2.1, r.2.2))
      (fun _ _ => rfl) (by decide)
  case h_7 more heq =>
    obtain ⟨members, ending, left, hscan⟩ : ∃ members ending left,
        scanMembers fuel true more = (members, ending, left) := ⟨_, _, _, rfl⟩
    rw [hscan] at h
    obtain ⟨rfl, rfl⟩ := Prod.mk.inj h
    rw [heq, List.length_cons] at hlength
    obtain ⟨used, hused, -, htakes⟩ := hmembers (by omega) hscan
    rw [heq]
    exact .cons ⟨used, hused, htakes⟩ (f := fun r => (Node.object r.1 r.2.1, r.2.2))
      (fun _ _ => rfl) (by decide)
  case h_8 c more hn ht hf hquote harray hobject heq =>
    have hother : c ∉ ['n', 't', 'f', '"', '[', '\x7b'] := by
      simpa using ⟨hn, ht, hf, hquote, harray, hobject⟩
    have hspace := isSpace_of_dropSpace heq
    have hscan := scanNode_other hspace hother
    rw [heq]
    split at h
    · next hnumber =>
        obtain ⟨used, hused, htext, htakes⟩ := takes_scanNumber (List.cons_ne_nil c more) h
        refine ⟨used, htext, fun _ => hused, fun fuel rest' hfuel hhead => ?_⟩
        obtain ⟨fuel, rfl⟩ := Nat.exists_eq_succ_of_ne_zero (show fuel ≠ 0 by omega)
        cases used with
        | nil => exact absurd rfl hused
        | cons d used =>
            obtain ⟨rfl, -⟩ := List.cons.inj htext
            rw [List.cons_append, hscan, if_pos hnumber]
            exact htakes rest' hhead
    · next hnumber =>
        obtain ⟨rfl, rfl⟩ := Prod.mk.inj h
        refine .whole (fun fuel => ?_) (by decide)
        rw [hscan, if_neg hnumber]

theorem length_value_le (c : Char) (first : Bool) (text : List Char) :
    (if first then c :: text else text).length ≤ text.length + 1 := by
  cases first <;> simp

/-- A value and what goes on behind it, scanned within a limit. -/
theorem Scans.valueUpTo {fuel : Nat} (hnodes : NodesUpTo fuel) {scan : Nat → List Char → ρ}
    {result : List Char → ρ} {after : Nat → Node × List Char → ρ} {c : Char} {first : Bool}
    (hfuel : 2 * (text.length + 1) + 2 ≤ fuel)
    (hscan : ∀ fuel text, scan (fuel + 1) (c :: text) =
      after fuel (scanNode fuel (if first then c :: text else text)))
    (h : after fuel (scanNode fuel (if first then c :: text else text)) = result rest)
    (hafter : ∀ node middle, 2 * middle.length + 3 ≤ fuel →
      after fuel (node, middle) = result rest → ∃ used, middle = used ++ rest ∧
        TakesWithin 3 (fun fuel text => after fuel (node, text)) used rest result) :
    Scans 3 scan (c :: text) rest result := by
  cases hnode : scanNode fuel (if first then c :: text else text) with
  | mk node middle =>
      have hlength := length_value_le c first text
      have hvalue := hnodes (by omega) hnode
      have hmiddle := hvalue.length_le_of_cons
      rw [hnode] at h
      exact .value after hvalue (hafter node middle (by omega) h) hscan

/-- What an item and those behind it make up. -/
def withItems (fuel : Nat) (item : Node × List Char) : List Node × Ending × List Char :=
  let (items, ending, rest) := scanItems fuel false item.2
  (item.1 :: items, ending, rest)

/-- Items that are not closed at once start with an item, behind a comma unless it is the first. -/
theorem scanItems_other {c : Char} (hspace : isSpace c = false) (hc : c ≠ ']') (first : Bool)
    (fuel : Nat) (text : List Char) :
    scanItems (fuel + 1) first (c :: text) =
      if first || c = ',' then withItems fuel (scanNode fuel (if first then c :: text else text))
      else ([], .stopped .malformed, []) := by
  rw [scanItems, dropSpace_cons hspace]
  split
  · next heq => cases heq
  · next heq => exact absurd (List.cons.inj heq).1 hc
  · next heq =>
      obtain ⟨rfl, rfl⟩ := List.cons.inj heq
      rfl

theorem takes_withItems {fuel : Nat} (hitems : ItemsUpTo fuel) {item : Node} {items : List Node}
    {ending : Ending} (hfuel : 2 * text.length + 3 ≤ fuel)
    (h : withItems fuel (item, text) = (items, ending, rest)) :
    ∃ used, text = used ++ rest ∧
      TakesWithin 3 (fun fuel text => withItems fuel (item, text)) used rest
        fun r => (items, ending, r) := by
  obtain ⟨behind, ending', left, hbehind⟩ : ∃ behind ending' left,
      scanItems fuel false text = (behind, ending', left) := ⟨_, _, _, rfl⟩
  simp only [withItems, hbehind] at h
  cases h
  obtain ⟨used, hused, -, htakes⟩ := hitems hfuel hbehind
  refine ⟨used, hused, fun fuel rest' hfuel hhead => ?_⟩
  simp only [withItems, htakes fuel rest' hfuel hhead]

theorem itemsUpTo_succ {fuel : Nat} (hnodes : NodesUpTo fuel) (hitems : ItemsUpTo fuel) :
    ItemsUpTo (fuel + 1) := by
  intro first text items ending rest hfuel h
  refine .space (scanItems_dropSpace first) (by decide) ?_
  have hlength : (dropSpace text).length ≤ text.length := List.length_dropWhile_le _ _
  rw [scanItems_dropSpace] at h
  cases heq : dropSpace text with
  | nil =>
      rw [heq] at h
      cases h
      exact .whole (fun _ => rfl) (by decide)
  | cons c more =>
      rw [heq] at h
      rw [heq, List.length_cons] at hlength
      by_cases hc : c = ']'
      · subst hc
        cases h
        exact .single (fun _ _ => rfl) (by decide)
      · have hscan := scanItems_other (isSpace_of_dropSpace heq) hc first
        rw [hscan] at h
        by_cases hcomma : first || c = ','
        · rw [if_pos hcomma] at h
          refine .valueUpTo hnodes (by omega) (fun fuel more => ?_) h fun item middle hmiddle =>
            takes_withItems hitems hmiddle
          rw [hscan, if_pos hcomma]
        · rw [if_neg hcomma] at h
          cases h
          refine .whole (fun fuel => ?_) (by decide)
          rw [hscan, if_neg hcomma]

/-- What a key, its value and the members behind it make up. -/
def withMembers (fuel : Nat) : Node × List Char → List (Node × Node) × Ending × List Char
  | (.text quoted, rest) =>
      match quoted.fault, scanColon rest with
      | some _, _ => ([(.text quoted, .absent)], .stopped .truncated, [])
      | none, .error fault => ([(.text quoted, fault)], .stopped .truncated, [])
      | none, .ok rest =>
          let (value, rest) := scanNode fuel rest
          let (members, ending, rest) := scanMembers fuel false rest
          ((.text quoted, value) :: members, ending, rest)
  | (key, _) => ([(key, .absent)], .stopped .truncated, [])

/-- Members that are not closed at once start with a member, behind a comma unless it is the
first. -/
theorem scanMembers_other {c : Char} (hspace : isSpace c = false) (hc : c ≠ '\x7d') (first : Bool)
    (fuel : Nat) (text : List Char) :
    scanMembers (fuel + 1) first (c :: text) =
      if first || c = ',' then withMembers fuel (scanNode fuel (if first then c :: text else text))
      else ([], .stopped .malformed, []) := by
  rw [scanMembers, dropSpace_cons hspace]
  split
  · next heq => cases heq
  · next heq => exact absurd (List.cons.inj heq).1 hc
  · next heq =>
      obtain ⟨rfl, rfl⟩ := List.cons.inj heq
      cases scanNode fuel (if first then c :: text else text) with
      | mk key middle => cases key <;> rfl

theorem scanColon_eq_ok_iff {behind : List Char} :
    scanColon text = .ok behind ↔ dropSpace text = ':' :: behind := by
  unfold scanColon
  split
  · next heq => simp [heq]
  · next heq => simp [heq]
  · next c more hcolon heq =>
      rw [heq]
      exact iff_of_false (fun h => by cases h) fun h => hcolon (List.cons.inj h).1

/-- Behind the spaces in front of a colon and the colon the text goes on. -/
theorem takes_scanColon {behind : List Char} (h : scanColon text = .ok behind) :
    ∃ used, used ≠ [] ∧ text = used ++ behind ∧ ∀ more, scanColon (used ++ more) = .ok more := by
  obtain ⟨spaces, rfl, hdrop⟩ := exists_spaces (scanColon_eq_ok_iff.1 h)
  refine ⟨spaces ++ [':'], by simp, by simp, fun more => scanColon_eq_ok_iff.2 ?_⟩
  rw [List.append_assoc]
  exact hdrop more

/-- Whether there is a value in a place, be it right or not. -/
def Node.Present : Node → Prop
  | .absent => False
  | .broken _ => False
  | _ => True

/-- Where a key has a fault or no colon behind it there is no value, and nothing goes on. -/
theorem withMembers_eq_stopped {key : Node}
    (h : ¬ ∃ quoted behind, key = .text quoted ∧ quoted.fault = none ∧
      scanColon text = .ok behind) :
    ∃ value : Node, ¬ value.Present ∧
      ∀ fuel, withMembers fuel (key, text) = ([(key, value)], .stopped .truncated, []) := by
  cases key with
  | text quoted =>
      cases hfault : quoted.fault with
      | some fault =>
          refine ⟨.absent, id, fun fuel => ?_⟩
          simp only [withMembers, hfault]
      | none =>
          cases hcolon : scanColon text with
          | error value =>
              refine ⟨value, fun hpresent => ?_, fun fuel => ?_⟩
              · unfold scanColon at hcolon
                split at hcolon <;> cases hcolon <;> exact hpresent
              · simp only [withMembers, hfault, hcolon]
          | ok behind => exact absurd ⟨quoted, behind, rfl, hfault, hcolon⟩ h
  | _ => exact ⟨.absent, id, fun _ => rfl⟩

theorem takes_withMembers {fuel : Nat} (hnodes : NodesUpTo fuel) (hmembers : MembersUpTo fuel)
    {key : Node} {members : List (Node × Node)} {ending : Ending}
    (hfuel : 2 * text.length + 3 ≤ fuel)
    (h : withMembers fuel (key, text) = (members, ending, rest)) :
    ∃ used, text = used ++ rest ∧
      TakesWithin 3 (fun fuel text => withMembers fuel (key, text)) used rest
        fun r => (members, ending, r) := by
  by_cases hvalue : ∃ quoted behind, key = .text quoted ∧ quoted.fault = none ∧
      scanColon text = .ok behind
  · obtain ⟨quoted, behind, rfl, hfault, hcolon⟩ := hvalue
    obtain ⟨front, hfront, rfl, hagain⟩ := takes_scanColon hcolon
    rw [List.length_append] at hfuel
    have hpos := List.length_pos_iff.2 hfront
    obtain ⟨value, middle, hnode⟩ : ∃ value middle, scanNode fuel behind = (value, middle) :=
      ⟨_, _, rfl⟩
    obtain ⟨more, ending', left, hmore⟩ : ∃ more ending' left,
        scanMembers fuel false middle = (more, ending', left) := ⟨_, _, _, rfl⟩
    simp only [withMembers, hfault, hcolon, hnode, hmore] at h
    cases h
    have hscans := hnodes (by omega) hnode
    have hlength := hscans.length_le
    obtain ⟨used, rfl, -, htakes⟩ := hscans
    obtain ⟨used', rfl, -, htakes'⟩ := hmembers (by omega) hmore
    refine ⟨front ++ (used ++ used'), by simp, fun fuel rest' hfuel hhead => ?_⟩
    simp only [List.length_append] at hfuel
    have hvalue := htakes fuel (used' ++ rest') (by simp only [List.length_append]; omega)
      (head?_append_congr hhead used')
    have hbehind := htakes' fuel rest' (by simp only [List.length_append]; omega) hhead
    rw [List.append_assoc, List.append_assoc]
    simp only [withMembers, hfault, hagain, hvalue, hbehind]
  · obtain ⟨value, -, hstopped⟩ := withMembers_eq_stopped hvalue
    rw [hstopped] at h
    cases h
    refine ⟨text, (List.append_nil text).symm, fun fuel rest' _ hhead => ?_⟩
    obtain rfl : rest' = [] := List.head?_eq_none_iff.1 hhead
    rw [List.append_nil]
    exact hstopped fuel

theorem membersUpTo_succ {fuel : Nat} (hnodes : NodesUpTo fuel) (hmembers : MembersUpTo fuel) :
    MembersUpTo (fuel + 1) := by
  intro first text members ending rest hfuel h
  refine .space (scanMembers_dropSpace first) (by decide) ?_
  have hlength : (dropSpace text).length ≤ text.length := List.length_dropWhile_le _ _
  rw [scanMembers_dropSpace] at h
  cases heq : dropSpace text with
  | nil =>
      rw [heq] at h
      cases h
      exact .whole (fun _ => rfl) (by decide)
  | cons c more =>
      rw [heq] at h
      rw [heq, List.length_cons] at hlength
      by_cases hc : c = '\x7d'
      · subst hc
        cases h
        exact .single (fun _ _ => rfl) (by decide)
      · have hscan := scanMembers_other (isSpace_of_dropSpace heq) hc first
        rw [hscan] at h
        by_cases hcomma : first || c = ','
        · rw [if_pos hcomma] at h
          refine .valueUpTo hnodes (by omega) (fun fuel more => ?_) h fun item middle hmiddle =>
            takes_withMembers hnodes hmembers hmiddle
          rw [hscan, if_pos hcomma]
        · rw [if_neg hcomma] at h
          cases h
          refine .whole (fun fuel => ?_) (by decide)
          rw [hscan, if_neg hcomma]

/-- **The scanners take something off every text**, however large the limit is. -/
theorem scansUpTo (fuel : Nat) : NodesUpTo fuel ∧ ItemsUpTo fuel ∧ MembersUpTo fuel := by
  induction fuel with
  | zero => exact ⟨fun h => by omega, fun h => by omega, fun h => by omega⟩
  | succ fuel ih =>
      obtain ⟨hnodes, hitems, hmembers⟩ := ih
      exact ⟨nodesUpTo_succ hitems hmembers, itemsUpTo_succ hnodes hitems,
        membersUpTo_succ hnodes hmembers⟩

/-! ### Without a limit -/

/-- Items, with a limit that is large enough. -/
def outlineItems (first : Bool) (text : List Char) : List Node × Ending × List Char :=
  scanItems (2 * text.length + 3) first text

/-- Members, with a limit that is large enough. -/
def outlineMembers (first : Bool) (text : List Char) : List (Node × Node) × Ending × List Char :=
  scanMembers (2 * text.length + 3) first text

theorem scans_outline (text : List Char) :
    Scans 2 scanNode text (outline text).2 fun r => ((outline text).1, r) :=
  (scansUpTo _).1 (Nat.le_refl _) rfl

theorem scanNode_eq_outline {fuel : Nat} (h : 2 * text.length + 2 ≤ fuel) :
    scanNode fuel text = outline text :=
  (scans_outline text).eq_result h

theorem scanItems_eq_outlineItems {fuel : Nat} {first : Bool} (h : 2 * text.length + 3 ≤ fuel) :
    scanItems fuel first text = outlineItems first text := by
  have hscans : Scans 3 (scanItems · first) text (outlineItems first text).2.2
      fun r => ((outlineItems first text).1, (outlineItems first text).2.1, r) :=
    (scansUpTo _).2.1 (Nat.le_refl _) rfl
  exact hscans.eq_result h

theorem scanMembers_eq_outlineMembers {fuel : Nat} {first : Bool}
    (h : 2 * text.length + 3 ≤ fuel) :
    scanMembers fuel first text = outlineMembers first text := by
  have hscans : Scans 3 (scanMembers · first) text (outlineMembers first text).2.2
      fun r => ((outlineMembers first text).1, (outlineMembers first text).2.1, r) :=
    (scansUpTo _).2.2 (Nat.le_refl _) rfl
  exact hscans.eq_result h

/-- **A value is outlined as it is, whatever stands behind it**, as long as the next character stays
the same. -/
theorem outline_local {node : Node} (h : outline text = (node, rest)) :
    ∃ used, text = used ++ rest ∧ (text ≠ [] → used ≠ []) ∧
      ∀ rest', rest'.head? = rest.head? → outline (used ++ rest') = (node, rest') := by
  obtain ⟨used, htext, hused, htakes⟩ := scans_outline text
  rw [h] at htext htakes
  exact ⟨used, htext, hused, fun rest' hhead => htakes _ rest' (Nat.le_refl _) hhead⟩

theorem outline_dropSpace (text : List Char) : outline text = outline (dropSpace text) := by
  have hlength : (dropSpace text).length ≤ text.length := List.length_dropWhile_le _ _
  have hscan : scanNode (2 * text.length + 2) (dropSpace text) = outline (dropSpace text) :=
    scanNode_eq_outline (by omega)
  rw [← hscan]
  exact scanNode_dropSpace _ _

theorem outlineItems_dropSpace (first : Bool) (text : List Char) :
    outlineItems first text = outlineItems first (dropSpace text) := by
  have hlength : (dropSpace text).length ≤ text.length := List.length_dropWhile_le _ _
  have hscan : scanItems (2 * text.length + 3) first (dropSpace text) =
      outlineItems first (dropSpace text) := scanItems_eq_outlineItems (by omega)
  rw [← hscan]
  exact scanItems_dropSpace _ _ _

theorem outlineMembers_dropSpace (first : Bool) (text : List Char) :
    outlineMembers first text = outlineMembers first (dropSpace text) := by
  have hlength : (dropSpace text).length ≤ text.length := List.length_dropWhile_le _ _
  have hscan : scanMembers (2 * text.length + 3) first (dropSpace text) =
      outlineMembers first (dropSpace text) := scanMembers_eq_outlineMembers (by omega)
  rw [← hscan]
  exact scanMembers_dropSpace _ _ _

/-- A string is outlined up to its closing quote. -/
theorem outline_quote (text : List Char) :
    outline ('"' :: text) = (.text (scanQuoted [] text).1, (scanQuoted [] text).2) := rfl

/-- An array is outlined by its items. -/
theorem outline_array (text : List Char) :
    outline ('[' :: text) =
      (.array (outlineItems true text).1 (outlineItems true text).2.1,
        (outlineItems true text).2.2) := rfl

/-- An object is outlined by its members. -/
theorem outline_object (text : List Char) :
    outline ('\x7b' :: text) =
      (.object (outlineMembers true text).1 (outlineMembers true text).2.1,
        (outlineMembers true text).2.2) := rfl

/-- Whether a value is a string, an array or an object. -/
def Node.Bracketed : Node → Prop
  | .text _ => True
  | .array _ _ => True
  | .object _ _ => True
  | _ => False

theorem not_bracketed_scanKeyword {word : String} {value : Node} (hvalue : ¬ value.Bracketed)
    (text : List Char) : ¬ (scanKeyword word value text).1.Bracketed := by
  unfold scanKeyword
  split
  · exact hvalue
  · exact id

theorem not_bracketed_scanNumber (text : List Char) : ¬ (scanNumber text).1.Bracketed := by
  unfold scanNumber
  split <;> exact id

/-- Strings, arrays and objects start with their characters. -/
theorem first_of_bracketed {c : Char} (hspace : isSpace c = false)
    (h : (outline (c :: text)).1.Bracketed) : c = '"' ∨ c = '[' ∨ c = '\x7b' := by
  by_cases hc : c ∈ ['n', 't', 'f', '"', '[', '\x7b']
  · simp only [List.mem_cons, List.not_mem_nil, or_false] at hc
    rcases hc with rfl | rfl | rfl | hc
    · exact absurd h (not_bracketed_scanKeyword id text)
    · exact absurd h (not_bracketed_scanKeyword id text)
    · exact absurd h (not_bracketed_scanKeyword id text)
    · exact hc
  · refine absurd h ?_
    rw [outline, List.length_cons, scanNode_other hspace hc]
    split
    · exact not_bracketed_scanNumber _
    · exact id

/-- An item behind its comma, and those behind it. -/
theorem outlineItems_cons {c : Char} {first : Bool} (hspace : isSpace c = false) (hc : c ≠ ']')
    (hcomma : (first || c = ',') = true) {item : Node} {middle : List Char}
    (hitem : outline (if first then c :: text else text) = (item, middle)) :
    outlineItems first (c :: text) =
      (item :: (outlineItems false middle).1, (outlineItems false middle).2) := by
  have hlength := length_value_le c first text
  have hmiddle : middle.length ≤ text.length := by
    have hscans := (scans_outline (if first then c :: text else text)).length_le_of_cons
    rwa [hitem] at hscans
  rw [outlineItems, List.length_cons, scanItems_other hspace hc, if_pos hcomma,
    scanNode_eq_outline (by omega), hitem]
  have hitems : scanItems (2 * (text.length + 1) + 2) false middle = outlineItems false middle :=
    scanItems_eq_outlineItems (by omega)
  simp only [withItems, hitems]

/-- Items that are there were outlined one behind the other. -/
theorem exists_of_outlineItems {first : Bool} {item : Node} {items : List Node} {ending : Ending}
    (h : outlineItems first text = (item :: items, ending, rest)) :
    ∃ c more middle, dropSpace text = c :: more ∧ c ≠ ']' ∧ (first || c = ',') = true ∧
      outline (if first then c :: more else more) = (item, middle) ∧
      outlineItems false middle = (items, ending, rest) := by
  rw [outlineItems_dropSpace] at h
  cases heq : dropSpace text with
  | nil =>
      rw [heq] at h
      cases h
  | cons c more =>
      rw [heq] at h
      have hspace := isSpace_of_dropSpace heq
      by_cases hc : c = ']'
      · subst hc
        cases h
      · by_cases hcomma : (first || c = ',') = true
        · rw [outlineItems_cons hspace hc hcomma rfl, Prod.mk.injEq, List.cons.injEq] at h
          obtain ⟨⟨hitem, hitems⟩, hrest⟩ := h
          exact ⟨c, more, _, rfl, hc, hcomma, Prod.ext hitem rfl, Prod.ext hitems hrest⟩
        · rw [outlineItems, List.length_cons, scanItems_other hspace hc, if_neg hcomma] at h
          cases h

/-- What goes on behind a key is outlined without a limit. -/
theorem outlineMembers_eq_withMembers {c : Char} {first : Bool} (hspace : isSpace c = false)
    (hc : c ≠ '\x7d') (hcomma : (first || c = ',') = true) {key : Node} {middle : List Char}
    (hkey : outline (if first then c :: text else text) = (key, middle)) :
    outlineMembers first (c :: text) = withMembers (2 * (text.length + 1) + 2) (key, middle) := by
  have hlength := length_value_le c first text
  rw [outlineMembers, List.length_cons, scanMembers_other hspace hc, if_pos hcomma,
    scanNode_eq_outline (by omega), hkey]

/-- A member behind its comma, and those behind it. -/
theorem outlineMembers_cons {c : Char} {first : Bool} (hspace : isSpace c = false)
    (hc : c ≠ '\x7d') (hcomma : (first || c = ',') = true) {quoted : Quoted} {value : Node}
    {afterKey behind middle : List Char}
    (hkey : outline (if first then c :: text else text) = (.text quoted, afterKey))
    (hfault : quoted.fault = none) (hcolon : scanColon afterKey = .ok behind)
    (hvalue : outline behind = (value, middle)) :
    outlineMembers first (c :: text) =
      ((.text quoted, value) :: (outlineMembers false middle).1,
        (outlineMembers false middle).2) := by
  have hkeyLength : afterKey.length ≤ text.length := by
    have hscans := (scans_outline (if first then c :: text else text)).length_le_of_cons
    rwa [hkey] at hscans
  have hlength : middle.length ≤ behind.length := by
    have hscans := (scans_outline behind).length_le
    rwa [hvalue] at hscans
  obtain ⟨front, -, rfl, -⟩ := takes_scanColon hcolon
  rw [List.length_append] at hkeyLength
  have hnode : scanNode (2 * (text.length + 1) + 2) behind = outline behind :=
    scanNode_eq_outline (by omega)
  have hmembers : scanMembers (2 * (text.length + 1) + 2) false middle =
      outlineMembers false middle := scanMembers_eq_outlineMembers (by omega)
  rw [outlineMembers_eq_withMembers hspace hc hcomma hkey]
  simp only [withMembers, hfault, hcolon, hnode, hvalue, hmembers]

/-- Members that are there were outlined one behind the other: those in front of others, and one
whose value is there. -/
theorem exists_of_outlineMembers {first : Bool} {key value : Node} {members : List (Node × Node)}
    {ending : Ending} (h : outlineMembers first text = ((key, value) :: members, ending, rest))
    (hgoes : value.Present ∨ members ≠ []) :
    ∃ c more quoted afterKey behind middle, dropSpace text = c :: more ∧ c ≠ '\x7d' ∧
      (first || c = ',') = true ∧ key = .text quoted ∧
      outline (if first then c :: more else more) = (.text quoted, afterKey) ∧
      quoted.fault = none ∧ scanColon afterKey = .ok behind ∧ outline behind = (value, middle) ∧
      outlineMembers false middle = (members, ending, rest) := by
  rw [outlineMembers_dropSpace] at h
  cases heq : dropSpace text with
  | nil =>
      rw [heq] at h
      cases h
  | cons c more =>
      rw [heq] at h
      have hspace := isSpace_of_dropSpace heq
      by_cases hc : c = '\x7d'
      · subst hc
        cases h
      · by_cases hcomma : (first || c = ',') = true
        · obtain ⟨key', afterKey, hkey⟩ : ∃ key' afterKey,
              outline (if first then c :: more else more) = (key', afterKey) := ⟨_, _, rfl⟩
          by_cases hthere : ∃ quoted behind, key' = .text quoted ∧ quoted.fault = none ∧
              scanColon afterKey = .ok behind
          · obtain ⟨quoted, behind, rfl, hfault, hcolon⟩ := hthere
            rw [outlineMembers_cons hspace hc hcomma hkey hfault hcolon rfl, Prod.mk.injEq,
              List.cons.injEq, Prod.mk.injEq] at h
            obtain ⟨⟨⟨hkey', hvalue⟩, hmembers⟩, hrest⟩ := h
            exact ⟨c, more, quoted, afterKey, behind, _, rfl, hc, hcomma, hkey'.symm, hkey, hfault,
              hcolon, Prod.ext hvalue rfl, Prod.ext hmembers hrest⟩
          · obtain ⟨value', habsent, hstopped⟩ := withMembers_eq_stopped hthere
            rw [outlineMembers_eq_withMembers hspace hc hcomma hkey, hstopped] at h
            cases h
            rcases hgoes with hpresent | hmore
            · exact absurd hpresent habsent
            · exact absurd rfl hmore
        · rw [outlineMembers, List.length_cons, scanMembers_other hspace hc, if_neg hcomma] at h
          cases h

end Shaderworks.Json
