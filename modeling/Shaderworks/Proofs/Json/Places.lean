/-
**Places of strings in a text.**

A value stands inside of arrays and objects, behind the items and members before it.  Take it out of
an outline, and what is left is its place.  A string that stands in a place of an outline stands
between two quotes in the text, and any other string between these quotes has the same place: nothing
in front of it or behind it is outlined in another way.

Main definitions:

* `Frame`, `Place` — an array or an object around a value, and all of those around it;
* `Place.fill` — the outline with a value in a place;
* `Place.cut` — the place in a text that breaks off behind the first character of the value.

Main results:

* `exists_frame` — a value in a frame is a part of the text, and can be changed alone;
* `exists_place` — **a string in a place is a part of the text, and can be changed alone.**
-/

import Shaderworks.Proofs.Json.Locality

set_option autoImplicit false

namespace Shaderworks.Json

variable {text rest : List Char} {node : Node}

/-! ### Frames -/

/-- An array or an object without one of its values. -/
inductive Frame where
  /-- An array, with the items before and behind the value. -/
  | item (earlier later : List Node) (ending : Ending)
  /-- An object, with the members before and behind the value, and its key. -/
  | member (earlier : List (Node × Node)) (key : Node) (later : List (Node × Node))
      (ending : Ending)

namespace Frame

/-- The array or object with a value. -/
def fill : Frame → Node → Node
  | item earlier later ending, node => .array (earlier ++ node :: later) ending
  | member earlier key later ending, node => .object (earlier ++ (key, node) :: later) ending

/-- The frame in a text that breaks off in the value. -/
def cut : Frame → Frame
  | item earlier _ _ => item earlier [] (.stopped .truncated)
  | member earlier key _ _ => member earlier key [] (.stopped .truncated)

/-- Behind the value a text goes on with what the frame has there. -/
def Follows : Frame → List Char → List Char → Prop
  | item _ later ending, left, rest => outlineItems false left = (later, ending, rest)
  | member _ _ later ending, left, rest => outlineMembers false left = (later, ending, rest)

/-- What a value and the text behind it make up behind the items or members before the value. -/
def close : Frame → Node × List Char → Node × List Char
  | item earlier _ _, value =>
      let (later, ending, rest) := outlineItems false value.2
      (.array (earlier ++ value.1 :: later) ending, rest)
  | member earlier key _ _, value =>
      let (later, ending, rest) := outlineMembers false value.2
      (.object (earlier ++ (key, value.1) :: later) ending, rest)

theorem Follows.close {frame : Frame} {left : List Char} (h : frame.Follows left rest)
    (node : Node) : frame.close (node, left) = (frame.fill node, rest) := by
  cases frame with
  | item earlier later ending =>
      have h : outlineItems false left = (later, ending, rest) := h
      simp only [Frame.close, h, fill]
  | member earlier key later ending =>
      have h : outlineMembers false left = (later, ending, rest) := h
      simp only [Frame.close, h, fill]

/-- Where a text breaks off in a value, it breaks off in the frame. -/
theorem close_cut (frame : Frame) (node : Node) :
    frame.close (node, []) = (frame.cut.fill node, []) := by
  cases frame <;> rfl

end Frame

/-! ### A value in a frame -/

/-- In front of a value of an array or an object stand spaces, and a comma unless the value is the
first one. -/
theorem exists_front {c : Char} {more : List Char} {first : Bool}
    (h : dropSpace text = c :: more) (hcomma : (first || c = ',') = true) :
    ∃ front, text = front ++ (if first then c :: more else more) ∧
      ∀ value, value.head? = (if first then c :: more else more).head? →
        ∃ more', dropSpace (front ++ value) = c :: more' ∧
          (if first then c :: more' else more') = value := by
  obtain ⟨spaces, htext, hdrop⟩ := exists_spaces h
  cases first with
  | true =>
      refine ⟨spaces, htext, fun value hvalue => ?_⟩
      obtain ⟨more', rfl⟩ := List.head?_eq_some_iff.1 hvalue
      exact ⟨more', hdrop more', rfl⟩
  | false =>
      refine ⟨spaces ++ [c], ?_, fun value _ => ⟨value, ?_, rfl⟩⟩
      · rw [List.append_assoc]
        exact htext
      · rw [List.append_assoc]
        exact hdrop value

theorem exists_item {earlier later : List Node} :
    ∀ {first : Bool} {text : List Char} {ending : Ending},
      outlineItems first text = (earlier ++ node :: later, ending, rest) →
        ∃ before inner left, text = before ++ inner ∧ outline inner = (node, left) ∧
          outlineItems false left = (later, ending, rest) ∧
          ∀ inner', inner'.head? = inner.head? → outlineItems first (before ++ inner') =
            (earlier ++ (outline inner').1 :: (outlineItems false (outline inner').2).1,
              (outlineItems false (outline inner').2).2) := by
  induction earlier with
  | nil =>
      intro first text ending h
      obtain ⟨c, more, middle, hdrop, hc, hcomma, hitem, hitems⟩ := exists_of_outlineItems h
      obtain ⟨front, htext, hfront⟩ := exists_front hdrop hcomma
      refine ⟨front, _, middle, htext, hitem, hitems, fun inner' hhead => ?_⟩
      obtain ⟨more', hdrop', hinner⟩ := hfront inner' hhead
      have hvalue : outline (if first then c :: more' else more') =
          ((outline inner').1, (outline inner').2) := congrArg outline hinner
      rw [outlineItems_dropSpace, hdrop',
        outlineItems_cons (isSpace_of_dropSpace hdrop) hc hcomma hvalue, List.nil_append]
  | cons item earlier ih =>
      intro first text ending h
      obtain ⟨c, more, middle, hdrop, hc, hcomma, hitem, hitems⟩ := exists_of_outlineItems h
      obtain ⟨front, htext, hfront⟩ := exists_front hdrop hcomma
      obtain ⟨before, inner, left, rfl, hinner, hlater, hagain⟩ := ih hitems
      obtain ⟨used, hused, -, hlocal⟩ := outline_local hitem
      refine ⟨front ++ (used ++ before), inner, left, ?_, hinner, hlater, fun inner' hhead => ?_⟩
      · rw [htext, hused, List.append_assoc, List.append_assoc]
      · have hbehind := head?_append_congr hhead before
        obtain ⟨more', hdrop', hvalue⟩ := hfront (used ++ (before ++ inner'))
          (by rw [hused]; exact head?_append_congr hbehind used)
        have hitem' : outline (if first then c :: more' else more') = (item, before ++ inner') := by
          rw [hvalue, hlocal _ hbehind]
        rw [List.append_assoc, List.append_assoc, outlineItems_dropSpace, hdrop',
          outlineItems_cons (isSpace_of_dropSpace hdrop) hc hcomma hitem', hagain inner' hhead,
          List.cons_append]

theorem exists_member {key : Node} {later : List (Node × Node)} (hpresent : node.Present)
    {earlier : List (Node × Node)} :
    ∀ {first : Bool} {text : List Char} {ending : Ending},
      outlineMembers first text = (earlier ++ (key, node) :: later, ending, rest) →
        ∃ before inner left, text = before ++ inner ∧ outline inner = (node, left) ∧
          outlineMembers false left = (later, ending, rest) ∧
          ∀ inner', inner'.head? = inner.head? → outlineMembers first (before ++ inner') =
            (earlier ++ (key, (outline inner').1) :: (outlineMembers false (outline inner').2).1,
              (outlineMembers false (outline inner').2).2) := by
  induction earlier with
  | nil =>
      intro first text ending h
      obtain ⟨c, more, quoted, afterKey, behind, middle, hdrop, hc, hcomma, rfl, hkey, hfault, hcolon,
        hvalue, hmembers⟩ := exists_of_outlineMembers h (.inl hpresent)
      obtain ⟨front, htext, hfront⟩ := exists_front hdrop hcomma
      obtain ⟨used, hused, -, hlocal⟩ := outline_local hkey
      obtain ⟨colon, hne, rfl, hagain⟩ := takes_scanColon hcolon
      refine ⟨front ++ (used ++ colon), behind, middle, ?_, hvalue, hmembers, fun inner' _ => ?_⟩
      · rw [htext, hused, List.append_assoc, List.append_assoc]
      · have hhead := head?_append_of_ne_nil hne behind inner'
        obtain ⟨more', hdrop', hwhole⟩ := hfront (used ++ (colon ++ inner'))
          (by rw [hused]; exact head?_append_congr hhead used)
        have hkey' : outline (if first then c :: more' else more') =
            (.text quoted, colon ++ inner') := by
          rw [hwhole, hlocal _ hhead]
        rw [List.append_assoc, List.append_assoc, outlineMembers_dropSpace, hdrop',
          outlineMembers_cons (isSpace_of_dropSpace hdrop) hc hcomma hkey' hfault (hagain inner')
            (Prod.eta _).symm, List.nil_append]
  | cons member earlier ih =>
      intro first text ending h
      obtain ⟨c, more, quoted, afterKey, behind, middle, hdrop, hc, hcomma, hmember, hkey, hfault,
        hcolon, hvalue, hmembers⟩ := exists_of_outlineMembers h (.inr (by simp))
      obtain ⟨front, htext, hfront⟩ := exists_front hdrop hcomma
      obtain ⟨used, hused, -, hlocal⟩ := outline_local hkey
      obtain ⟨colon, hne, rfl, hagain⟩ := takes_scanColon hcolon
      obtain ⟨before, inner, left, rfl, hinner, hlater, hmore⟩ := ih hmembers
      obtain ⟨used', rfl, -, hlocal'⟩ := outline_local hvalue
      refine ⟨front ++ (used ++ (colon ++ (used' ++ before))), inner, left, ?_, hinner, hlater,
        fun inner' hhead => ?_⟩
      · rw [htext, hused]
        simp only [List.append_assoc]
      · have hbehind := head?_append_congr hhead before
        have hhead' := head?_append_of_ne_nil hne (used' ++ (before ++ inner))
          (used' ++ (before ++ inner'))
        obtain ⟨more', hdrop', hwhole⟩ := hfront (used ++ (colon ++ (used' ++ (before ++ inner'))))
          (by rw [hused]; exact head?_append_congr hhead' used)
        have hkey' : outline (if first then c :: more' else more') =
            (.text quoted, colon ++ (used' ++ (before ++ inner'))) := by
          rw [hwhole, hlocal _ hhead']
        simp only [List.append_assoc]
        rw [outlineMembers_dropSpace, hdrop',
          outlineMembers_cons (isSpace_of_dropSpace hdrop) hc hcomma hkey' hfault (hagain _)
            (hlocal' _ hbehind), hmore inner' hhead, List.cons_append, ← hmember]

/-- A string, an array or an object starts with its character, behind spaces. -/
theorem exists_of_outline (h : outline text = (node, rest)) (hnode : node.Bracketed) :
    ∃ spaces c more, text = spaces ++ c :: more ∧ (c = '"' ∨ c = '[' ∨ c = '\x7b') ∧
      outline (c :: more) = (node, rest) ∧
      ∀ more', outline (spaces ++ c :: more') = outline (c :: more') := by
  rw [outline_dropSpace] at h
  cases heq : dropSpace text with
  | nil =>
      rw [heq] at h
      cases h
      exact absurd hnode id
  | cons c more =>
      rw [heq] at h
      obtain ⟨spaces, htext, hdrop⟩ := exists_spaces heq
      refine ⟨spaces, c, more, htext, ?_, h, fun more' => ?_⟩
      · exact first_of_bracketed (isSpace_of_dropSpace heq) (by rwa [h])
      · rw [outline_dropSpace, hdrop]

/-- **A value in a frame is a part of the text, and can be changed alone**: what starts with the same
character is framed by the same items or members in front. -/
theorem exists_frame {frame : Frame} (hpresent : node.Present)
    (h : outline text = (frame.fill node, rest)) :
    ∃ before inner left, text = before ++ inner ∧ outline inner = (node, left) ∧
      frame.Follows left rest ∧
      ∀ inner', inner'.head? = inner.head? →
        outline (before ++ inner') = frame.close (outline inner') := by
  cases frame with
  | item earlier later ending =>
      obtain ⟨spaces, c, more, rfl, hc, houtline, hspaces⟩ := exists_of_outline h trivial
      rcases hc with rfl | rfl | rfl
      · cases houtline
      · rw [outline_array, Prod.mk.injEq, Frame.fill, Node.array.injEq] at houtline
        obtain ⟨⟨hitems, hending⟩, hrest⟩ := houtline
        obtain ⟨before, inner, left, rfl, hinner, hlater, hagain⟩ :=
          exists_item (Prod.ext hitems (Prod.ext hending hrest))
        refine ⟨spaces ++ '[' :: before, inner, left, by simp, hinner, hlater,
          fun inner' hhead => ?_⟩
        rw [List.append_assoc, List.cons_append, hspaces, outline_array, hagain inner' hhead]
        rfl
      · cases houtline
  | member earlier key later ending =>
      obtain ⟨spaces, c, more, rfl, hc, houtline, hspaces⟩ := exists_of_outline h trivial
      rcases hc with rfl | rfl | rfl
      · cases houtline
      · cases houtline
      · rw [outline_object, Prod.mk.injEq, Frame.fill, Node.object.injEq] at houtline
        obtain ⟨⟨hmembers, hending⟩, hrest⟩ := houtline
        obtain ⟨before, inner, left, rfl, hinner, hlater, hagain⟩ :=
          exists_member hpresent (Prod.ext hmembers (Prod.ext hending hrest))
        refine ⟨spaces ++ '\x7b' :: before, inner, left, by simp, hinner, hlater,
          fun inner' hhead => ?_⟩
        rw [List.append_assoc, List.cons_append, hspaces, outline_object, hagain inner' hhead]
        rfl

/-! ### Places -/

/-- The arrays and objects around a value, the outermost first. -/
abbrev Place := List Frame

namespace Place

/-- The outline with a value in the place. -/
def fill (place : Place) (node : Node) : Node := place.foldr Frame.fill node

/-- The place in a text that breaks off in the value. -/
def cut (place : Place) : Place := place.map Frame.cut

theorem fill_present (place : Place) (quoted : Quoted) : (place.fill (.text quoted)).Present := by
  cases place with
  | nil => exact trivial
  | cons frame place => cases frame <;> exact trivial

end Place

/-- A text with a string between two parts. -/
def withString (before body after : List Char) : List Char := before ++ '"' :: (body ++ '"' :: after)

/-- A string that breaks off behind its opening quote. -/
def opened : Node := .text ⟨[], some .truncated⟩

/-- **A string in a place is a part of the text, and can be changed alone.**  The text in front of it
with the opening quote has the place, too, as far as it goes.  With any other string in its stead the
outline has this string in the same place. -/
theorem exists_place {place : Place} {quoted : Quoted} (hfault : quoted.fault = none) :
    ∀ {text rest : List Char}, outline text = (place.fill (.text quoted), rest) →
      ∃ before body after, text = withString before body after ∧ Spells body quoted.pieces ∧
        outline (before ++ ['"']) = (place.cut.fill opened, []) ∧
        ∀ body' pieces', Spells body' pieces' →
          outline (withString before body' after) =
            (place.fill (.text ⟨pieces', none⟩), rest) := by
  induction place with
  | nil =>
      intro text rest h
      obtain ⟨spaces, c, more, rfl, hc, houtline, hspaces⟩ := exists_of_outline h trivial
      rcases hc with rfl | rfl | rfl
      · rw [outline_quote, Prod.mk.injEq] at houtline
        obtain ⟨hquoted, hrest⟩ := houtline
        have hscan : scanQuoted [] more = (quoted, rest) :=
          Prod.ext (Node.text.inj hquoted) hrest
        obtain ⟨body, hspells, rfl⟩ := spells_of_scanQuoted hscan hfault
        refine ⟨spaces, body, rest, rfl, hspells, hspaces [], fun body' pieces' hspells' => ?_⟩
        rw [withString, hspaces, outline_quote, hspells'.scanQuoted]
        rfl
      · cases houtline
      · cases houtline
  | cons frame place ih =>
      intro text rest h
      obtain ⟨front, inner, left, rfl, hinner, hfollows, hagain⟩ :=
        exists_frame (Place.fill_present place quoted) h
      obtain ⟨before, body, after, rfl, hspells, hcut, hother⟩ := ih hinner
      have hhead (behind : List Char) :
          (before ++ '"' :: behind).head? = (withString before body after).head? := by
        rw [withString, List.head?_append, List.head?_append]
        rfl
      refine ⟨front ++ before, body, after, ?_, hspells, ?_, fun body' pieces' hspells' => ?_⟩
      · exact (List.append_assoc _ _ _).symm
      · rw [List.append_assoc, hagain _ (hhead []), hcut, frame.close_cut]
        rfl
      · have hassoc : withString (front ++ before) body' after =
            front ++ withString before body' after := List.append_assoc _ _ _
        rw [hassoc, hagain (withString before body' after) (hhead _), hother body' pieces' hspells']
        exact hfollows.close _

end Shaderworks.Json
