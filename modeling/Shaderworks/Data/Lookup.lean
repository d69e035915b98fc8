/-
**Look-ups in lists of entries.**

The maps of this library are lists of entries under an invariant.  This module holds what they
share: how `List.lookup` steps over an entry.

Main results:

* `lookup_cons_ite` — a look-up answers from the first entry or goes on to the others;
* `mem_of_lookup` — what a look-up finds is an entry of the list;
* `lookup_of_mem` — an entry is found if no key stands twice.
-/

set_option autoImplicit false

namespace Shaderworks

variable {κ α : Type} [DecidableEq κ]

/-- A look-up answers from the first entry if that has the key, and else from the others. -/
theorem lookup_cons_ite (key : κ) (e : κ × α) (l : List (κ × α)) :
    (e :: l).lookup key = if key = e.1 then some e.2 else l.lookup key := by
  by_cases h : key = e.1
  · have hb : (key == e.1) = true := by simp [h]
    rw [List.lookup_cons, hb, if_pos h]
  · have hb : (key == e.1) = false := beq_false_of_ne h
    rw [List.lookup_cons, hb, if_neg h]

/-- What a look-up finds is an entry of the list. -/
theorem mem_of_lookup {key : κ} {value : α} {l : List (κ × α)} (h : l.lookup key = some value) :
    (key, value) ∈ l := by
  induction l with
  | nil => simp at h
  | cons e l ih =>
      rw [lookup_cons_ite] at h
      split at h
      · next heq =>
          cases h
          rw [heq]
          exact List.mem_cons_self ..
      · exact List.mem_cons_of_mem _ (ih h)

/-- An entry is found under its key if no key stands twice. -/
theorem lookup_of_mem {e : κ × α} {l : List (κ × α)} (hdistinct : (l.map Prod.fst).Nodup)
    (h : e ∈ l) : l.lookup e.1 = some e.2 := by
  induction l with
  | nil => cases h
  | cons d l ih =>
      obtain ⟨hfresh, hrest⟩ := List.nodup_cons.1 hdistinct
      rw [lookup_cons_ite]
      rcases List.mem_cons.1 h with rfl | hmem
      · rw [if_pos rfl]
      · have hne : e.1 ≠ d.1 := fun heq => hfresh (heq ▸ List.mem_map_of_mem hmem)
        rw [if_neg hne]
        exact ih hrest hmem

/-- A key that no entry has is not found. -/
theorem lookup_eq_none {key : κ} {l : List (κ × α)} (h : ∀ e ∈ l, key ≠ e.1) :
    l.lookup key = none := by
  induction l with
  | nil => rfl
  | cons e l ih =>
      rw [lookup_cons_ite, if_neg (h e (List.mem_cons_self ..))]
      exact ih fun d hd => h d (List.mem_cons_of_mem _ hd)

/-- A key that some entry has is found. -/
theorem lookup_isSome_iff {key : κ} {l : List (κ × α)} :
    (l.lookup key).isSome = true ↔ key ∈ l.map Prod.fst := by
  induction l with
  | nil => simp
  | cons e l ih =>
      rw [lookup_cons_ite]
      by_cases h : key = e.1
      · simp [h]
      · simp [h, ih]

end Shaderworks
