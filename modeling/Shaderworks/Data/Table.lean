/-
**Tables that list their rows in the order of their first arrival.**

A shelf of packs lists each pack where its name first arrived, also after the pack was replaced.  A
`Table` does so for any keys: putting a value under a known key replaces it in place, and a new key
goes to the end.  Where nobody lists a table it serves as a plain map.

Main definitions:

* `Table` — rows with distinct keys;
* `Table.get?`, `Table.put`, `Table.erase` — look-up, replacement or arrival, removal.

Main results:

* `Table.get?_put`, `Table.get?_erase` — what a look-up finds afterwards;
* `Table.keys_put` — the keys keep their places, and only a new one is added, at the end.
-/

import Shaderworks.Data.Lookup

set_option autoImplicit false

namespace Shaderworks

/-- Rows of a key and a value, with distinct keys, in the order in which the keys arrived. -/
structure Table (κ α : Type) where
  /-- The rows, oldest key first. -/
  rows : List (κ × α)
  /-- No key has two rows. -/
  distinct : (rows.map Prod.fst).Nodup

namespace Table

variable {κ α : Type} [DecidableEq κ]

/-! ### Building and asking -/

/-- The table without rows. -/
def empty : Table κ α := ⟨[], .nil⟩

instance : EmptyCollection (Table κ α) := ⟨empty⟩

instance : Inhabited (Table κ α) := ⟨empty⟩

/-- The value under a key. -/
def get? (t : Table κ α) (key : κ) : Option α := t.rows.lookup key

/-- Whether a key has a row. -/
def contains (t : Table κ α) (key : κ) : Bool := (t.get? key).isSome

omit [DecidableEq κ] in
/-- The keys, in the order of their arrival. -/
def keys (t : Table κ α) : List κ := t.rows.map Prod.fst

omit [DecidableEq κ] in
/-- The values, in the order in which their keys arrived. -/
def values (t : Table κ α) : List α := t.rows.map Prod.snd

omit [DecidableEq κ] in
/-- The number of rows. -/
def size (t : Table κ α) : Nat := t.rows.length

/-- Replaces the value of a key that has a row, or adds a row at the end. -/
def putRow (key : κ) (value : α) : List (κ × α) → List (κ × α)
  | [] => [(key, value)]
  | r :: rest => if key = r.1 then (key, value) :: rest else r :: putRow key value rest

theorem lookup_filter_ne (key other : κ) (l : List (κ × α)) :
    (l.filter fun r => r.1 ≠ key).lookup other = if other = key then none else l.lookup other := by
  induction l with
  | nil => simp
  | cons r rest ih =>
      by_cases hr : r.1 = key
      · rw [List.filter_cons_of_neg (by simpa using hr), ih, lookup_cons_ite, hr]
        split
        · rfl
        · rfl
      · rw [List.filter_cons_of_pos (by simpa using hr), lookup_cons_ite, lookup_cons_ite, ih]
        by_cases h : other = key
        · have hne : other ≠ r.1 := fun heq => hr (heq ▸ h)
          simp [h, h ▸ hne]
        · simp [h]

theorem keys_putRow (key : κ) (value : α) (l : List (κ × α)) :
    (putRow key value l).map Prod.fst =
      if key ∈ l.map Prod.fst then l.map Prod.fst else l.map Prod.fst ++ [key] := by
  induction l with
  | nil => simp [putRow]
  | cons r rest ih =>
      by_cases h : key = r.1
      · simp [putRow, h]
      · by_cases hr : key ∈ rest.map Prod.fst
        · simp only [putRow, h, if_false, List.map_cons, ih, List.mem_cons, hr, or_true,
            if_true]
        · simp only [putRow, h, if_false, List.map_cons, ih, List.mem_cons, hr, or_false,
            List.cons_append]

theorem lookup_putRow (key other : κ) (value : α) (l : List (κ × α)) :
    (putRow key value l).lookup other = if other = key then some value else l.lookup other := by
  induction l with
  | nil => simp [putRow, lookup_cons_ite]
  | cons r rest ih =>
      simp only [putRow]
      split
      · next heq =>
          rw [lookup_cons_ite, lookup_cons_ite, ← heq]
          split <;> rfl
      · next hne =>
          rw [lookup_cons_ite, lookup_cons_ite, ih]
          by_cases h : other = key
          · have hne' : other ≠ r.1 := fun heq => hne (h ▸ heq)
            simp [h, h ▸ hne']
          · simp [h]

/-- The table with a value put under a key: in place if the key has a row, else at the end. -/
def put (t : Table κ α) (key : κ) (value : α) : Table κ α where
  rows := putRow key value t.rows
  distinct := by
    rw [keys_putRow]
    split
    · exact t.distinct
    · next h => exact List.nodup_append.2 ⟨t.distinct, by simp, by
        intro a ha b hb hab
        rw [List.mem_singleton.1 hb] at hab
        exact h (hab ▸ ha)⟩

/-- The table without the row of a key. -/
def erase (t : Table κ α) (key : κ) : Table κ α where
  rows := t.rows.filter fun r => r.1 ≠ key
  distinct := t.distinct.sublist (List.filter_sublist.map Prod.fst)

/-! ### Look-ups -/

@[simp] theorem get?_empty (key : κ) : (empty : Table κ α).get? key = none := rfl

/-- The value of a row is found under its key. -/
theorem get?_of_mem {t : Table κ α} {r : κ × α} (h : r ∈ t.rows) : t.get? r.1 = some r.2 :=
  lookup_of_mem t.distinct h

/-- After a value is put under a key, that key has it and every other key what it had. -/
theorem get?_put (t : Table κ α) (key : κ) (value : α) (other : κ) :
    (t.put key value).get? other = if other = key then some value else t.get? other :=
  lookup_putRow key other value t.rows

/-- After a removal the key has no value and every other key what it had. -/
theorem get?_erase (t : Table κ α) (key other : κ) :
    (t.erase key).get? other = if other = key then none else t.get? other :=
  lookup_filter_ne key other t.rows

/-- Known keys keep their places, and a new key goes to the end. -/
theorem keys_put (t : Table κ α) (key : κ) (value : α) :
    (t.put key value).keys = if key ∈ t.keys then t.keys else t.keys ++ [key] :=
  keys_putRow key value t.rows

/-- A key has a row exactly when it is listed. -/
theorem contains_iff (t : Table κ α) (key : κ) : t.contains key = true ↔ key ∈ t.keys :=
  lookup_isSome_iff

end Table

end Shaderworks
