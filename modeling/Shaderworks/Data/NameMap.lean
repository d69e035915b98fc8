/-
**Maps from names, listed in the order of the names.**

Pipelines, sources and manifest keys are looked up by name and always listed by ascending name,
whatever the order in which they were added.  A `NameMap` keeps its entries in that order, so two
maps with the same entries are equal, and listing a map needs no sorting.

Main definitions:

* `NameMap` — a list of entries with strictly ascending names;
* `NameMap.get?`, `NameMap.insert`, `NameMap.ofList` — look-up, replacement, and the map of a list
  of pairs in which the last pair of a name counts.

Main results:

* `NameMap.ofList_entries` — a map is that of its entries;
* `NameMap.get?_insert` — what a look-up finds after an insertion;
* `NameMap.get?_of_mem` — the value of an entry is found under its name;
* `NameMap.ext_get?` — maps that answer every look-up alike are equal.
-/

import Shaderworks.Data.Lookup

set_option autoImplicit false

namespace Shaderworks

/-- A finite map from names, kept as the list of its entries by ascending name. -/
structure NameMap (α : Type) where
  /-- The entries, by ascending name. -/
  entries : List (String × α)
  /-- Names ascend strictly, so no name stands twice. -/
  ascending : entries.Pairwise fun a b => a.1 < b.1

namespace NameMap

variable {α β : Type}

/-! ### Building and asking -/

/-- The map without entries. -/
def empty : NameMap α := ⟨[], .nil⟩

instance : EmptyCollection (NameMap α) := ⟨empty⟩

instance : Inhabited (NameMap α) := ⟨empty⟩

/-- Two maps are equal when their entries are. -/
@[ext] theorem ext {m n : NameMap α} (h : m.entries = n.entries) : m = n := by
  cases m; cases n; cases h; rfl

instance [DecidableEq α] : DecidableEq (NameMap α) := fun m n =>
  decidable_of_iff (m.entries = n.entries) ⟨ext, fun h => h ▸ rfl⟩

/-- The value under a name. -/
def get? (m : NameMap α) (name : String) : Option α := m.entries.lookup name

/-- Whether the map has a value under a name. -/
def contains (m : NameMap α) (name : String) : Bool := (m.get? name).isSome

/-- The names, in ascending order. -/
def names (m : NameMap α) : List String := m.entries.map Prod.fst

/-- The values, in the order of their names. -/
def values (m : NameMap α) : List α := m.entries.map Prod.snd

/-- The number of entries. -/
def size (m : NameMap α) : Nat := m.entries.length

/-- Puts an entry in its place in an ascending list, in the stead of one with the same name. -/
def insertEntry (name : String) (value : α) : List (String × α) → List (String × α)
  | [] => [(name, value)]
  | e :: rest =>
      if name < e.1 then (name, value) :: e :: rest
      else if name = e.1 then (name, value) :: rest
      else e :: insertEntry name value rest

theorem mem_insertEntry {name : String} {value : α} {l : List (String × α)} {e : String × α}
    (h : e ∈ insertEntry name value l) : e = (name, value) ∨ e ∈ l := by
  induction l with
  | nil => simpa [insertEntry] using h
  | cons d rest ih =>
      simp only [insertEntry] at h
      split at h
      · simpa using h
      · split at h
        · rcases List.mem_cons.1 h with h | h
          · exact .inl h
          · exact .inr (List.mem_cons_of_mem _ h)
        · rcases List.mem_cons.1 h with h | h
          · exact .inr (h ▸ List.mem_cons_self ..)
          · exact (ih h).imp_right (List.mem_cons_of_mem _)

/-- A name that neither comes first nor is equal comes later. -/
theorem lt_of_not_lt_of_ne {a b : String} (h : ¬ a < b) (hne : a ≠ b) : b < a := by
  by_cases hba : b < a
  · exact hba
  · exact absurd (String.le_antisymm (String.not_lt.1 hba) (String.not_lt.1 h)) hne

theorem insertEntry_ascending (name : String) (value : α) {l : List (String × α)}
    (h : l.Pairwise fun a b => a.1 < b.1) :
    (insertEntry name value l).Pairwise fun a b => a.1 < b.1 := by
  induction l with
  | nil => simp [insertEntry]
  | cons d rest ih =>
      have hd := List.pairwise_cons.1 h
      simp only [insertEntry]
      split
      · next hlt =>
          refine List.pairwise_cons.2 ⟨fun e he => ?_, h⟩
          rcases List.mem_cons.1 he with rfl | he
          · exact hlt
          · exact String.lt_trans hlt (hd.1 e he)
      · next hlt =>
          split
          · next heq =>
              exact List.pairwise_cons.2 ⟨fun e he => heq ▸ hd.1 e he, hd.2⟩
          · next hne =>
              refine List.pairwise_cons.2 ⟨fun e he => ?_, ih hd.2⟩
              rcases mem_insertEntry he with rfl | he
              · exact lt_of_not_lt_of_ne hlt hne
              · exact hd.1 e he

/-- The map with a value put under a name, in the stead of an earlier one. -/
def insert (m : NameMap α) (name : String) (value : α) : NameMap α :=
  ⟨insertEntry name value m.entries, insertEntry_ascending name value m.ascending⟩

/-- The map of a list of pairs.  Of two pairs with one name the later counts. -/
def ofList (pairs : List (String × α)) : NameMap α :=
  pairs.foldl (fun m p => m.insert p.1 p.2) empty

/-- A name behind all others is put at the end. -/
theorem insertEntry_of_lt {name : String} {l : List (String × α)} (h : ∀ e ∈ l, e.1 < name)
    (value : α) : insertEntry name value l = l ++ [(name, value)] := by
  induction l with
  | nil => rfl
  | cons d rest ih =>
      have hd : d.1 < name := h d List.mem_cons_self
      have hlt : ¬ name < d.1 := fun hlt => String.lt_irrefl _ (String.lt_trans hlt hd)
      have hne : name ≠ d.1 := fun heq => String.lt_irrefl _ (heq ▸ hd)
      rw [insertEntry, if_neg hlt, if_neg hne, ih fun e he => h e (List.mem_cons_of_mem _ he)]
      rfl

/-- Pairs that ascend behind the entries of a map are put behind them. -/
theorem entries_foldl_insert {pairs : List (String × α)} :
    ∀ {m : NameMap α}, (m.entries ++ pairs).Pairwise (fun a b => a.1 < b.1) →
      (pairs.foldl (fun m p => m.insert p.1 p.2) m).entries = m.entries ++ pairs := by
  induction pairs with
  | nil => exact fun _ => (List.append_nil _).symm
  | cons e pairs ih =>
      intro m h
      have hlt : ∀ d ∈ m.entries, d.1 < e.1 := fun d hd =>
        (List.pairwise_append.1 h).2.2 d hd e List.mem_cons_self
      have hinsert : (m.insert e.1 e.2).entries = m.entries ++ [e] := insertEntry_of_lt hlt e.2
      rw [List.foldl_cons, ih (by rwa [hinsert, List.append_assoc]), hinsert, List.append_assoc]
      rfl

/-- Pairs with ascending names are the entries of their map. -/
theorem entries_ofList {pairs : List (String × α)} (h : pairs.Pairwise fun a b => a.1 < b.1) :
    (ofList pairs).entries = pairs :=
  entries_foldl_insert (m := empty) h

/-- A map is that of its entries. -/
theorem ofList_entries (m : NameMap α) : ofList m.entries = m := ext (entries_ofList m.ascending)

/-- The entries of a map are among the pairs that it was made of. -/
theorem mem_of_mem_ofList {pairs : List (String × α)} {e : String × α}
    (h : e ∈ (ofList pairs).entries) : e ∈ pairs := by
  have hfold : ∀ (pairs : List (String × α)) (m : NameMap α),
      e ∈ (pairs.foldl (fun m p => m.insert p.1 p.2) m).entries → e ∈ m.entries ∨ e ∈ pairs := by
    intro pairs
    induction pairs with
    | nil => exact fun _ hmem => .inl hmem
    | cons d pairs ih =>
        intro m hmem
        rcases ih (m.insert d.1 d.2) hmem with hold | hnew
        · rcases mem_insertEntry hold with rfl | hold
          · exact .inr List.mem_cons_self
          · exact .inl hold
        · exact .inr (List.mem_cons_of_mem _ hnew)
  exact (hfold pairs empty h).resolve_left List.not_mem_nil

/-- Names are listed in ascending order. -/
theorem names_ascending (m : NameMap α) : m.names.Pairwise (· < ·) :=
  List.pairwise_map.2 m.ascending

/-- In an ascending list no name stands twice. -/
theorem nodup_of_ascending {names : List String} (h : names.Pairwise (· < ·)) : names.Nodup := by
  refine h.imp ?_
  rintro a _ hlt rfl
  exact String.lt_irrefl a hlt

theorem nodup_names (m : NameMap α) : m.names.Nodup := nodup_of_ascending m.names_ascending

/-! ### Look-ups -/

@[simp] theorem get?_empty (name : String) : (empty : NameMap α).get? name = none := rfl

theorem lookup_insertEntry (name other : String) (value : α) (l : List (String × α)) :
    (insertEntry name value l).lookup other =
      if other = name then some value else l.lookup other := by
  induction l with
  | nil => simp [insertEntry, lookup_cons_ite]
  | cons d rest ih =>
      simp only [insertEntry]
      split
      · rw [lookup_cons_ite]
      · split
        · next heq =>
            rw [lookup_cons_ite, lookup_cons_ite, ← heq]
            split <;> rfl
        · next hne =>
            rw [lookup_cons_ite, lookup_cons_ite, ih]
            by_cases h : other = name
            · have hne' : other ≠ d.1 := fun heq => hne (h ▸ heq)
              simp [h, h ▸ hne']
            · simp [h]

/-- After an insertion the name has the new value and every other name what it had. -/
theorem get?_insert (m : NameMap α) (name : String) (value : α) (other : String) :
    (m.insert name value).get? other = if other = name then some value else m.get? other :=
  lookup_insertEntry name other value m.entries

/-- After an insertion the name is in use, and every other name that was. -/
theorem contains_insert (m : NameMap α) (name other : String) (value : α) :
    (m.insert name value).contains other = true ↔ other = name ∨ m.contains other = true := by
  rw [contains, get?_insert]
  split
  · next h => simp [h]
  · next h => simp [h, contains]

/-- A name has a value exactly when it is listed. -/
theorem isSome_get?_iff {m : NameMap α} {name : String} :
    (m.get? name).isSome = true ↔ name ∈ m.names :=
  lookup_isSome_iff

theorem lookup_eq_none_of_lt {name : String} {l : List (String × α)}
    (h : ∀ e ∈ l, name < e.1) : l.lookup name = none :=
  lookup_eq_none fun e he heq => String.lt_irrefl _ (heq ▸ h e he)

theorem eq_of_lookup_eq {l k : List (String × α)} (hl : l.Pairwise fun a b => a.1 < b.1)
    (hk : k.Pairwise fun a b => a.1 < b.1)
    (h : ∀ name : String, l.lookup name = k.lookup name) : l = k := by
  induction l generalizing k with
  | nil =>
      cases k with
      | nil => rfl
      | cons e rest => simpa [lookup_cons_ite] using h e.1
  | cons d l ih =>
      cases k with
      | nil => simpa [lookup_cons_ite] using h d.1
      | cons e k =>
          have hl' := List.pairwise_cons.1 hl
          have hk' := List.pairwise_cons.1 hk
          have hname : d.1 = e.1 := by
            have hd := h d.1
            have he := h e.1
            rw [lookup_cons_ite, lookup_cons_ite, if_pos rfl] at hd
            rw [lookup_cons_ite, lookup_cons_ite, if_pos rfl] at he
            by_cases hlt : d.1 < e.1
            · have hnone : k.lookup d.1 = none :=
                lookup_eq_none_of_lt fun x hx => String.lt_trans hlt (hk'.1 x hx)
              by_cases heq : d.1 = e.1
              · exact heq
              · simp [heq, hnone] at hd
            · by_cases heq : d.1 = e.1
              · exact heq
              · have hgt := lt_of_not_lt_of_ne hlt heq
                have hnone : l.lookup e.1 = none :=
                  lookup_eq_none_of_lt fun x hx => String.lt_trans hgt (hl'.1 x hx)
                simp [Ne.symm heq, hnone] at he
          have hvalue : d.2 = e.2 := by
            simpa [lookup_cons_ite, hname] using h d.1
          have hhead : d = e := Prod.ext hname hvalue
          subst hhead
          congr 1
          refine ih hl'.2 hk'.2 fun name => ?_
          by_cases hn : name = d.1
          · subst hn
            rw [lookup_eq_none_of_lt hl'.1, lookup_eq_none_of_lt hk'.1]
          · simpa [lookup_cons_ite, hn] using h name

/-- The value of an entry is found under its name. -/
theorem get?_of_mem {m : NameMap α} {e : String × α} (h : e ∈ m.entries) :
    m.get? e.1 = some e.2 :=
  lookup_of_mem m.nodup_names h

/-- **Maps that answer every look-up alike are equal.** -/
theorem ext_get? {m n : NameMap α} (h : ∀ name, m.get? name = n.get? name) : m = n :=
  ext (eq_of_lookup_eq m.ascending n.ascending h)

/-- Of two values under one name the later counts. -/
theorem insert_insert (m : NameMap α) (name : String) (value value' : α) :
    (m.insert name value).insert name value' = m.insert name value' := by
  refine ext_get? fun other => ?_
  simp only [get?_insert]
  split <;> rfl

/-- Values under different names may be put in any order. -/
theorem insert_comm (m : NameMap α) {name other : String} (hne : name ≠ other) (value value' : α) :
    (m.insert name value).insert other value' = (m.insert other value').insert name value := by
  refine ext_get? fun key => ?_
  simp only [get?_insert]
  by_cases hname : key = name
  · rw [if_pos hname, if_pos hname, if_neg fun hother => hne (hname ▸ hother)]
  · rw [if_neg hname, if_neg hname]

end NameMap

end Shaderworks
