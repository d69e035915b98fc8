/-
**What was written is read back.**

Every reader has its writer, and what the one writes for a value the other takes for that value.  Such
pairs are put together: the items of an array, the members of an object, the fields of a record.
Values of any kind are read back, too, as long as there is no floating-point number inside, since a
reader lets through only what fits: whole numbers of sixty-four bits, and no deeper nesting than it was
told.

Main definitions:

* `WrittenAs` — a text is taken for a value by a reader;
* `Fills` — the members of an object fill the fields of a record;
* `Value.whole` — there is no floating-point number inside;
* `Value.Kept` — values that readers let through.

Main results:

* `writtenAs_printArray`, `writtenAs_printObject` — arrays and objects of what is written;
* `Fills.readNamed` — the fields of a record are read back;
* `kept_of_readValue`, `Value.Kept.writtenAs` — **values without floating-point numbers that were
  read are read back.**
-/

import Shaderworks.Proofs.Results
import Shaderworks.Proofs.Json.Written

set_option autoImplicit false

namespace Shaderworks.Json

variable {α β : Type} {read : Reader α}

/-! ### Texts and their readers -/

/-- A text is outlined by something that a reader takes for a value. -/
def WrittenAs (read : Reader α) (text : List Char) (value : α) : Prop :=
  ∃ node, Outlines text node ∧ read node = .ok value

theorem WrittenAs.readDocument {text : List Char} {value : α} (h : WrittenAs read text value) :
    readDocument read (String.ofList text) = .ok value := by
  obtain ⟨node, houtline, hread⟩ := h
  exact houtline.readDocument hread

/-- What is read may be changed on the way. -/
theorem WrittenAs.map {text : List Char} {value : α} (h : WrittenAs read text value) (f : α → β) :
    WrittenAs (fun node => (read node).map f) text (f value) := by
  obtain ⟨node, houtline, hread⟩ := h
  exact ⟨node, houtline, congrArg (Except.map f) hread⟩

theorem writtenAs_printText (text : String) : WrittenAs readText (printText text) text :=
  ⟨_, outlines_printText text, read_quotedOf text⟩

theorem writtenAs_printOptional (text : Option String) :
    WrittenAs readOptional (printOptional text) text := by
  cases text with
  | none => exact ⟨_, outlines_null, rfl⟩
  | some text =>
      refine ⟨_, outlines_printText text, ?_⟩
      rw [readOptional, readText_text, read_quotedOf]
      · rfl
      · simp

theorem writtenAs_printBool (value : Bool) : WrittenAs readBool (printBool value) value :=
  ⟨_, outlines_printBool value, rfl⟩

/-- The first of two words. -/
theorem writtenAs_first (first second : String) (firstValue secondValue : α) :
    WrittenAs (readWord first second firstValue secondValue) (printText first) firstValue := by
  refine ⟨_, outlines_printText first, ?_⟩
  rw [readWord, read_quotedOf]
  simp [Except.bind, readWord.choose]

/-- The second of two words. -/
theorem writtenAs_second {first second : String} (h : second ≠ first)
    (firstValue secondValue : α) :
    WrittenAs (readWord first second firstValue secondValue) (printText second) secondValue := by
  refine ⟨_, outlines_printText second, ?_⟩
  rw [readWord, read_quotedOf]
  simp [Except.bind, readWord.choose, h]

/-! ### Arrays and objects -/

/-- Written items are read one after another. -/
theorem readItems_of_writtenAs {texts : List (List Char)} {values : List α}
    (h : List.Forall₂ (WrittenAs read) texts values) :
    ∃ nodes, List.Forall₂ Outlines texts nodes ∧ readItems read nodes .closed = .ok values := by
  induction h with
  | nil => exact ⟨[], .nil, rfl⟩
  | cons hfirst _ ih =>
      obtain ⟨node, houtline, hread⟩ := hfirst
      obtain ⟨nodes, houtlines, hreads⟩ := ih
      refine ⟨node :: nodes, .cons houtline houtlines, ?_⟩
      rw [readItems, hread]
      simp only [hreads]
      rfl

/-- **An array of written items.** -/
theorem writtenAs_printArray {texts : List (List Char)} {values : List α}
    (h : List.Forall₂ (WrittenAs read) texts values) :
    WrittenAs (readList read) (printArray texts) values := by
  obtain ⟨nodes, houtlines, hreads⟩ := readItems_of_writtenAs h
  exact ⟨_, outlines_printArray houtlines, hreads⟩

theorem readKey_quotedOf (key : String) : readKey (.text (quotedOf key)) = .ok key :=
  read_quotedOf key

/-- Written members are read one after another. -/
theorem readPairs_of_writtenAs {members : List (String × List Char)} {pairs : List (String × α)}
    (h : List.Forall₂ (fun member pair => member.1 = pair.1 ∧ WrittenAs read member.2 pair.2)
      members pairs) :
    ∃ entries, List.Forall₂ OutlinesMember members entries ∧
      readPairs read entries .closed = .ok pairs := by
  induction h with
  | nil => exact ⟨[], .nil, rfl⟩
  | @cons member pair members pairs hfirst _ ih =>
      obtain ⟨hkey, node, houtline, hread⟩ := hfirst
      obtain ⟨entries, houtlines, hreads⟩ := ih
      refine ⟨(.text (quotedOf member.1), node) :: entries, .cons ⟨rfl, houtline⟩ houtlines, ?_⟩
      rw [readPairs, readKey_quotedOf, hread]
      simp only [hreads, hkey]
      rfl

/-- **An object of written members.** -/
theorem writtenAs_printObject {print : α → List Char} {m : NameMap α}
    (h : ∀ e ∈ m.entries, WrittenAs read (print e.2) e.2) :
    WrittenAs (readMap read) (printObject (m.entries.map fun e => (e.1, print e.2))) m := by
  have hmembers : List.Forall₂
      (fun member pair => member.1 = pair.1 ∧ WrittenAs read member.2 pair.2)
      (m.entries.map fun e => (e.1, print e.2)) m.entries :=
    List.forall₂_map_left_iff.2 (List.forall₂_same.2 fun e he => ⟨rfl, h e he⟩)
  obtain ⟨entries, houtlines, hreads⟩ := readPairs_of_writtenAs hmembers
  refine ⟨_, outlines_printObject houtlines, ?_⟩
  rw [readMap, hreads]
  exact congrArg Except.ok m.ofList_entries

/-! ### Records -/

/-- The members of an object fill the fields of a record, one after another. -/
inductive Fills : List (RecordField α) → List (String × List Char) → α → α → Prop
  /-- No field is left. -/
  | nil (record : α) : Fills [] [] record record
  /-- The first member fills the first field. -/
  | cons {field : RecordField α} {fields : List (RecordField α)} {text : List Char}
      {members : List (String × List Char)} {record next last : α}
      (put : WrittenAs (fun node => field.put node record) text next)
      (rest : Fills fields members next last) :
      Fills (field :: fields) ((field.name, text) :: members) record last

/-- A field that holds what a reader takes is filled by what was written for it. -/
theorem Fills.of {name : String} {put : β → α → β} {fields : List (RecordField β)}
    {text : List Char} {value : α} {members : List (String × List Char)} {record last : β}
    (h : WrittenAs read text value) (rest : Fills fields members (put record value) last) :
    Fills (.of name read put :: fields) ((name, text) :: members) record last :=
  .cons (h.map (put record)) rest

/-- Among fields of different names each is found by its name. -/
theorem find?_name_eq {fields : List (RecordField α)}
    (hnodup : (fields.map RecordField.name).Nodup) :
    ∀ field ∈ fields, fields.find? (fun f => f.name == field.name) = some field := by
  induction fields with
  | nil => exact fun field hfield => absurd hfield List.not_mem_nil
  | cons first fields ih =>
      obtain ⟨hfirst, hnodup⟩ := List.nodup_cons.1 hnodup
      intro field hfield
      rcases List.mem_cons.1 hfield with rfl | hmem
      · exact List.find?_cons_of_pos (by simp)
      · have hne : first.name ≠ field.name := fun heq => hfirst (heq ▸ List.mem_map_of_mem hmem)
        rw [List.find?_cons_of_neg (by simpa using hne)]
        exact ih hnodup field hmem

/-- The fields that are left are read back, if those that were given are others. -/
theorem Fills.readLeft {fields left : List (RecordField α)} {members : List (String × List Char)}
    {record last : α} (h : Fills left members record last)
    (hnodup : (fields.map RecordField.name).Nodup)
    (other : String → Node → α → Except ReadError α) :
    left ⊆ fields → (left.map RecordField.name).Nodup → ∀ given : List String,
      (∀ field ∈ left, field.name ∉ given) →
        ∃ entries given', List.Forall₂ OutlinesMember members entries ∧
          ∀ more ending, Json.readNamed fields other given (entries ++ more) ending record =
            Json.readNamed fields other given' more ending last := by
  induction h with
  | nil record => exact fun _ _ given _ => ⟨[], given, .nil, fun _ _ => rfl⟩
  | @cons field left text members record next last put rest ih =>
      intro hsub hnames given hnew
      obtain ⟨hfield, hsub⟩ := List.cons_subset.1 hsub
      obtain ⟨hname, hnames⟩ := List.nodup_cons.1 hnames
      obtain ⟨node, houtline, hput⟩ := put
      have hnew' : ∀ f ∈ left, f.name ∉ field.name :: given := by
        intro f hf hmem
        rcases List.mem_cons.1 hmem with heq | hgiven
        · exact hname (heq ▸ List.mem_map_of_mem hf)
        · exact hnew f (List.mem_cons_of_mem _ hf) hgiven
      obtain ⟨entries, given', houtlines, hrest⟩ := ih hsub hnames (field.name :: given) hnew'
      refine ⟨(.text (quotedOf field.name), node) :: entries, given',
        .cons ⟨rfl, houtline⟩ houtlines, fun more ending => ?_⟩
      have hput : field.put node record = .ok next := hput
      rw [List.cons_append, Json.readNamed, readKey_quotedOf]
      simp only [find?_name_eq hnodup field hfield, if_neg (hnew field List.mem_cons_self), hput,
        hrest]

/-- **The fields of a record are read back**, before whatever follows them. -/
theorem Fills.readNamed {fields : List (RecordField α)} {members : List (String × List Char)}
    {record last : α} (h : Fills fields members record last)
    (hnodup : (fields.map RecordField.name).Nodup)
    (other : String → Node → α → Except ReadError α) :
    ∃ entries given, List.Forall₂ OutlinesMember members entries ∧
      ∀ more ending, Json.readNamed fields other [] (entries ++ more) ending record =
        Json.readNamed fields other given more ending last :=
  h.readLeft hnodup other (List.Subset.refl _) hnodup [] fun _ _ => List.not_mem_nil

/-! ### Any value -/

mutual

/-- There is no floating-point number inside. -/
def Value.whole : Value → Bool
  | .null => true
  | .boolean _ => true
  | .number (.integer _) => true
  | .number (.real _) => false
  | .text _ => true
  | .array items => wholeItems items
  | .object members => wholeMembers members

/-- There is none in any item. -/
def Value.wholeItems : List Value → Bool
  | [] => true
  | item :: rest => item.whole && wholeItems rest

/-- There is none in any member. -/
def Value.wholeMembers : List (String × Value) → Bool
  | [] => true
  | (_, value) :: rest => value.whole && wholeMembers rest

end

/-- The values without floating-point numbers that readers let through, by the number of arrays and
objects that may stand inside one another. -/
inductive Value.Kept : Nat → Value → Prop
  | null (depth : Nat) : Kept depth .null
  | boolean (depth : Nat) (value : Bool) : Kept depth (.boolean value)
  | integer (depth : Nat) {value : Int} (hfits : Fits value) : Kept depth (.number (.integer value))
  | text (depth : Nat) (value : String) : Kept depth (.text value)
  | array {depth : Nat} {items : List Value} (hitems : ∀ item ∈ items, Kept depth item) :
      Kept (depth + 1) (.array items)
  | object {depth : Nat} {members : List (String × Value)}
      (hascending : members.Pairwise fun a b => a.1 < b.1)
      (hmembers : ∀ member ∈ members, Kept depth member.2) : Kept (depth + 1) (.object members)

theorem wholeItems_iff {items : List Value} :
    Value.wholeItems items = true ↔ ∀ item ∈ items, item.whole = true := by
  induction items with
  | nil => simp [Value.wholeItems]
  | cons item items ih => simp [Value.wholeItems, ih]

theorem wholeMembers_iff {members : List (String × Value)} :
    Value.wholeMembers members = true ↔ ∀ member ∈ members, member.2.whole = true := by
  induction members with
  | nil => simp [Value.wholeMembers]
  | cons member members ih => simp [Value.wholeMembers, ih]

/-- The values of an array are its items, read alike. -/
theorem readValues_eq (depth : Nat) (items : List Node) (ending : Ending) :
    readValues depth items ending = readItems (readValue depth) items ending := by
  induction items with
  | nil => rw [readValues, readItems]
  | cons item items ih =>
      rw [readValues, readItems, ih]
      cases readValue depth item <;> rfl

theorem readEntries_eq (depth : Nat) (members : List (Node × Node)) (ending : Ending) :
    readEntries depth members ending = readPairs (readValue depth) members ending := by
  induction members with
  | nil => rw [readEntries, readPairs]
  | cons member members ih =>
      rw [readEntries, readPairs, ih]
      cases readKey member.1 <;> cases readValue depth member.2 <;> rfl

theorem printValues_eq (items : List Value) : printValues items = items.map printValue := by
  induction items with
  | nil => rfl
  | cons item items ih => rw [printValues, ih, List.map_cons]

theorem printMembers_eq (members : List (String × Value)) :
    printMembers members = members.map fun m => (m.1, printValue m.2) := by
  induction members with
  | nil => rfl
  | cons member members ih => rw [printMembers, ih, List.map_cons]

/-- **A value that a reader lets through is read back.** -/
theorem Value.Kept.writtenAs {depth : Nat} {value : Value} (h : Kept depth value) :
    WrittenAs (readValue depth) (printValue value) value := by
  induction h with
  | null depth => exact ⟨_, outlines_null, by rw [readValue]⟩
  | boolean depth value => exact ⟨_, outlines_printBool value, by rw [readValue]⟩
  | integer depth hfits =>
      refine ⟨_, outlines_integer _, ?_⟩
      rw [readValue, read_numeralOf hfits]
      rfl
  | text depth value =>
      refine ⟨_, outlines_printText value, ?_⟩
      rw [readValue, read_quotedOf]
      rfl
  | @array depth items hitems ih =>
      have htexts : List.Forall₂ (WrittenAs (readValue depth)) (items.map printValue) items :=
        List.forall₂_map_left_iff.2 (List.forall₂_same.2 ih)
      obtain ⟨nodes, houtlines, hreads⟩ := readItems_of_writtenAs htexts
      rw [printValue, printValues_eq]
      refine ⟨_, outlines_printArray houtlines, ?_⟩
      rw [readValue, if_neg (Nat.succ_ne_zero _), Nat.add_sub_cancel, readValues_eq, hreads]
      rfl
  | @object depth members hascending hmembers ih =>
      have htexts : List.Forall₂
          (fun member pair => member.1 = pair.1 ∧ WrittenAs (readValue depth) member.2 pair.2)
          (members.map fun m => (m.1, printValue m.2)) members :=
        List.forall₂_map_left_iff.2 (List.forall₂_same.2 fun m hm => ⟨rfl, ih m hm⟩)
      obtain ⟨entries, houtlines, hreads⟩ := readPairs_of_writtenAs htexts
      rw [printValue, printMembers_eq]
      refine ⟨_, outlines_printObject houtlines, ?_⟩
      rw [readValue, if_neg (Nat.succ_ne_zero _), Nat.add_sub_cancel, readEntries_eq, hreads]
      exact congrArg (Except.ok ∘ Value.object) (NameMap.entries_ofList hascending)

/-! ### What readers let through -/

/-- What is collected fits. -/
theorem wholePart_le (digits : List Char) :
    ∀ {sum : Nat}, sum ≤ maxCollected → (wholePart sum digits).1 ≤ maxCollected := by
  induction digits with
  | nil => exact fun h => h
  | cons d digits ih =>
      intro sum h
      rw [wholePart]
      split
      · exact h
      · next hfits => exact ih (Nat.not_lt.1 hfits)

theorem realOf?_ne_integer (negative : Bool) (collected : Nat) (exponent value : Int) :
    realOf? negative collected exponent ≠ some (.integer value) := by
  intro h
  obtain ⟨x, -, hx⟩ := Option.bind_eq_some_iff.1 h
  obtain ⟨y, -, hy⟩ := Option.map_eq_some_iff.1 hx
  cases hy

/-- **Whole numbers that are read fit.** -/
theorem fits_of_read {numeral : Numeral} {value : Int}
    (h : numeral.read = .ok (.integer value)) : Fits value := by
  have hvalue : numeral.value? = some (.integer value) := by
    unfold Numeral.read at h
    split at h
    · next heq => rw [heq, Except.ok.inj h]
    · cases h
  have hle : (wholePart 0 numeral.whole).1 ≤ maxCollected := wholePart_le _ (Nat.zero_le _)
  unfold Numeral.value? at hvalue
  split at hvalue
  next collected left hpart =>
    rw [hpart] at hle
    split at hvalue
    · split at hvalue
      · unfold wholeOf? at hvalue
        split_ifs at hvalue with hnegative hrange
        · exact absurd hvalue (realOf?_ne_integer _ _ _ _)
        · cases hvalue
          rw [not_or] at hrange
          exact ⟨by omega, by omega⟩
        · cases hvalue
          exact ⟨by omega, by exact_mod_cast hle⟩
      · exact absurd hvalue (realOf?_ne_integer _ _ _ _)
    · exact absurd hvalue (realOf?_ne_integer _ _ _ _)
    · exact absurd hvalue (realOf?_ne_integer _ _ _ _)

mutual

/-- **A value without floating-point numbers that was read is kept.** -/
theorem kept_of_readValue : ∀ (node : Node) {depth : Nat} {value : Value},
    readValue depth node = .ok value → value.whole = true → value.Kept depth
  | .null, depth, value, h, _ => by
      rw [readValue, Except.ok.injEq] at h
      exact h ▸ .null depth
  | .boolean b, depth, value, h, _ => by
      rw [readValue, Except.ok.injEq] at h
      exact h ▸ .boolean depth b
  | .number numeral, depth, value, h, hwhole => by
      rw [readValue] at h
      obtain ⟨number, hread, rfl⟩ := map_eq_ok h
      cases number with
      | integer n => exact .integer depth (fits_of_read hread)
      | real x => cases hwhole
  | .cutNumber, depth, value, h, _ => by
      rw [readValue] at h
      cases h
  | .text quoted, depth, value, h, _ => by
      rw [readValue] at h
      obtain ⟨text, -, rfl⟩ := map_eq_ok h
      exact .text depth text
  | .array items ending, depth, value, h, hwhole => by
      rw [readValue] at h
      split at h
      · cases h
      · next hdepth =>
          obtain ⟨depth, rfl⟩ := Nat.exists_eq_succ_of_ne_zero hdepth
          obtain ⟨values, hvalues, rfl⟩ := map_eq_ok h
          exact .array (kept_of_readValues items hvalues (wholeItems_iff.1 hwhole))
  | .object members ending, depth, value, h, hwhole => by
      rw [readValue] at h
      split at h
      · cases h
      · next hdepth =>
          obtain ⟨depth, rfl⟩ := Nat.exists_eq_succ_of_ne_zero hdepth
          obtain ⟨pairs, hpairs, rfl⟩ := map_eq_ok h
          refine .object (NameMap.ofList pairs).ascending fun member hmember => ?_
          exact kept_of_readEntries members hpairs member (NameMap.mem_of_mem_ofList hmember)
            (wholeMembers_iff.1 hwhole member hmember)
  | .absent, depth, value, h, _ => by
      rw [readValue] at h
      cases h
  | .broken fault, depth, value, h, _ => by
      rw [readValue] at h
      cases h

/-- So are the items of an array. -/
theorem kept_of_readValues : ∀ (items : List Node) {depth : Nat} {ending : Ending}
    {values : List Value}, readValues depth items ending = .ok values →
      (∀ value ∈ values, value.whole = true) → ∀ value ∈ values, value.Kept depth
  | [], depth, ending, values, h, _ => by
      rw [readValues] at h
      obtain ⟨-, -, rfl⟩ := map_eq_ok h
      exact fun value hvalue => absurd hvalue List.not_mem_nil
  | item :: items, depth, ending, values, h, hwhole => by
      rw [readValues] at h
      split at h
      · cases h
      · next first hfirst =>
          obtain ⟨rest, hrest, rfl⟩ := map_eq_ok h
          obtain ⟨hone, hothers⟩ := List.forall_mem_cons.1 hwhole
          exact List.forall_mem_cons.2
            ⟨kept_of_readValue item hfirst hone, kept_of_readValues items hrest hothers⟩

/-- So are the members of an object, those that count and the others. -/
theorem kept_of_readEntries : ∀ (members : List (Node × Node)) {depth : Nat} {ending : Ending}
    {pairs : List (String × Value)}, readEntries depth members ending = .ok pairs →
      ∀ pair ∈ pairs, pair.2.whole = true → pair.2.Kept depth
  | [], depth, ending, pairs, h => by
      rw [readEntries] at h
      obtain ⟨-, -, rfl⟩ := map_eq_ok h
      exact fun pair hpair => absurd hpair List.not_mem_nil
  | (key, node) :: members, depth, ending, pairs, h => by
      rw [readEntries] at h
      split at h
      · cases h
      · split at h
        · cases h
        · next first hfirst =>
            obtain ⟨rest, hrest, rfl⟩ := map_eq_ok h
            exact List.forall_mem_cons.2
              ⟨kept_of_readValue node hfirst, kept_of_readEntries members hrest⟩

end

end Shaderworks.Json
