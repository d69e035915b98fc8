/-
**Reading an outline with another value in a place.**

A reader goes through an outline once.  With another value in a place it reads what stands before the
value as before, reports what is wrong with the value if anything is, and else goes on as before: each
field of a record holds its value apart from the others, and in a map a value is under its key.

Main definitions:

* `Frame.Names`, `Frame.NamesAgain` — an object has the value under a name, and another one behind it;
* `Frame.Holds` — a record has the value in a field;
* `Separate` — a field holds its value apart from the other fields.

Main results:

* `readNamed_replace`, `readRecord_replace` — **another value of a field changes that field only;**
* `readMap_replace_last`, `readMap_replace_earlier` — another value under a name changes the map under
  that name only, or not at all if the name is given again.
-/

import Shaderworks.Proofs.Json.Places
import Shaderworks.Proofs.Json.ReadBack
import Shaderworks.Proofs.Results

set_option autoImplicit false

namespace Shaderworks

/-! ### Maps with another value under a name -/

namespace NameMap

variable {α : Type}

/-- A value under a name that is not given again stays. -/
theorem foldl_insert_of_not_mem {name : String} {pairs : List (String × α)}
    (h : name ∉ pairs.map Prod.fst) (m : NameMap α) (value : α) :
    pairs.foldl (fun m p => m.insert p.1 p.2) (m.insert name value) =
      (pairs.foldl (fun m p => m.insert p.1 p.2) m).insert name value := by
  induction pairs generalizing m with
  | nil => rfl
  | cons pair pairs ih =>
      rw [List.map_cons, List.mem_cons, not_or] at h
      rw [List.foldl_cons, List.foldl_cons, insert_comm m h.1, ih h.2]

/-- A value under a name that is given again does not count. -/
theorem foldl_insert_of_mem {name : String} {pairs : List (String × α)}
    (h : name ∈ pairs.map Prod.fst) (m : NameMap α) (value : α) :
    pairs.foldl (fun m p => m.insert p.1 p.2) (m.insert name value) =
      pairs.foldl (fun m p => m.insert p.1 p.2) m := by
  induction pairs generalizing m with
  | nil => exact absurd h List.not_mem_nil
  | cons pair pairs ih =>
      rw [List.foldl_cons, List.foldl_cons]
      by_cases hname : name = pair.1
      · rw [hname, insert_insert]
      · rw [List.map_cons, List.mem_cons] at h
        rw [insert_comm m hname, ih (h.resolve_left hname)]

/-- A list with another value under its last name of a kind is the map with this value. -/
theorem ofList_replace_last {name : String} {before after : List (String × α)}
    (h : name ∉ after.map Prod.fst) (value value' : α) :
    ofList (before ++ (name, value') :: after) =
      (ofList (before ++ (name, value) :: after)).insert name value' := by
  simp only [ofList, List.foldl_append, List.foldl_cons]
  rw [foldl_insert_of_not_mem h, foldl_insert_of_not_mem h, insert_insert]

theorem get?_ofList_last {name : String} {before after : List (String × α)}
    (h : name ∉ after.map Prod.fst) (value : α) :
    (ofList (before ++ (name, value) :: after)).get? name = some value := by
  simp only [ofList, List.foldl_append, List.foldl_cons]
  rw [foldl_insert_of_not_mem h, get?_insert, if_pos rfl]

theorem ofList_replace_earlier {name : String} {before after : List (String × α)}
    (h : name ∈ after.map Prod.fst) (value value' : α) :
    ofList (before ++ (name, value') :: after) = ofList (before ++ (name, value) :: after) := by
  simp only [ofList, List.foldl_append, List.foldl_cons]
  rw [foldl_insert_of_mem h, foldl_insert_of_mem h]

end NameMap

namespace Json

variable {α β : Type} {fields : List (RecordField α)} {name : String} {put : α → β → α}
  {read : Reader β} {frame : Frame} {node : Node}

/-! ### Names of a value -/

namespace Frame

/-- The value is under a name in an object. -/
def Names (name : String) : Frame → Prop
  | item _ _ _ => False
  | member _ key _ _ => readKey key = .ok name

/-- Behind the value another one is under the name. -/
def NamesAgain (name : String) : Frame → Prop
  | item _ _ _ => False
  | member _ _ later _ => ∃ member ∈ later, readKey member.1 = .ok name

/-- The value is that of a field of a record, by its name or by its place. -/
def Holds (fields : List (RecordField α)) (name : String) : Frame → Prop
  | item earlier _ _ => (fields.map RecordField.name)[earlier.length]? = some name
  | member _ key _ _ => readKey key = .ok name

end Frame

/-! ### Fields of a record -/

/-- A field holds its value apart from the other fields: put twice, the last value counts, and no
other field looks at it. -/
structure Separate (fields : List (RecordField α)) (name : String) (put : α → β → α) : Prop where
  /-- The last value counts. -/
  put_put : ∀ record value value', put (put record value) value' = put record value'
  /-- Another field is put in the same way before and after. -/
  put_field : ∀ field ∈ fields, field.name ≠ name → ∀ node record value,
    field.put node (put record value) = (field.put node record).map (put · value)

/-- What is no field is handled in the same way before and after a field is put. -/
def Heedless (other : String → Node → α → Except ReadError α) (put : α → β → α) : Prop :=
  ∀ key node record value, other key node (put record value) = (other key node record).map (put · value)

/-- Values of two fields that are put in any order. -/
theorem RecordField.put_of_comm {γ : Type} {other : String} {read' : Reader γ} {put' : α → γ → α}
    (hcomm : ∀ record value value', put' (put record value) value' = put (put' record value') value)
    (node : Node) (record : α) (value : β) :
    (RecordField.of other read' put').put node (put record value) =
      ((RecordField.of other read' put').put node record).map (put · value) := by
  have hput (record : α) :
      (RecordField.of other read' put').put node record = (read' node).map (put' record) := rfl
  rw [hput, hput]
  cases read' node with
  | error e => rfl
  | ok value' => exact congrArg Except.ok (hcomm record value value')

theorem heedless_ignoreMember (put : α → β → α) : Heedless ignoreMember put := by
  intro key node record value
  rw [ignoreMember, ignoreMember]
  cases skip node <;> rfl

/-- Members that were read lead to some fields given and some record, whatever follows them. -/
theorem readNamed_append {other : String → Node → α → Except ReadError α}
    {earlier more : List (Node × Node)} {ending : Ending} {last : α} :
    ∀ {given : List String} {record : α},
      readNamed fields other given (earlier ++ more) ending record = .ok last →
        ∃ given' middle, ∀ more ending,
          readNamed fields other given (earlier ++ more) ending record =
            readNamed fields other given' more ending middle := by
  induction earlier with
  | nil => exact fun {given record} _ => ⟨given, record, fun _ _ => rfl⟩
  | cons member earlier ih =>
      intro given record h
      obtain ⟨key, value⟩ := member
      rw [List.cons_append, readNamed] at h
      split at h
      · cases h
      · next name hkey =>
          split at h
          · next hfind =>
              split at h
              · cases h
              · next next hother =>
                  obtain ⟨given', middle, hrest⟩ := ih h
                  refine ⟨given', middle, fun more ending => ?_⟩
                  rw [List.cons_append, readNamed, hkey]
                  simp only [hfind, hother, hrest]
          · next field hfind =>
              split at h
              · cases h
              · next hnew =>
                  split at h
                  · cases h
                  · next next hput =>
                      obtain ⟨given', middle, hrest⟩ := ih h
                      refine ⟨given', middle, fun more ending => ?_⟩
                      rw [List.cons_append, readNamed, hkey]
                      simp only [hfind, if_neg hnew, hput, hrest]

/-- Members behind a field are read in the same way, whatever its value. -/
theorem readNamed_put {other : String → Node → α → Except ReadError α}
    (hseparate : Separate fields name put) (hother : Heedless other put)
    (members : List (Node × Node)) (ending : Ending) :
    ∀ {given : List String}, name ∈ given → ∀ record value,
      readNamed fields other given members ending (put record value) =
        (readNamed fields other given members ending record).map (put · value) := by
  induction members with
  | nil =>
      intro given _ record value
      rw [readNamed, readNamed]
      cases ending.check <;> rfl
  | cons member members ih =>
      intro given hgiven record value
      obtain ⟨key, node⟩ := member
      rw [readNamed, readNamed]
      cases readKey key with
      | error e => rfl
      | ok key =>
          dsimp only
          cases hfind : fields.find? fun field => field.name == key with
          | none =>
              dsimp only
              rw [hother]
              cases other key node record with
              | error e => rfl
              | ok next => exact ih hgiven next value
          | some field =>
              dsimp only
              have hname : field.name = key := by simpa using List.find?_some hfind
              by_cases hold : key ∈ given
              · rw [if_pos hold, if_pos hold]
                rfl
              · have hne : field.name ≠ name := fun heq => hold (hname ▸ heq ▸ hgiven)
                rw [if_neg hold, if_neg hold,
                  hseparate.put_field field (List.mem_of_find?_eq_some hfind) hne]
                cases field.put node record with
                | error e => rfl
                | ok next => exact ih (List.mem_cons_of_mem _ hgiven) next value

/-- **Another value of a field changes that field only**, or is reported. -/
theorem readNamed_replace {other : String → Node → α → Except ReadError α}
    (hseparate : Separate fields name put) (hother : Heedless other put)
    (hfind : (fields.find? fun field => field.name == name) = some (.of name read put))
    {earlier later : List (Node × Node)} {key node : Node} {ending : Ending} {start last : α}
    (hkey : readKey key = .ok name)
    (h : readNamed fields other [] (earlier ++ (key, node) :: later) ending start = .ok last)
    (node' : Node) :
    readNamed fields other [] (earlier ++ (key, node') :: later) ending start =
      (read node').map (put last) := by
  obtain ⟨given, middle, hearlier⟩ := readNamed_append h
  rw [hearlier, readNamed, hkey] at h
  rw [hearlier, readNamed, hkey]
  simp only [hfind] at h ⊢
  split at h
  · cases h
  · next hnew =>
      rw [if_neg hnew]
      have hput (node : Node) :
          (RecordField.of name read put).put node middle = (read node).map (put middle) := rfl
      rw [hput] at h ⊢
      split at h
      · cases h
      · next next hnext =>
          obtain ⟨value, -, rfl⟩ := map_eq_ok hnext
          cases read node' with
          | error e => rfl
          | ok value' =>
              have hlater := readNamed_put hseparate hother later ending
                (List.mem_cons_self (a := name) (l := given)) (put middle value) value'
              rw [hseparate.put_put, h] at hlater
              exact hlater

/-- Fields that were read in their order lead to some record, whatever follows them. -/
theorem readPlaced_append {earlier more : List Node} {ending : Ending} {last : α} :
    ∀ {fields : List (RecordField α)} {record : α},
      readPlaced fields (earlier ++ more) ending record = .ok last →
        ∃ middle, ∀ more ending, readPlaced fields (earlier ++ more) ending record =
          readPlaced (fields.drop earlier.length) more ending middle := by
  induction earlier with
  | nil => exact fun {fields record} _ => ⟨record, fun _ _ => rfl⟩
  | cons value earlier ih =>
      intro fields record h
      cases fields with
      | nil => cases h
      | cons field fields =>
          rw [List.cons_append, readPlaced] at h
          split at h
          · cases h
          · next next hput =>
              obtain ⟨middle, hrest⟩ := ih h
              refine ⟨middle, fun more ending => ?_⟩
              rw [List.cons_append, readPlaced, hput]
              exact hrest more ending

/-- Fields that are put in the same way before and after a field are read in the same way, whatever
its value. -/
theorem readPlaced_put (items : List Node) (ending : Ending) :
    ∀ {fields : List (RecordField α)},
      (∀ field ∈ fields, ∀ node record value,
        field.put node (put record value) = (field.put node record).map (put · value)) →
      ∀ record value, readPlaced fields items ending (put record value) =
        (readPlaced fields items ending record).map (put · value) := by
  induction items with
  | nil =>
      intro fields _ record value
      rw [readPlaced, readPlaced]
      cases ending.check <;> rfl
  | cons node items ih =>
      intro fields hfields record value
      cases fields with
      | nil => rfl
      | cons field fields =>
          obtain ⟨hfield, hfields⟩ := List.forall_mem_cons.1 hfields
          rw [readPlaced, readPlaced, hfield]
          cases field.put node record with
          | error e => rfl
          | ok next => exact ih hfields next value

/-- **Another value of a field changes that field only**, or is reported, in a record whose fields
stand in their order. -/
theorem readPlaced_replace (hseparate : Separate fields name put)
    (hnames : (fields.map RecordField.name).Nodup) {earlier later : List Node} {node : Node}
    {ending : Ending} {start last : α}
    (hplace : fields[earlier.length]? = some (.of name read put))
    (h : readPlaced fields (earlier ++ node :: later) ending start = .ok last) (node' : Node) :
    readPlaced fields (earlier ++ node' :: later) ending start = (read node').map (put last) := by
  obtain ⟨middle, hearlier⟩ := readPlaced_append h
  obtain ⟨hlength, hget⟩ := List.getElem?_eq_some_iff.1 hplace
  have hdrop : fields.drop earlier.length =
      .of name read put :: fields.drop (earlier.length + 1) := by
    rw [List.drop_eq_getElem_cons hlength, hget]
  -- The fields behind have other names.
  have hbehind : ∀ field ∈ fields.drop (earlier.length + 1), ∀ node record value,
      field.put node (put record value) = (field.put node record).map (put · value) := by
    intro field hfield
    have hnodup : ((fields.drop earlier.length).map RecordField.name).Nodup := by
      rw [List.map_drop]
      exact hnames.sublist (List.drop_sublist _ _)
    rw [hdrop, List.map_cons] at hnodup
    refine hseparate.put_field field (List.mem_of_mem_drop hfield) fun heq => ?_
    exact (List.nodup_cons.1 hnodup).1 (List.mem_map.2 ⟨field, hfield, heq⟩)
  have hput (node : Node) :
      (RecordField.of name read put).put node middle = (read node).map (put middle) := rfl
  rw [hearlier, hdrop, readPlaced, hput] at h
  rw [hearlier, hdrop, readPlaced, hput]
  split at h
  · cases h
  · next next hnext =>
      obtain ⟨value, -, rfl⟩ := map_eq_ok hnext
      cases read node' with
      | error e => rfl
      | ok value' =>
          have hlater := readPlaced_put later ending hbehind (put middle value) value'
          rw [hseparate.put_put, h] at hlater
          exact hlater

/-- **Another value of a field changes that field only**, or is reported, whichever way the record is
given. -/
theorem readRecord_replace (hseparate : Separate fields name put)
    (hnames : (fields.map RecordField.name).Nodup) (hfield : .of name read put ∈ fields)
    (hholds : frame.Holds fields name) {wanted : String} {start last : α}
    (h : readRecord wanted fields start (frame.fill node) = .ok last) (node' : Node) :
    readRecord wanted fields start (frame.fill node') = (read node').map (put last) := by
  cases frame with
  | item earlier later ending =>
      have hholds : (fields.map RecordField.name)[earlier.length]? = some name := hholds
      rw [List.getElem?_map, Option.map_eq_some_iff] at hholds
      obtain ⟨field, hplace, rfl⟩ := hholds
      -- Two fields of one name are the same.
      have hfind := find?_name_eq hnames field (List.mem_of_getElem? hplace)
      have hsame : some (.of field.name read put) = some field :=
        (find?_name_eq hnames _ hfield).symm.trans hfind
      rw [← hsame] at hplace
      exact readPlaced_replace hseparate hnames hplace h node'
  | member earlier key later ending =>
      exact readNamed_replace hseparate (heedless_ignoreMember put)
        (find?_name_eq hnames _ hfield) hholds h node'

/-! ### Maps -/

/-- The names of the members that were read are their keys. -/
theorem mem_names_of_readPairs {members : List (Node × Node)} {ending : Ending} :
    ∀ {pairs : List (String × β)}, readPairs read members ending = .ok pairs →
      (name ∈ pairs.map Prod.fst ↔ ∃ member ∈ members, readKey member.1 = .ok name) := by
  induction members with
  | nil =>
      intro pairs h
      rw [readPairs] at h
      obtain ⟨-, -, rfl⟩ := map_eq_ok h
      simp
  | cons member members ih =>
      intro pairs h
      obtain ⟨key, value⟩ := member
      rw [readPairs] at h
      split at h
      · cases h
      · next first hkey =>
          split at h
          · cases h
          · obtain ⟨rest, hrest, rfl⟩ := map_eq_ok h
            rw [List.map_cons, List.mem_cons, ih hrest]
            simp only [List.mem_cons, exists_eq_or_imp, hkey, Except.ok.injEq]
            exact or_congr_left eq_comm

/-- Among the members of an object another value is read in the place of the first one. -/
theorem readPairs_replace {key node : Node} {later : List (Node × Node)} {ending : Ending}
    (hkey : readKey key = .ok name) {earlier : List (Node × Node)} :
    ∀ {pairs : List (String × β)},
      readPairs read (earlier ++ (key, node) :: later) ending = .ok pairs →
        ∃ before value after, pairs = before ++ (name, value) :: after ∧ read node = .ok value ∧
          readPairs read later ending = .ok after ∧
          ∀ node', readPairs read (earlier ++ (key, node') :: later) ending =
            (read node').map fun value' => before ++ (name, value') :: after := by
  induction earlier with
  | nil =>
      intro pairs h
      rw [List.nil_append, readPairs, hkey] at h
      dsimp only at h
      split at h
      · cases h
      · next value hvalue =>
          obtain ⟨after, hafter, rfl⟩ := map_eq_ok h
          refine ⟨[], value, after, rfl, hvalue, hafter, fun node' => ?_⟩
          rw [List.nil_append, readPairs, hkey, hafter]
          cases read node' <;> rfl
  | cons member earlier ih =>
      intro pairs h
      obtain ⟨firstKey, firstNode⟩ := member
      rw [List.cons_append, readPairs] at h
      split at h
      · cases h
      · next first hfirst =>
          split at h
          · cases h
          · next firstValue hfirstValue =>
              obtain ⟨rest, hrest, rfl⟩ := map_eq_ok h
              obtain ⟨before, value, after, rfl, hvalue, hafter, hagain⟩ := ih hrest
              refine ⟨(first, firstValue) :: before, value, after, rfl, hvalue, hafter,
                fun node' => ?_⟩
              rw [List.cons_append, readPairs, hfirst, hfirstValue, hagain]
              cases read node' <;> rfl

/-- **Another value under a name changes the map under that name only**, or is reported. -/
theorem readMap_replace_last (hnames : frame.Names name) (hlast : ¬ frame.NamesAgain name)
    {m : NameMap β} (h : readMap read (frame.fill node) = .ok m) :
    ∃ value, read node = .ok value ∧ m.get? name = some value ∧
      ∀ node', readMap read (frame.fill node') = (read node').map (m.insert name) := by
  cases frame with
  | item earlier later ending => exact hnames.elim
  | member earlier key later ending =>
      obtain ⟨pairs, hpairs, rfl⟩ := map_eq_ok h
      obtain ⟨before, value, after, rfl, hvalue, hafter, hagain⟩ := readPairs_replace hnames hpairs
      have hnew : name ∉ after.map Prod.fst :=
        fun hmem => hlast ((mem_names_of_readPairs hafter).1 hmem)
      refine ⟨value, hvalue, NameMap.get?_ofList_last hnew value, fun node' => ?_⟩
      rw [Frame.fill, readMap, hagain]
      cases read node' with
      | error e => rfl
      | ok value' => exact congrArg Except.ok (NameMap.ofList_replace_last hnew value value')

/-- **Another value under a name that is given again does not change the map**, or is reported. -/
theorem readMap_replace_earlier (hnames : frame.Names name) (hagain : frame.NamesAgain name)
    {m : NameMap β} (h : readMap read (frame.fill node) = .ok m) :
    ∃ value, read node = .ok value ∧
      ∀ node', readMap read (frame.fill node') = (read node').map fun _ => m := by
  cases frame with
  | item earlier later ending => exact hnames.elim
  | member earlier key later ending =>
      obtain ⟨pairs, hpairs, rfl⟩ := map_eq_ok h
      obtain ⟨before, value, after, rfl, hvalue, hafter, hreplace⟩ := readPairs_replace hnames hpairs
      have hold : name ∈ after.map Prod.fst := (mem_names_of_readPairs hafter).2 hagain
      refine ⟨value, hvalue, fun node' => ?_⟩
      rw [Frame.fill, readMap, hreplace]
      cases read node' with
      | error e => rfl
      | ok value' => exact congrArg Except.ok (NameMap.ofList_replace_earlier hold value value')

/-! ### Documents -/

/-- A document that was read is its outline, with spaces behind it; an outline with the same behind it
is read in the same way. -/
theorem readDocument_replace {text : String} {rest : List Char} {value : β}
    (houtline : outline text.toList = (node, rest)) (h : readDocument read text = .ok value) :
    read node = .ok value ∧ ∀ text' node', outline text' = (node', rest) →
      readDocument read (String.ofList text') = read node' := by
  rw [readDocument, houtline] at h
  dsimp only at h
  split at h
  · cases h
  · next value' hvalue =>
      split at h
      · next hspaces =>
          cases h
          refine ⟨hvalue, fun text' node' houtline' => ?_⟩
          rw [readDocument, String.toList_ofList, houtline']
          dsimp only
          cases read node' with
          | error e => rfl
          | ok value' => exact if_pos hspaces
      · cases h

end Json

end Shaderworks
