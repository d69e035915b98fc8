/-
**Reading outlines.**

A reader takes from an outline what it wants and refuses the rest.  It looks at the parts in the
order of the text, so of several problems it reports the one that stands first.

Main definitions:

* `Problem` — a value that a reader cannot use, and `Problem.text` — the report of it;
* `ReadError` — a fault of the text or a problem with a value;
* `Reader` — functions from outlines;
* `readText`, `readOptional`, `readBool`, `readCount`, `readList`, `readWord`, `readValue`, `skip` —
  readers of single values;
* `RecordField`, `readRecord`, `readMap` — readers of records and of objects with arbitrary keys;
* `readDocument` — reading a text that holds one value and nothing else.

Main results:

* `readText_text` — a string is read as what it spells.
-/

import Shaderworks.Json.Value
import Shaderworks.Text.Quoting

set_option autoImplicit false

namespace Shaderworks.Json

/-! ### Problems -/

/-- What a reader found in the place of what it wanted. -/
inductive Found where
  /-- No value. -/
  | null
  /-- A truth value. -/
  | boolean (value : Bool)
  /-- A number. -/
  | number (value : Number)
  /-- A string. -/
  | text (value : String)
  /-- An array. -/
  | sequence
  /-- An object. -/
  | map
  deriving DecidableEq

/-- What was found, in words. -/
def Found.describe : Found → String
  | null => "null"
  | boolean value => "boolean `" ++ toString value ++ "`"
  | number (.integer value) => "integer `" ++ toString value ++ "`"
  | number (.real value) => "floating point `" ++ numberStyle.render value ++ "`"
  | text value => "string " ++ Text.quote value
  | sequence => "sequence"
  | map => "map"

/-- A value that a reader cannot use. -/
inductive Problem where
  /-- A value of another kind than the wanted one. -/
  | wrongKind (found : Found) (wanted : String)
  /-- A value of the wanted kind, but out of range. -/
  | wrongValue (found : Found) (wanted : String)
  /-- A field that was given before. -/
  | repeatedField (name : String)
  /-- A word that is none of the two known ones. -/
  | unknownWord (word first second : String)
  deriving DecidableEq

/-- The report of a problem. -/
def Problem.text : Problem → String
  | wrongKind found wanted => "invalid type: " ++ found.describe ++ ", expected " ++ wanted
  | wrongValue found wanted => "invalid value: " ++ found.describe ++ ", expected " ++ wanted
  | repeatedField name => "duplicate field `" ++ name ++ "`"
  | unknownWord word first second =>
      "unknown variant `" ++ word ++ "`, expected `" ++ first ++ "` or `" ++ second ++ "`"

/-- Why a text cannot be read. -/
inductive ReadError where
  /-- The text is not JSON. -/
  | fault (fault : Fault)
  /-- A value cannot be used. -/
  | problem (problem : Problem)
  deriving DecidableEq

/-- A function that takes a value from an outline. -/
abbrev Reader (α : Type) := Node → Except ReadError α

/-- The error of a fault. -/
def failed {α : Type} (fault : Fault) : Except ReadError α := .error (.fault fault)

/-- The error of a number that is too large, of nesting that is too deep and the like. -/
def refused {α : Type} : Except ReadError α := failed .malformed

/-- Nothing follows when the closing bracket stands where it should. -/
def Ending.check : Ending → Except ReadError Unit
  | closed => .ok ()
  | stopped fault => failed fault

/-! ### Strings and numbers -/

/-- The characters that pieces spell.  A leading surrogate needs a trailing one right after it, and
a trailing one a leading one before it. -/
def spell : List Piece → Option Fault → Except Fault (List Char)
  | [], none => .ok []
  | [], some fault => .error fault
  | .char c :: rest, fault => (spell rest fault).map (c :: ·)
  | .codeUnit u :: rest, fault =>
      if 0xDC00 ≤ u ∧ u ≤ 0xDFFF then .error .malformed
      else if 0xD800 ≤ u ∧ u ≤ 0xDBFF then
        match rest with
        | [] => .error (fault.getD .malformed)
        | .char _ :: _ => .error .malformed
        | .codeUnit v :: rest =>
            if 0xDC00 ≤ v ∧ v ≤ 0xDFFF then
              (spell rest fault).map
                (Char.ofNat (0x10000 + (u - 0xD800) * 1024 + (v - 0xDC00)) :: ·)
            else .error .malformed
      else (spell rest fault).map (Char.ofNat u :: ·)

/-- The string that a spelling stands for. -/
def Quoted.read (quoted : Quoted) : Except ReadError String :=
  match spell quoted.pieces quoted.fault with
  | .ok chars => .ok (String.ofList chars)
  | .error fault => failed fault

/-- The number that a numeral stands for. -/
def Numeral.read (numeral : Numeral) : Except ReadError Number :=
  match numeral.value? with
  | some value => .ok value
  | none => refused

/-- What a reader finds in a place where it wants something else.  Strings and numbers have to be
right in themselves; of arrays and objects only the bracket is looked at. -/
def find : Reader Found
  | .null => .ok .null
  | .boolean value => .ok (.boolean value)
  | .number numeral => numeral.read.map .number
  | .cutNumber => failed .truncated
  | .text quoted => quoted.read.map .text
  | .array _ _ => .ok .sequence
  | .object _ _ => .ok .map
  | .absent => failed .truncated
  | .broken fault => failed fault

/-- The error of a value that is not of the wanted kind. -/
def unwanted {α : Type} (wanted : String) (node : Node) : Except ReadError α :=
  match find node with
  | .ok found => .error (.problem (.wrongKind found wanted))
  | .error e => .error e

/-! ### Single values -/

/-- A string; `wanted` describes it in a report. -/
def readTextAs (wanted : String) : Reader String
  | .text quoted => quoted.read
  | node => unwanted wanted node

/-- A string. -/
def readText : Reader String := readTextAs "a string"

/-- A string, or no value. -/
def readOptional : Reader (Option String)
  | .null => .ok none
  | node => (readText node).map some

/-- A truth value. -/
def readBool : Reader Bool
  | .boolean value => .ok value
  | node => unwanted "a boolean" node

/-- A whole number that is not negative. -/
def readCount : Reader Nat
  | .number numeral =>
      match numeral.read with
      | .error e => .error e
      | .ok (.integer value) =>
          if 0 ≤ value then .ok value.toNat
          else .error (.problem (.wrongValue (.number (.integer value)) "usize"))
      | .ok (.real value) => .error (.problem (.wrongKind (.number (.real value)) "usize"))
  | node => unwanted "usize" node

/-- Reads the items of an array one after another. -/
def readItems {α : Type} (read : Reader α) : List Node → Ending → Except ReadError (List α)
  | [], ending => ending.check.map fun _ => []
  | item :: rest, ending =>
      match read item with
      | .error e => .error e
      | .ok value => (readItems read rest ending).map (value :: ·)

/-- An array of values. -/
def readList {α : Type} (read : Reader α) : Reader (List α)
  | .array items ending => readItems read items ending
  | node => unwanted "a sequence" node

/-- The string in the place of a key. -/
def readKey : Reader String
  | .text quoted => quoted.read
  | .absent => failed .truncated
  | _ => refused

/-- No value, where a report wants a unit. -/
def readUnit : Reader Unit
  | .null => .ok ()
  | node => unwanted "unit" node

/-- One of two words, as a string or as the key of an object whose only value is null. -/
def readWord {α : Type} (first second : String) (firstValue secondValue : α) : Reader α
  | .text quoted => quoted.read.bind choose
  | .object [] ending => ending.check.bind fun _ => refused
  | .object ((key, value) :: rest) ending => do
      let chosen ← (readKey key).bind choose
      readUnit value
      match rest with
      | [] => ending.check
      | _ :: _ => refused
      return chosen
  | .absent => failed .truncated
  | _ => refused
where
  /-- The meaning of a word. -/
  choose (word : String) : Except ReadError α :=
    if word = first then .ok firstValue
    else if word = second then .ok secondValue
    else .error (.problem (.unknownWord word first second))

/-! ### Any value -/

mutual

/-- Any value, with at most `depth` arrays and objects inside one another. -/
def readValue (depth : Nat) : Node → Except ReadError Value
  | .null => .ok .null
  | .boolean value => .ok (.boolean value)
  | .number numeral => numeral.read.map .number
  | .cutNumber => failed .truncated
  | .text quoted => quoted.read.map .text
  | .array items ending =>
      if depth = 0 then refused else (readValues (depth - 1) items ending).map .array
  | .object members ending =>
      if depth = 0 then refused else (readEntries (depth - 1) members ending).map .ofMembers
  | .absent => failed .truncated
  | .broken fault => failed fault

/-- The items of an array. -/
def readValues (depth : Nat) : List Node → Ending → Except ReadError (List Value)
  | [], ending => ending.check.map fun _ => []
  | item :: rest, ending =>
      match readValue depth item with
      | .error e => .error e
      | .ok value => (readValues depth rest ending).map (value :: ·)

/-- The members of an object. -/
def readEntries (depth : Nat) :
    List (Node × Node) → Ending → Except ReadError (List (String × Value))
  | [], ending => ending.check.map fun _ => []
  | (key, item) :: rest, ending =>
      match readKey key with
      | .error e => .error e
      | .ok name =>
          match readValue depth item with
          | .error e => .error e
          | .ok value => (readEntries depth rest ending).map ((name, value) :: ·)

end

mutual

/-- Passes over a value that nobody wants.  Only its shape has to be right: numbers may be too
large, surrogates unpaired, and nesting is not limited. -/
def skip : Node → Except ReadError Unit
  | .null => .ok ()
  | .boolean _ => .ok ()
  | .number _ => .ok ()
  | .cutNumber => refused
  | .text quoted =>
      match quoted.fault with
      | none => .ok ()
      | some fault => failed fault
  | .array items ending => skipItems items ending
  | .object members ending => skipMembers members ending
  | .absent => failed .truncated
  | .broken fault => failed fault

/-- Passes over the items of an array. -/
def skipItems : List Node → Ending → Except ReadError Unit
  | [], ending => ending.check
  | item :: rest, ending =>
      match skip item with
      | .error e => .error e
      | .ok () => skipItems rest ending

/-- Passes over the members of an object. -/
def skipMembers : List (Node × Node) → Ending → Except ReadError Unit
  | [], ending => ending.check
  | (key, item) :: rest, ending =>
      match skipKey key with
      | .error e => .error e
      | .ok () =>
          match skip item with
          | .error e => .error e
          | .ok () => skipMembers rest ending

/-- Passes over what stands in the place of a key. -/
def skipKey : Node → Except ReadError Unit
  | .text quoted =>
      match quoted.fault with
      | none => .ok ()
      | some fault => failed fault
  | .absent => failed .truncated
  | _ => refused

end

/-! ### Records and maps -/

/-- A field of a record: its name, and how its value changes the record. -/
structure RecordField (α : Type) where
  /-- The name of the field. -/
  name : String
  /-- The record with the value of the field. -/
  put : Node → α → Except ReadError α

/-- The field that holds what a reader takes. -/
def RecordField.of {α β : Type} (name : String) (read : Reader β) (put : α → β → α) :
    RecordField α where
  name := name
  put node record := (read node).map (put record)

/-- Reads the members of a record, each field at most once; `given` lists the fields so far, and
`other` is handed the members that are no fields. -/
def readNamed {α : Type} (fields : List (RecordField α))
    (other : String → Node → α → Except ReadError α) :
    (given : List String) → List (Node × Node) → Ending → α → Except ReadError α
  | _, [], ending, record => ending.check.map fun _ => record
  | given, (key, value) :: rest, ending, record =>
      match readKey key with
      | .error e => .error e
      | .ok name =>
          match fields.find? fun field => field.name == name with
          | none =>
              match other name value record with
              | .error e => .error e
              | .ok record => readNamed fields other given rest ending record
          | some field =>
              if name ∈ given then .error (.problem (.repeatedField name))
              else
                match field.put value record with
                | .error e => .error e
                | .ok record => readNamed fields other (name :: given) rest ending record

/-- Reads the fields of a record in their order; fields at the end may be missing. -/
def readPlaced {α : Type} : List (RecordField α) → List Node → Ending → α → Except ReadError α
  | _, [], ending, record => ending.check.map fun _ => record
  | [], _ :: _, _, _ => refused
  | field :: fields, value :: rest, ending, record =>
      match field.put value record with
      | .error e => .error e
      | .ok record => readPlaced fields rest ending record

/-- Passes over a member that is no field of a record. -/
def ignoreMember {α : Type} (_name : String) (value : Node) (record : α) : Except ReadError α :=
  (skip value).map fun _ => record

/-- A record given by named members, or by its fields in their order.  Fields that are not given
keep the values of `start`. -/
def readRecord {α : Type} (wanted : String) (fields : List (RecordField α)) (start : α) : Reader α
  | .object members ending => readNamed fields ignoreMember [] members ending start
  | .array items ending => readPlaced fields items ending start
  | node => unwanted wanted node

/-- Reads the members of an object with arbitrary keys. -/
def readPairs {α : Type} (read : Reader α) :
    List (Node × Node) → Ending → Except ReadError (List (String × α))
  | [], ending => ending.check.map fun _ => []
  | (key, item) :: rest, ending =>
      match readKey key with
      | .error e => .error e
      | .ok name =>
          match read item with
          | .error e => .error e
          | .ok value => (readPairs read rest ending).map ((name, value) :: ·)

/-- An object with arbitrary keys, the last member of a key counting. -/
def readMap {α : Type} (read : Reader α) : Reader (NameMap α)
  | .object members ending => (readPairs read members ending).map NameMap.ofList
  | node => unwanted "a map" node

/-- Reads a text that holds one value and, spaces apart, nothing else. -/
def readDocument {α : Type} (read : Reader α) (text : String) : Except ReadError α :=
  let (node, rest) := outline text.toList
  match read node with
  | .error e => .error e
  | .ok value => if (dropSpace rest).isEmpty then .ok value else refused

/-- A string is read as what it spells. -/
theorem readText_text (quoted : Quoted) : readText (.text quoted) = quoted.read := rfl

end Shaderworks.Json
