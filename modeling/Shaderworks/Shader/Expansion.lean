/-
**Expansion of includes.**

Before a shader is compiled, each include directive is replaced by the text of the file it names,
between two comment lines that mark where the file begins and ends.  The file's own directives are
expanded too.  Within one shader a file is expanded once: a later directive for it becomes a
comment.  A directive for a file that the pack does not hold is an error, and so is nesting beyond
a limit.

Main definitions:

* `IncludeFault` — the two reasons why an expansion fails;
* `expandLines`, `expandFile` — the expanded lines, together with the paths expanded so far;
* `expand` — the expanded text of a source.

Main results:

* `expandLines_plain`, `expandLines_repeated`, `expandLines_missing`, `expandLines_nested` — what
  becomes of one line in each of the four cases.
-/

import Shaderworks.Shader.Include

set_option autoImplicit false

namespace Shaderworks

namespace Shader

open Text

/-- Why an expansion fails. -/
inductive IncludeFault where
  /-- A directive asks for a path that has no text; `line` counts from one in the text of
`origin`. -/
  | notFound (path origin : String) (line : Nat)
  /-- The text of `path` is nested deeper than `limit` levels. -/
  | tooDeep (path : String) (limit : Nat)
  deriving DecidableEq

/-- Expanded lines, and the paths expanded so far, latest first. -/
structure Expanded where
  /-- The expanded lines. -/
  out : List (List Char)
  /-- The paths expanded so far, latest first. -/
  seen : List String
  deriving DecidableEq

/-- The comment line where the text of a file begins. -/
def beginLine (path : List Char) : List Char := "// BEGIN INCLUDE ".toList ++ path

/-- The comment line where the text of a file ends. -/
def endLine (path : List Char) : List Char := "// END INCLUDE ".toList ++ path

/-- The comment line in the stead of a directive for a file that was expanded before. -/
def repeatedLine (line : List Char) : List Char :=
  "// ".toList ++ line ++ " [already included]".toList

/-- Expands the lines of `origin` from line number `n` on; `nested` expands the lines of a file that
is included by one of them. -/
def expandLines (sources : Sources)
    (nested : String → List (List Char) → List String → Except IncludeFault Expanded)
    (origin : String) : Nat → List (List Char) → List String → Except IncludeFault Expanded
  | _, [], seen => .ok ⟨[], seen⟩
  | n, line :: rest, seen =>
      match includePath? line with
      | none => do
          let after ← expandLines sources nested origin (n + 1) rest seen
          return ⟨line :: after.out, after.seen⟩
      | some path =>
          if String.ofList path ∈ seen then do
            let after ← expandLines sources nested origin (n + 1) rest seen
            return ⟨repeatedLine line :: after.out, after.seen⟩
          else
            match sources.get? (String.ofList path) with
            | none => .error (.notFound (String.ofList path) origin n)
            | some text => do
                let inner ← nested (String.ofList path) (lines text.toList)
                  (String.ofList path :: seen)
                let after ← expandLines sources nested origin (n + 1) rest inner.seen
                return ⟨beginLine path :: inner.out ++ endLine path :: after.out, after.seen⟩

/-- Expands the lines of `origin` when `levels` levels of nesting are left, itself counted. -/
def expandFile (sources : Sources) (limit : Nat) :
    Nat → String → List (List Char) → List String → Except IncludeFault Expanded
  | 0, origin, _, _ => .error (.tooDeep origin limit)
  | levels + 1, origin, ls, seen =>
      expandLines sources (expandFile sources limit levels) origin 1 ls seen

/-- The expanded text of a source.  Includes may nest `limit` levels below it; `origin` names the
source in errors. -/
def expand (sources : Sources) (limit : Nat) (source origin : String) :
    Except IncludeFault String :=
  (expandFile sources limit (limit + 1) origin (lines source.toList) []).map fun e =>
    String.ofList (unlines e.out)

/-! ### One line at a time -/

section Steps

variable {sources : Sources}
  {nested : String → List (List Char) → List String → Except IncludeFault Expanded}
  {origin : String} {n : Nat} {line : List Char} {rest : List (List Char)} {seen : List String}

/-- A line that is no directive is kept. -/
theorem expandLines_plain (h : includePath? line = none) :
    expandLines sources nested origin n (line :: rest) seen =
      (expandLines sources nested origin (n + 1) rest seen).map fun after =>
        ⟨line :: after.out, after.seen⟩ := by
  rw [expandLines, h]
  cases expandLines sources nested origin (n + 1) rest seen <;> rfl

/-- A directive for a file that was expanded before becomes a comment. -/
theorem expandLines_repeated {path : List Char} (h : includePath? line = some path)
    (hseen : String.ofList path ∈ seen) :
    expandLines sources nested origin n (line :: rest) seen =
      (expandLines sources nested origin (n + 1) rest seen).map fun after =>
        ⟨repeatedLine line :: after.out, after.seen⟩ := by
  rw [expandLines, h]
  simp only [hseen, if_true]
  cases expandLines sources nested origin (n + 1) rest seen <;> rfl

/-- A directive for a new path without text is an error that names the line. -/
theorem expandLines_missing {path : List Char} (h : includePath? line = some path)
    (hseen : String.ofList path ∉ seen) (hnone : sources.get? (String.ofList path) = none) :
    expandLines sources nested origin n (line :: rest) seen =
      .error (.notFound (String.ofList path) origin n) := by
  rw [expandLines, h]
  simp only [hseen, if_false, hnone]

/-- A directive for a new path becomes the expanded text of the file between its two marks. -/
theorem expandLines_nested {path : List Char} {text : String} (h : includePath? line = some path)
    (hseen : String.ofList path ∉ seen) (hsome : sources.get? (String.ofList path) = some text) :
    expandLines sources nested origin n (line :: rest) seen =
      (nested (String.ofList path) (lines text.toList) (String.ofList path :: seen)).bind
        fun inner => (expandLines sources nested origin (n + 1) rest inner.seen).map fun after =>
          ⟨beginLine path :: inner.out ++ endLine path :: after.out, after.seen⟩ := by
  rw [expandLines, h]
  simp only [hseen, if_false, hsome]
  cases nested (String.ofList path) (lines text.toList) (String.ofList path :: seen) with
  | error e => rfl
  | ok inner =>
      simp only [bind, Except.bind]
      cases expandLines sources nested origin (n + 1) rest inner.seen <;> rfl

end Steps

end Shader

end Shaderworks
