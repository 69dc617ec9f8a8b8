/-!
# Escaping white space

Token lines and tree dumps stay on one line: a newline, a carriage return and a tab are written as a
backslash and a letter, and every other character as it is.

* `replaceChar`, `escapeInTurn`: the three replacements, one after the other.
* `escape`: the written form of a text.
* `escapeChar`, `escapeList`: the same with each character on its own.
-/

namespace GrammarBench.Text

/-- Every occurrence of one character replaced by a text. -/
def replaceChar (old : Char) (new : List Char) (s : List Char) : List Char :=
  s.flatMap fun c => if c = old then new else [c]

/-- Newlines first, then carriage returns, then tabs. -/
def escapeInTurn (s : List Char) : List Char :=
  replaceChar '\t' ['\\', 't'] (replaceChar '\r' ['\\', 'r'] (replaceChar '\n' ['\\', 'n'] s))

/-- The written form of a text. -/
def escape (s : String) : String := String.ofList (escapeInTurn s.toList)

/-- The written form of one character. -/
def escapeChar : Char → List Char
  | '\n' => ['\\', 'n']
  | '\r' => ['\\', 'r']
  | '\t' => ['\\', 't']
  | c => [c]

/-- The characters of a text, each on its own. -/
def escapeList (s : List Char) : List Char := s.flatMap escapeChar

theorem escapeList_cons (c : Char) (s : List Char) : escapeList (c :: s) = escapeChar c ++ escapeList s :=
  List.flatMap_cons

theorem escapeList_append (a b : List Char) :
    escapeList (a ++ b) = escapeList a ++ escapeList b := by
  simp [escapeList, List.flatMap_append]

theorem escapeChar_of_ne {c : Char} (hnewline : c ≠ '\n') (hreturn : c ≠ '\r') (htab : c ≠ '\t') :
    escapeChar c = [c] := by
  rw [escapeChar] <;> assumption

theorem replaceChar_append (old : Char) (new a b : List Char) :
    replaceChar old new (a ++ b) = replaceChar old new a ++ replaceChar old new b :=
  List.flatMap_append

theorem replaceChar_of_ne {old c : Char} (h : c ≠ old) (new : List Char) : replaceChar old new [c] = [c] := by
  simp [replaceChar, h]

theorem escapeInTurn_append (a b : List Char) :
    escapeInTurn (a ++ b) = escapeInTurn a ++ escapeInTurn b := by
  simp only [escapeInTurn, replaceChar_append]

theorem escapeInTurn_singleton (c : Char) : escapeInTurn [c] = escapeChar c := by
  unfold escapeChar
  split
  iterate 3 rfl
  next hnewline hreturn htab =>
    rw [escapeInTurn, replaceChar_of_ne hnewline, replaceChar_of_ne hreturn, replaceChar_of_ne htab]

/-- No replacement finds anything to replace in what an earlier one has written. -/
theorem escapeInTurn_eq (s : List Char) : escapeInTurn s = escapeList s := by
  induction s with
  | nil => rfl
  | cons c s ih =>
    calc escapeInTurn (c :: s)
      _ = escapeInTurn [c] ++ escapeInTurn s := escapeInTurn_append [c] s
      _ = escapeChar c ++ escapeList s := by rw [escapeInTurn_singleton, ih]
      _ = escapeList (c :: s) := (escapeList_cons c s).symm

theorem toList_escape (s : String) : (escape s).toList = escapeList s.toList := by
  rw [escape, String.toList_ofList, escapeInTurn_eq]

end GrammarBench.Text
