import GrammarBench.Text.Letter

/-!
# Lines

* `universal`: the three line endings become newlines when a text file is read.
* `newlines`, `afterLastNewline`: what the place behind a text is computed from.
* `trim`, `firstLine?`: the first line of a message.
* `splitNewlines`: a text cut at its newlines.
* `around`: the piece of a line about a place in a text, with a mark below.
-/

namespace GrammarBench.Text

/-- A carriage return with the newline after it, and any other carriage return, become a newline. -/
def universal : List Char → List Char
  | [] => []
  | '\r' :: '\n' :: r => '\n' :: universal r
  | '\r' :: r => '\n' :: universal r
  | c :: r => c :: universal r

/-- How many newlines a text has. -/
def newlines (s : List Char) : Nat := s.count '\n'

/-- The part of a text behind its last newline, all of it when there is none. -/
def afterLastNewline (s : List Char) : List Char :=
  (s.reverse.takeWhile (· ≠ '\n')).reverse

theorem newlines_append (s t : List Char) : newlines (s ++ t) = newlines s + newlines t :=
  List.count_append

theorem newlines_eq_zero {s : List Char} : newlines s = 0 ↔ '\n' ∉ s := List.count_eq_zero

theorem afterLastNewline_append {t : List Char} (h : newlines t = 0) (s : List Char) :
    afterLastNewline (s ++ t) = afterLastNewline s ++ t := by
  have hall : ∀ c ∈ t.reverse, decide (c ≠ '\n') = true := by
    intro c hc
    rw [newlines_eq_zero] at h
    exact decide_eq_true fun heq => h (heq ▸ List.mem_reverse.mp hc)
  simp only [afterLastNewline, List.reverse_append]
  rw [List.takeWhile_append_of_pos hall, List.reverse_append, List.reverse_reverse]

theorem afterLastNewline_append_of_newline {t : List Char} (h : newlines t ≠ 0) (s : List Char) :
    afterLastNewline (s ++ t) = afterLastNewline t := by
  have hmem : '\n' ∈ t := by
    rw [Ne, newlines_eq_zero] at h
    exact Decidable.not_not.mp h
  have hstops : (t.reverse.takeWhile fun c => decide (c ≠ '\n')).length ≠ t.reverse.length := by
    intro heq
    have hall := List.all_takeWhile (p := fun c => decide (c ≠ '\n')) (l := t.reverse)
    rw [(List.takeWhile_prefix _).eq_of_length heq, List.all_eq_true] at hall
    simpa using hall '\n' (List.mem_reverse.mpr hmem)
  simp only [afterLastNewline, List.reverse_append]
  rw [List.takeWhile_append, if_neg hstops]

/-- The characters that end a line of a message. -/
def endsLine (c : Char) : Bool :=
  c = '\n' || c = '\r' || c = '\x0b' || c = '\x0c' || c = '\x1c' || c = '\x1d' || c = '\x1e' ||
    c = '\u0085' || c = '\u2028' || c = '\u2029'

/-- White space taken from both ends. -/
def trim (s : List Char) : List Char :=
  ((s.dropWhile isBlank).reverse.dropWhile isBlank).reverse

/-- The first line of a text, `none` when nothing but white space is in it. -/
def firstLine? (s : String) : Option String :=
  match trim s.toList with
  | [] => none
  | t => some (String.ofList (t.takeWhile (!endsLine ·)))

/-- The pieces of a text between the newlines, always one more than there are newlines. -/
def splitNewlines : List Char → List (List Char)
  | [] => [[]]
  | '\n' :: r => [] :: splitNewlines r
  | c :: r =>
    match splitNewlines r with
    | [] => [[c]]
    | l :: ls => (c :: l) :: ls

/-- Tabs replaced by blanks up to the next multiple of eight columns. -/
def expandTabs (s : List Char) : List Char :=
  (s.foldl (fun (column, out) c =>
    if c = '\t' then
      let n := 8 - column % 8
      (column + n, List.replicate n ' ' ++ out)
    else if c = '\n' || c = '\r' then (0, c :: out)
    else (column + 1, c :: out)) (0, ([] : List Char))).2.reverse

/-- The line about a place, forty characters to each side at most, with a mark under the place. -/
def around (text : List Char) (place : Nat) : String :=
  let before := afterLastNewline ((text.take place).drop (place - 40))
  let after := ((text.drop place).take 40).takeWhile (· ≠ '\n')
  String.ofList
    (before ++ after ++ '\n' :: List.replicate (expandTabs before).length ' ' ++ ['^', '\n'])

end GrammarBench.Text
