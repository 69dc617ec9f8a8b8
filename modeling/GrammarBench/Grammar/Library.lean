import GrammarBench.Failure

/-!
# The library of terminals

The grammar of common terminals that every grammar can import from.

* `commonText`: its text.
* `Library.find?`: the text of a grammar of the library.
-/

namespace GrammarBench.Grammar

/-- Numbers, names, strings, white space and comments. -/
def commonText : String :=
"//
// Numbers
//

DIGIT: \"0\"..\"9\"
HEXDIGIT: \"a\"..\"f\"|\"A\"..\"F\"|DIGIT

INT: DIGIT+
SIGNED_INT: [\"+\"|\"-\"] INT
DECIMAL: INT \".\" INT? | \".\" INT

// float = /-?\\d+(\\.\\d+)?([eE][+-]?\\d+)?/
_EXP: (\"e\"|\"E\") SIGNED_INT
FLOAT: INT _EXP | DECIMAL _EXP?
SIGNED_FLOAT: [\"+\"|\"-\"] FLOAT

NUMBER: FLOAT | INT
SIGNED_NUMBER: [\"+\"|\"-\"] NUMBER

//
// Strings
//
_STRING_INNER: /.*?/
_STRING_ESC_INNER: _STRING_INNER /(?<!\\\\)(\\\\\\\\)*?/

ESCAPED_STRING : \"\\\"\" _STRING_ESC_INNER \"\\\"\"


//
// Names (Variables)
//
LCASE_LETTER: \"a\"..\"z\"
UCASE_LETTER: \"A\"..\"Z\"

LETTER: UCASE_LETTER | LCASE_LETTER
WORD: LETTER+

CNAME: (\"_\"|LETTER) (\"_\"|LETTER|DIGIT)*


//
// Whitespace
//
WS_INLINE: (\" \"|/\\t/)+
WS: /[ \\t\\f\\r\\n]/+

CR : /\\r/
LF : /\\n/
NEWLINE: (CR? LF)+

// Comments
SH_COMMENT: /#[^\\n]*/
CPP_COMMENT: /\\/\\/[^\\n]*/
C_COMMENT: \"/*\" /(.|\\n)*?/ \"*/\"
SQL_COMMENT: /--[^\\n]*/
"

/-- Where grammar texts are found: the text of a file, by its path, or the failure of reading it. -/
abbrev Files := String → Option (Except Failure String)

/-- Where imported grammars are looked for: in directories, then in the library. -/
structure Shelf where
  files : Files := fun _ => none
  directories : List String := []

/-- The text of the grammar of the library with a path. -/
def libraryText? (path : String) : Option String :=
  if path = "common.lark" then some commonText else none

end GrammarBench.Grammar
