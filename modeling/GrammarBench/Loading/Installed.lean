import GrammarBench.World

/-!
# Installed modules

The modules that can always be imported. What they hold does not matter, but for the classes that lexers
and parsers are derived from.

* `Installed.find?`: the module of a name.
-/

namespace GrammarBench.Loading.Installed

/-- Modules without parts. -/
def plain : List String :=
  ["abc", "argparse", "ast", "base64", "bisect", "builtins", "calendar", "contextlib", "copy", "csv",
   "dataclasses", "datetime", "decimal", "enum", "fnmatch", "fractions", "functools", "glob", "hashlib",
   "heapq", "inspect", "io", "itertools", "keyword", "math", "operator", "os", "os.path", "pathlib",
   "pickle", "pprint", "queue", "random", "shutil", "socket", "statistics", "string", "struct",
   "subprocess", "sys", "tempfile", "textwrap", "threading", "time", "token", "tokenize", "traceback",
   "types", "typing", "uuid", "warnings", "weakref"]

/-- Modules with parts. -/
def packages : List String :=
  ["asyncio", "collections", "collections.abc", "concurrent", "concurrent.futures", "email", "html",
   "http", "importlib", "importlib.util", "json", "json.decoder", "json.encoder", "lark", "logging",
   "multiprocessing", "re", "rich", "unittest", "urllib", "urllib.parse", "xml", "grunpy", "grunpy.lark"]

/-- The parts of the bench itself, with the classes that they define. -/
def own : List (String × List (String × Bound)) :=
  [("grunpy.config", []), ("grunpy.errors", []), ("grunpy.formatter", []), ("grunpy.harness", []),
   ("grunpy.invoker", []), ("grunpy.lexer", [("Lexer", .type Class.lexer)]), ("grunpy.loader", []),
   ("grunpy.main", []), ("grunpy.parser", [("Parser", .type Class.parser)]), ("grunpy.render", []),
   ("grunpy.resolver", []), ("grunpy.tokens", []),
   ("grunpy.lark.lex", [("LarkLexer", .type Class.grammarLexer), ("Lexer", .type Class.lexer)]),
   ("grunpy.lark.parse", [("LarkParser", .type Class.grammarParser), ("Parser", .type Class.parser)])]

/-- The module of a name, if it is always there. -/
def find? (name : String) : Option Module :=
  if plain.contains name then some { name := name }
  else if packages.contains name then some { name := name, parts := some [] }
  else (own.lookup name).map fun names => { name := name, names := names }

end GrammarBench.Loading.Installed
