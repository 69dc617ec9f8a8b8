import GrammarBench.Module.Member

/-!
# Classes

A class is a list of layers, its own first and then those that it is derived from, in the order in which
names are looked up.

* `Class.order`: the layers of a class with several bases: every layer stands before those it is derived
  from, and bases keep their order.
* `Class.member?`: the member under a name, from the first layer that has one.
* `Class.derive`: a new class.
-/

namespace GrammarBench

structure Layer where
  /-- Tells layers of the same name apart. -/
  id : Nat
  name : String
  /-- The name of the module that the class says it belongs to. -/
  home : String
  members : List (String × Member) := []
  language : Option Grammar.Language := none
  /-- Whether functions that derived classes have to define are watched. -/
  watched : Bool := false
  /-- The names of the functions that are still to be defined. -/
  missing : List String := []

namespace Layer

def root : Layer := { id := 0, name := "object", home := "builtins" }

def watch : Layer := { id := 1, name := "ABC", home := "abc", watched := true }

def lexer : Layer :=
  { id := 2, name := "Lexer", home := "grunpy.lexer", watched := true, missing := ["tokenize"]
    members :=
      [("symbolic_names", .value (.list [])), ("grammar_name", .value .null),
       ("tokenize", .missing)] }

def parser : Layer :=
  { id := 3, name := "Parser", home := "grunpy.parser", watched := true
    members := [("rules", .table []), ("grammar_name", .value .null)] }

def grammarLexer : Layer :=
  { id := 4, name := "LarkLexer", home := "grunpy.lark.lex", watched := true
    members := [("hidden", .value (.list [])), ("tokenize", .lexing .grammar)] }

def grammarParser : Layer :=
  { id := 5, name := "LarkParser", home := "grunpy.lark.parse", watched := true
    members := [("symbolic_names", .value (.list [])), ("rules", .table [])] }

/-- The first number for a layer that is not one of those above. -/
def firstFree : Nat := 6

end Layer

structure Class where
  own : Layer
  /-- The layers behind the own one. -/
  behind : List Layer := []

namespace Class

def layers (c : Class) : List Layer := c.own :: c.behind

def root : Class := ⟨Layer.root, []⟩
def watch : Class := ⟨Layer.watch, [Layer.root]⟩
def lexer : Class := ⟨Layer.lexer, watch.layers⟩
def parser : Class := ⟨Layer.parser, watch.layers⟩
def grammarLexer : Class := ⟨Layer.grammarLexer, lexer.layers⟩
def grammarParser : Class := ⟨Layer.grammarParser, parser.layers⟩

def name (c : Class) : String := c.own.name

def home (c : Class) : String := c.own.home

def hasLayer (c : Class) (id : Nat) : Bool := c.layers.any (·.id = id)

def isLexer (c : Class) : Bool := c.hasLayer Layer.lexer.id

def isParser (c : Class) : Bool := c.hasLayer Layer.parser.id

def isAbstract (c : Class) : Bool := !c.own.missing.isEmpty

/-- The first of the layers that has a member under a name. -/
def memberOf? (layers : List Layer) (name : String) : Option Member :=
  layers.findSome? fun l => Ordered.find? name l.members

def member? (c : Class) (name : String) : Option Member := memberOf? c.layers name

/-- The grammar that the class or one of its bases was built from. -/
def language? (c : Class) : Option Grammar.Language := c.layers.findSome? (·.language)

/-! ## Order of layers -/

/-- The first head of the lists that stands in no tail. -/
def nextHead? (lists : List (List Layer)) : Option Layer :=
  lists.findSome? fun l =>
    l.head?.filter fun h => lists.all fun l => l.tail.all (·.id ≠ h.id)

/-- A list without a layer at its head. -/
def dropHead (h : Layer) (l : List Layer) : List Layer :=
  if l.head?.any (·.id = h.id) then l.tail else l

/-- Takes one head after the other off the lists, `none` with the lists that are left when no head can be
taken. -/
def mergeLayers : Nat → List (List Layer) → Except (List (List Layer)) (List Layer)
  | 0, lists => .error lists
  | rounds + 1, lists =>
    let lists := lists.filter (!·.isEmpty)
    if lists.isEmpty then .ok []
    else match nextHead? lists with
      | none => .error lists
      | some h => (mergeLayers rounds (lists.map (dropHead h))).map (h :: ·)

def distinct (layers : List Layer) : List Layer :=
  layers.foldl (fun seen l => if seen.any (·.id = l.id) then seen else seen ++ [l]) []

def refuse {α : Type} (message : String) : Except Failure α := .error (.fault .type message)

/-- The first class of a list that stands in it twice. -/
def repeated? : List Class → Option Class
  | [] => none
  | c :: rest => if rest.any (·.own.id = c.own.id) then some c else repeated? rest

/-- The layers behind the own one of a class with some bases: every layer stands before those it is
derived from, and the bases keep their order. -/
def order (bases : List Class) : Except Failure (List Layer) :=
  match repeated? bases with
  | some c => refuse ("duplicate base class " ++ c.name)
  | none =>
    let lists := bases.map layers ++ [bases.map (·.own)]
    match mergeLayers (lists.flatten.length + 1) lists with
    | .ok layers => .ok layers
    | .error left =>
      let heads := distinct (left.filterMap List.head?)
      refuse ("Cannot create a consistent method resolution\norder (MRO) for bases " ++
        ", ".intercalate (heads.map (·.name)))

/-! ## New classes -/

/-- The names of the functions that a class has still to define: its own missing ones and those of its
bases for which the look-up still finds a missing one. -/
def missingIn (bases : List Class) (members : List (String × Member)) (layers : List Layer) :
    List String :=
  let own := (members.filter (·.2.isMissing)).map (·.1)
  let inherited := (bases.flatMap (·.own.missing)).filter fun n =>
    (memberOf? layers n).any Member.isMissing
  (own ++ inherited).eraseDups

/-- A class that starts with a layer of its own before those of its bases. -/
def derive (own : Layer) (bases : List Class) : Except Failure Class := do
  let bases := if bases.isEmpty then [root] else bases
  let behind ← order bases
  let watched := behind.any (·.watched)
  let missing := if watched then missingIn bases own.members (own :: behind) else []
  return ⟨{ own with watched := watched, missing := missing }, behind⟩

/-- The failure of making an instance of a class with functions that are still to be defined. -/
def checkComplete (c : Class) : Except Failure Unit :=
  match Report.sorted c.own.missing with
  | [] => .ok ()
  | [one] =>
    refuse ("Can't instantiate abstract class " ++ c.name ++ " with abstract method " ++ one)
  | several =>
    refuse ("Can't instantiate abstract class " ++ c.name ++ " with abstract methods " ++
      ", ".intercalate several)

end Class

end GrammarBench
