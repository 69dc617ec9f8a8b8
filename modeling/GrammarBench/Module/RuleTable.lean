import GrammarBench.Module.Class

/-!
# Rule tables

Every parser class has a table of its rules: the table it inherits or sets, and behind it the marked
functions of its own; a function under the name of a rule replaces that rule in its place.

* `Class.withTable`: a class with its table worked out.
* `Class.ruleNames`: the names of the rules of a class.
* `Class.rule`: what stands under the name of a rule.
-/

namespace GrammarBench

abbrev RuleTable := List (String × Entry)

namespace RuleTable

def notIterable {α : Type} (typeName : String) : Except Failure α :=
  .error (.fault .type ("'" ++ typeName ++ "' object is not iterable"))

/-- The pieces of a value that can be taken apart. -/
def pieces? : Value → Option (List Value)
  | .list items => some items
  | .text s => some (s.toList.map fun c => .text (String.singleton c))
  | .dict entries => some (entries.map fun e => .text e.1)
  | _ => none

/-- The entry that a pair in a list stands for. -/
def pairOf (place : Nat) (v : Value) : Except Failure (String × Entry) :=
  match pieces? v with
  | none =>
    .error (.fault .type ("cannot convert dictionary update sequence element #" ++ toString place ++
      " to a sequence"))
  | some [.list _, _] => .error (.fault .type "unhashable type: 'list'")
  | some [.dict _, _] => .error (.fault .type "unhashable type: 'dict'")
  | some [key, value] => .ok (key.shown, .value value)
  | some items =>
    .error (.fault .value ("dictionary update sequence element #" ++ toString place ++ " has length " ++
      toString items.length ++ "; 2 is required"))

/-- The entries that a value stands for where a table is expected. -/
def ofValue (v : Value) : Except Failure RuleTable :=
  match v, pieces? v with
  | .dict entries, _ => .ok (entries.map fun (k, v) => (k, .value v))
  | v, none => notIterable v.typeName
  | _, some items => do
    return Ordered.ofList (← items.zipIdx.mapM fun (v, i) => pairOf i v)

/-- The table that a class finds under the name for it. -/
def ofMember : Member → Except Failure RuleTable
  | .table entries => .ok entries
  | .value v => ofValue v
  | m => notIterable m.typeName

/-- What can be called under a name of a class, with the path to it. -/
def callable? (owner name : String) : Member → Option Entry
  | .function _ f => some (.function f (owner ++ "." ++ name))
  | .missing => some (.function ⟨{}, .fail (.fault .notImplemented "")⟩ (owner ++ "." ++ name))
  | .lexing _ => some (.function ⟨{}, .give (.plain "generator" [])⟩ (owner ++ "." ++ name))
  | .value _ | .table _ => none

/-- The table with one member of a class taken into account: what can be called is entered if it is marked
as a rule or stands under the name of one. -/
def enter (owner : String) (table : RuleTable) (member : String × Member) : RuleTable :=
  match callable? owner member.1 member.2 with
  | some e =>
    if member.2.isMarked || (Ordered.find? member.1 table).isSome then Ordered.insert member.1 e table
    else table
  | none => table

/-- The table with the members of a class taken into account. -/
def extended (table : RuleTable) (owner : String) (members : List (String × Member)) : RuleTable :=
  members.foldl (enter owner) table

/-- The entries of a table that a class sets, with the paths of their functions. -/
def located (owner name : String) (entries : RuleTable) : RuleTable :=
  entries.map fun (key, e) =>
    (key, match e with
      | .function f _ => .function f (owner ++ "." ++ name ++ "." ++ key)
      | e => e)

end RuleTable

namespace Class

/-- The name under which the table of rules stands. -/
def tableName : String := "rules"

/-- A parser class with its table worked out; other classes stay as they are. -/
def withTable (c : Class) : Except Failure Class :=
  if c.isParser then do
    let table ← RuleTable.ofMember ((c.member? tableName).getD (.table []))
    let members :=
      Ordered.insert tableName (.table (table.extended c.name c.own.members)) c.own.members
    return { c with own := { c.own with members := members } }
  else .ok c

/-- A member that knows the paths of the functions in its table, if it is one. -/
def locatedMember (owner name : String) : Member → Member
  | .table entries => .table (RuleTable.located owner name entries)
  | m => m

/-- A layer that knows the paths of the functions in its tables. -/
def located (own : Layer) : Layer :=
  { own with members := own.members.map fun (name, m) => (name, locatedMember own.name name m) }

/-- A new class with its table worked out. -/
def define (own : Layer) (bases : List Class) : Except Failure Class := do
  (← derive (located own) bases).withTable

def ruleNames (c : Class) : Except Failure (List String) :=
  match c.isParser, c.member? tableName with
  | true, some (.table entries) => .ok (entries.map (·.1))
  | _, _ =>
    .error (.fault .member ("type object '" ++ c.name ++ "' has no attribute 'rule_names'"))

/-- Whether a value holds a rule of some name, and what it answers when it is asked for it. -/
def ruleInValue (name : String) (v : Value) : Except Failure Entry :=
  let noKeys := Failure.fault .member ("'" ++ v.typeName ++ "' object has no attribute 'keys'")
  match v with
  | .list items =>
    if (items.filterMap Value.text?).contains name then
      .error (.fault .type "list indices must be integers or slices, not str")
    else .error noKeys
  | .text s =>
    if (s.splitOn name).length ≠ 1 || name = "" then
      .error (.fault .type "string indices must be integers, not 'str'")
    else .error noKeys
  | .dict entries =>
    match Ordered.find? name entries with
    | some v => .ok (.value v)
    | none => .error (.report (.noSuchRule name (entries.map (·.1))))
  | v => .error (.fault .type ("argument of type '" ++ v.typeName ++ "' is not iterable"))

/-- What stands under the name of a rule; a class without a table has no rules. -/
def rule (c : Class) (name : String) : Except Failure Entry :=
  match c.member? tableName with
  | none => .error (.report (.noSuchRule name []))
  | some (.table entries) =>
    match Ordered.find? name entries with
    | some e => .ok e
    | none => .error (.report (.noSuchRule name (entries.map (·.1))))
  | some (.value v) =>
    if v.truthy then ruleInValue name v else .error (.report (.noSuchRule name []))
  | some m => .error (.fault .type ("argument of type '" ++ m.typeName ++ "' is not iterable"))

end Class

end GrammarBench
