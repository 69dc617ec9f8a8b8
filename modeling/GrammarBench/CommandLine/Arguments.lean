import GrammarBench.CommandLine.Flag
import GrammarBench.CommandLine.Option

/-!
# Arguments of the command line

Every argument is first told apart as an option or as a plain one; then the options take their values in
turn. Long names may be shortened as long as one option is meant, and short ones may be joined.

* `Arguments.classify`: what an argument is.
* `Arguments.read`: the settings that the arguments make, or why they are refused.
-/

namespace GrammarBench.CommandLine

/-- What the command line asks for. -/
structure Settings where
  source : Option String := none
  grammar : Option String := none
  rule : Option String := none
  test : Option String := none
  config : Option String := none
  tokens : Bool := false
  tree : Bool := false
  pretty : Bool := false
  verbose : Bool := false
  deriving DecidableEq, Repr

/-- Why there is nothing to run. -/
inductive Stop where
  | usage (message : String)
  | help
  deriving DecidableEq, Repr

/-- A value that stands in the same argument as the name of its option. -/
structure Given where
  text : String
  /-- Whether an equals sign stands before it. -/
  assigned : Bool
  deriving DecidableEq, Repr

/-- What an argument is. -/
inductive Kind where
  | plain
  /-- Two dashes alone, behind which all arguments are plain. -/
  | dashes
  /-- An option under the name given, with the value given in the same argument. -/
  | option (key : Key) (name : String) (value : Option Given)
  | unknown
  deriving DecidableEq, Repr

namespace Arguments

/-- Refuses the use of an option. -/
def blame {α : Type} (key : Key) (message : String) : Except Stop α :=
  .error (.usage ("argument " ++ key.shown ++ ": " ++ message))

def cutAtEquals? (s : String) : Option (String × String) :=
  let front := s.toList.takeWhile (· ≠ '=')
  match s.toList.drop front.length with
  | _ :: behind => some (String.ofList front, String.ofList behind)
  | [] => none

def isNegativeNumber (s : List Char) : Bool :=
  match s with
  | '-' :: r =>
    let digits (s : List Char) : Bool := !s.isEmpty && s.all Text.isDigit
    digits r || digits ((r.dropWhile Text.isDigit).drop 1) && (r.dropWhile Text.isDigit).head? = some '.'
  | _ => false

/-- The options that a shortened long name, or a short name joined with its value, can mean. -/
def meanings (argument : String) : List (Key × String × Option Given) :=
  if argument.startsWith "--" then
    let (name, value) : String × Option Given := match cutAtEquals? argument with
      | some (n, v) => (n, some ⟨v, true⟩)
      | none => (argument, none)
    Key.named.filterMap fun (n, k) => if n.startsWith name then some (k, n, value) else none
  else
    let short := String.ofList (argument.toList.take 2)
    Key.named.filterMap fun (n, k) =>
      if n = short then some (k, n, some ⟨String.ofList (argument.toList.drop 2), false⟩)
      else if n.startsWith argument then some (k, n, none)
      else none

/-- The option of a name that stands before an equals sign. -/
def assigned? (argument : String) : Option Kind := do
  let (name, value) ← cutAtEquals? argument
  let k ← Key.ofName? name
  return .option k name (some ⟨value, true⟩)

def classify (argument : String) : Except Stop Kind :=
  if !argument.startsWith "-" then .ok .plain
  else match Key.ofName? argument with
    | some k => .ok (.option k argument none)
    | none =>
      if argument = "-" then .ok .plain
      else match assigned? argument with
        | some kind => .ok kind
        | none =>
          match meanings argument with
          | [(k, name, value)] => .ok (.option k name value)
          | [] =>
            .ok (if isNegativeNumber argument.toList || ' ' ∈ argument.toList then .plain else .unknown)
          | several =>
            .error (.usage ("ambiguous option: " ++ argument ++ " could match " ++
              ", ".intercalate (several.map (·.2.1))))

/-- What the arguments are; behind two dashes all of them are plain. -/
def classifyAll : List String → Except Stop (List (String × Kind))
  | [] => .ok []
  | a :: rest =>
    if a = "--" then .ok ((a, .dashes) :: rest.map fun b => (b, .plain))
    else do
      let kind ← classify a
      return (a, kind) :: (← classifyAll rest)

/-! ## Taking values -/

structure Reading where
  settings : Settings := {}
  seen : List Key := []
  /-- The arguments that mean nothing. -/
  extra : List String := []

/-- The truth value given for an option; without a value it counts as given. -/
def flagOf (key : Key) : Option String → Except Stop Bool
  | none => .ok true
  | some text =>
    match Flag.ofText? text with
    | some b => .ok b
    | none => blame key ("invalid str_to_bool value: " ++ Text.quoted text)

/-- The settings with an option taken into account. -/
def Settings.with (s : Settings) (key : Key) (value : Option String) : Except Stop Settings := do
  match key with
  | .help => .error .help
  | .verbose => return { s with verbose := true }
  | .source => return { s with source := value }
  | .grammar => return { s with grammar := value }
  | .rule => return { s with rule := value }
  | .test => return { s with test := value }
  | .config => return { s with config := value }
  | .tokens => return { s with tokens := ← flagOf key value }
  | .tree => return { s with tree := ← flagOf key value }
  | .pretty => return { s with pretty := ← flagOf key value }

/-- What one argument holds: options without a value, then an option with what is left, or letters that
mean nothing. -/
structure Group where
  before : List Key := []
  last : Option (Key × Option String) := none
  extra : Option String := none

/-- The options joined in one argument: short options without a value may be followed by the letters of
further ones. Every round takes a letter. -/
def group : Nat → Key → String → Given → Except Stop Group
  | 0, key, _, value => .ok { last := some (key, some value.text) }
  | rounds + 1, key, name, value =>
    if key.arity ≠ .none then .ok { last := some (key, some value.text) }
    else
      let refusal : Except Stop Group := blame key ("ignored explicit argument " ++ Text.quoted value.text)
      match value.text.toList with
      | [] => refusal
      | c :: rest =>
        if name.startsWith "--" || value.assigned || c = '-' then refusal
        else
          let next := String.ofList ['-', c]
          match Key.ofName? next, rest with
          | none, _ => .ok { before := [key], extra := some ("-" ++ value.text) }
          | some k, [] => .ok { before := [key], last := some (k, none) }
          | some k, '=' :: rest =>
            (group rounds k next ⟨String.ofList rest, true⟩).map fun g => { g with before := key :: g.before }
          | some k, rest =>
            (group rounds k next ⟨String.ofList rest, false⟩).map fun g =>
              { g with before := key :: g.before }

/-- The value of an option that takes one from the next argument, if that is plain; the result tells whether
it has been taken. -/
def nextValue (key : Key) (next : Option (String × Kind)) : Except Stop (Option String × Bool) :=
  let follower := match next with
    | some (text, .plain) => some text
    | _ => none
  match key.arity, follower with
  | .none, _ => .ok (none, false)
  | .one, none => blame key "expected one argument"
  | _, follower => .ok (follower, follower.isSome)

/-- Takes the options of an argument with their value, which stands in the same argument or in the next one.
The result tells whether the next argument has been taken. -/
def takeOption (r : Reading) (key : Key) (name : String) (value : Option Given)
    (next : Option (String × Kind)) : Except Stop (Reading × Bool) := do
  let g ← match value with
    | some v => group (v.text.length + 1) key name v
    | none => pure { last := some (key, none) }
  let (last, taken) ← match g.last with
    | none => pure (none, false)
    | some (k, some v) => pure (some (k, some v), false)
    | some (k, none) => do
      let (v, taken) ← nextValue k next
      pure (some (k, v), taken)
  let options := g.before.map (fun k => (k, none)) ++ last.toList
  let settings ← options.foldlM (fun s (k, v) => Settings.with s k v) r.settings
  return ({ settings := settings, seen := options.map (·.1) ++ r.seen, extra := r.extra ++ g.extra.toList },
    taken)

/-- Takes one argument after the other; what no option takes is left over. -/
def takeAll : Reading → List (String × Kind) → Except Stop Reading
  | r, [] => .ok r
  | r, (_, .option key name value) :: rest => do
    match ← takeOption r key name value rest.head? with
    | (r, false) => takeAll r rest
    | (r, true) => match rest with
      | [] => return r
      | _ :: rest => takeAll r rest
  | r, (text, _) :: rest => takeAll { r with extra := r.extra ++ [text] } rest

def read (arguments : List String) : Except Stop Settings := do
  let r ← takeAll {} (← classifyAll arguments)
  match Key.required.filter (!r.seen.contains ·) with
  | [] => pure ()
  | missing =>
    .error (.usage ("the following arguments are required: " ++
      ", ".intercalate (missing.map Key.shown)))
  if !r.extra.isEmpty then
    .error (.usage ("unrecognized arguments: " ++ " ".intercalate r.extra))
  return r.settings

end Arguments

end GrammarBench.CommandLine
