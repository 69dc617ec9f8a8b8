import GrammarBench.Proofs.Importing
import GrammarBench.Proofs.ModuleNames
import GrammarBench.Proofs.Pieces
import GrammarBench.Proofs.Renaming

/-!
# One module under two names

A body is run twice, in worlds that only differ in the name and the file of its module. As long as neither the body
nor anything that it imports tells the names apart, both runs take the same course, and the worlds stay the same up to
the two names.

* `Statement.Discreet`, `Statement.Unaware`: statements that do not tell the names apart.
* `TwoNames.Twin`: worlds that are the same up to the two names.
* `TwoNames.Parallel`: work that comes to the same in such worlds and keeps them so.
* `parallel_perform`, `parallel_run`: statements and bodies.
-/

namespace GrammarBench

namespace Loading.Import

/-! ## First parts of names -/

/-- The first part of a name. -/
def top (name : String) : String := (parts name).head?.getD name

theorem undotted_of_mem_parts {name part : String} (h : part ∈ parts name) : '.' ∉ part.toList :=
  Text.undivided_of_mem_pieces h

theorem parts_ne_nil (name : String) : parts name ≠ [] := Text.pieces_ne_nil '.' name

/-- Names put together have the parts that they are put together of. -/
theorem parts_intercalate {names : List String} (hne : names ≠ []) (h : ∀ s ∈ names, '.' ∉ s.toList) :
    parts (".".intercalate names) = names :=
  Text.pieces_intercalate hne h

theorem top_of_prefix {name : String} {above : List String} (hne : above ≠ []) (h : above <+: parts name) :
    top (".".intercalate above) = top name := by
  unfold top
  rw [parts_intercalate hne fun s hs => undotted_of_mem_parts (h.subset hs)]
  obtain ⟨behind, hbehind⟩ := h
  cases above with
  | nil => exact absurd rfl hne
  | cons first rest =>
      rw [← hbehind]
      rfl

theorem top_of_parent {name above : String} (h : parent? name = some above) : top above = top name := by
  unfold parent? at h
  split at h
  · cases h
  · next hne =>
    cases h
    exact top_of_prefix hne (List.dropLast_prefix _)

theorem top_of_mem_chain {name above : String} (h : above ∈ chain name) : top above = top name := by
  obtain ⟨n, hn, rfl⟩ := List.mem_map.mp h
  refine top_of_prefix (fun hnil => ?_) (List.take_prefix _ _)
  rw [List.take_eq_nil_iff] at hnil
  exact hnil.elim (Nat.succ_ne_zero n) (parts_ne_nil name)

theorem parts_part (name part : String) : parts (name ++ "." ++ part) = parts name ++ parts part :=
  Text.pieces_append '.' name part

theorem top_part (name part : String) : top (name ++ "." ++ part) = top name := by
  unfold top
  rw [parts_part]
  cases hname : parts name with
  | nil => exact absurd hname (parts_ne_nil name)
  | cons first rest => rfl

theorem lastPart_mem (name : String) : lastPart name ∈ parts name := by
  unfold lastPart
  rw [List.getLast?_eq_some_getLast (parts_ne_nil name)]
  exact List.getLast_mem _

theorem lastPart_part (name part : String) : lastPart (name ++ "." ++ part) = lastPart part := by
  unfold lastPart
  rw [parts_part, List.getLast?_append, List.getLast?_eq_some_getLast (parts_ne_nil part)]
  rfl

theorem lastPart_of_mem_chain {name above : String} (h : above ∈ chain name) : lastPart above ∈ parts name := by
  have hmem := lastPart_mem above
  obtain ⟨n, hn, rfl⟩ := List.mem_map.mp h
  have hne : (parts name).take (n + 1) ≠ [] := fun hnil =>
    (List.take_eq_nil_iff.mp hnil).elim (Nat.succ_ne_zero n) (parts_ne_nil name)
  rw [parts_intercalate hne fun s hs => undotted_of_mem_parts (List.mem_of_mem_take hs)] at hmem
  exact List.mem_of_mem_take hmem

theorem mem_chain_of_unregisteredAbove {w : World} {name above : String} (h : above ∈ unregisteredAbove w name) :
    above ∈ chain name :=
  List.dropLast_subset _ <| List.mem_reverse.mp <| (List.takeWhile_sublist _).subset <| List.mem_reverse.mp h

theorem takeWhile_congr {α : Type} {p q : α → Bool} {l : List α} (h : ∀ a ∈ l, p a = q a) :
    l.takeWhile p = l.takeWhile q := by
  induction l with
  | nil => rfl
  | cons a l ih => rw [List.takeWhile_cons, List.takeWhile_cons, h a List.mem_cons_self, ih fun b hb =>
      h b (List.mem_cons_of_mem a hb)]

theorem ne_of_not_mem_parts {name part : String} (hpart : parts part = [part]) (h : part ∉ parts name) :
    name ≠ part := by
  rintro rfl
  rw [hpart] at h
  exact h List.mem_cons_self

theorem top_undivided {name : String} (h : parts name = [name]) : top name = name := by
  unfold top
  rw [h]
  rfl

end Loading.Import

open Loading World

/-! ## Names that are given to all modules -/

namespace Module

/-- The names under which the interpreter gives something to all modules: what it notes down about how a module was
loaded, which is not the same for all ways to load one, and what is built into it. -/
def given : List String :=
  ["ArithmeticError", "AssertionError", "AttributeError", "BaseException", "BaseExceptionGroup", "BlockingIOError",
   "BrokenPipeError", "BufferError", "BytesWarning", "ChildProcessError", "ConnectionAbortedError",
   "ConnectionError", "ConnectionRefusedError", "ConnectionResetError", "DeprecationWarning", "EOFError",
   "Ellipsis", "EncodingWarning", "EnvironmentError", "Exception", "ExceptionGroup", "FileExistsError",
   "FileNotFoundError", "FloatingPointError", "FutureWarning", "GeneratorExit", "IOError", "ImportError",
   "ImportWarning", "IndentationError", "IndexError", "InterruptedError", "IsADirectoryError", "KeyError",
   "KeyboardInterrupt", "LookupError", "MemoryError", "ModuleNotFoundError", "NameError", "NotADirectoryError",
   "NotImplemented", "NotImplementedError", "OSError", "OverflowError", "PendingDeprecationWarning",
   "PermissionError", "ProcessLookupError", "RecursionError", "ReferenceError", "ResourceWarning", "RuntimeError",
   "RuntimeWarning", "StopAsyncIteration", "StopIteration", "SyntaxError", "SyntaxWarning", "SystemError",
   "SystemExit", "TabError", "TimeoutError", "TypeError", "UnboundLocalError", "UnicodeDecodeError",
   "UnicodeEncodeError", "UnicodeError", "UnicodeTranslateError", "UnicodeWarning", "UserWarning", "ValueError",
   "Warning", "ZeroDivisionError", "__build_class__", "__builtins__", "__cached__", "__debug__", "__import__",
   "__loader__", "__package__", "__spec__", "abs", "aiter", "all", "anext", "any", "ascii", "bin", "bool",
   "breakpoint", "bytearray", "bytes", "callable", "chr", "classmethod", "compile", "complex", "copyright",
   "credits", "delattr", "dict", "dir", "divmod", "enumerate", "eval", "exec", "exit", "filter", "float", "format",
   "frozenset", "getattr", "globals", "hasattr", "hash", "help", "hex", "id", "input", "int", "isinstance",
   "issubclass", "iter", "len", "license", "list", "locals", "map", "max", "memoryview", "min", "next", "object",
   "oct", "open", "ord", "pow", "print", "property", "quit", "range", "repr", "reversed", "round", "set", "setattr",
   "slice", "sorted", "staticmethod", "str", "sum", "super", "tuple", "type", "vars", "zip"]

end Module

/-! ## Statements that do not tell names apart -/

namespace Statement

/-- The names that a statement binds or removes. -/
def binds : Statement → List String
  | define name _ _ _ | assign name _ | copy name _ | remove name => [name]
  | fetch _ (some names) => names
  | fetch module none => [(Import.chain module).head?.getD module]
  | fail _ | shortenSearch => []

/-- The names that a statement looks up among those of its module. -/
def looksUp : Statement → List String
  | define _ bases _ _ => bases
  | copy _ source => [source]
  | remove name => [name]
  | _ => []

/-- The names that a statement takes out of another module. -/
def takes : Statement → List String
  | fetch _ (some names) => names
  | _ => []

/-- The module that a class is said to belong to. -/
def home? : Statement → Option String
  | define _ _ _ home => home
  | _ => none

/-- The module that is imported. -/
def imported? : Statement → Option String
  | fetch module _ => some module
  | _ => none

/-- A statement that does not ask for the name or the file of its own module. -/
structure Unaware (s : Statement) : Prop where
  name : "__name__" ∉ s.looksUp
  file : "__file__" ∉ s.looksUp

end Statement

/-- Two names for the module of one body. -/
structure TwoNames where
  one : String
  other : String
  /-- The module. -/
  own : ModuleId
  undivided : ∀ name ∈ [one, other], Import.parts name = [name]
  uninstalled : ∀ name ∈ [one, other], name ≠ "" ∧ Installed.find? name = none ∧ ∀ l ∈ Layer.given, l.home ≠ name

namespace TwoNames

variable (k : TwoNames)

/-- The change of the names. -/
def exchange : Equiv.Perm String := Equiv.swap k.one k.other

/-- A name of another module: neither one of the two names nor a part of what has one of them. -/
def Foreign (name : String) : Prop := Import.top name ≠ k.one ∧ Import.top name ≠ k.other

/-- A statement that does not tell the names apart: it leaves the name that its module knows itself by alone, and
neither says that a class belongs to a module of one of the names nor imports one. Nor does it ask for what is given to
all modules. -/
structure Discreet (s : Statement) : Prop where
  binds : ∀ name ∈ s.binds, "__name__" ∉ Import.parts name
  home : ∀ name ∈ s.home?, k.Foreign name
  imported : ∀ name ∈ s.imported?, k.Foreign name ∧ "__name__" ∉ Import.parts name
  own : ∀ name ∈ s.looksUp ++ s.takes, name ∉ Module.given

variable {k : TwoNames}

theorem top_one : Import.top k.one = k.one := Import.top_undivided (k.undivided _ List.mem_cons_self)

theorem top_other : Import.top k.other = k.other :=
  Import.top_undivided (k.undivided _ (List.mem_cons_of_mem _ List.mem_cons_self))

namespace Foreign

variable {name : String}

theorem ne_one (h : k.Foreign name) : name ≠ k.one := fun heq => h.1 (by rw [heq, top_one])

theorem ne_other (h : k.Foreign name) : name ≠ k.other := fun heq => h.2 (by rw [heq, top_other])

theorem of_top {above : String} (h : k.Foreign name) (htop : Import.top above = Import.top name) : k.Foreign above := by
  unfold Foreign
  rw [htop]
  exact h

theorem exchange_eq (h : k.Foreign name) : k.exchange name = name := Equiv.swap_apply_of_ne_of_ne h.ne_one h.ne_other

end Foreign

/-- The name that stands for no module at all. -/
theorem foreign_empty : k.Foreign "" := by
  have htop : Import.top "" = "" := by decide +kernel
  unfold Foreign
  rw [htop]
  exact ⟨((k.uninstalled _ List.mem_cons_self).1).symm,
    ((k.uninstalled _ (List.mem_cons_of_mem _ List.mem_cons_self)).1).symm⟩

theorem exchange_home (k : TwoNames) : Layer.Steady k.exchange := fun l hl =>
  Equiv.swap_apply_of_ne_of_ne ((k.uninstalled _ List.mem_cons_self).2.2 l hl)
    ((k.uninstalled _ (List.mem_cons_of_mem _ List.mem_cons_self)).2.2 l hl)

/-! ## Worlds that are the same up to the names -/

variable (k)

/-- Two worlds that are the same up to the two names of a module. -/
structure Twin (w w' : World) : Prop where
  files : w'.files = w.files
  searchPath : w'.searchPath = w.searchPath
  nextClass : w'.nextClass = w.nextClass
  size : w'.modules.size = w.modules.size
  made : k.own < w.modules.size
  modules : ∀ id, Module.Twin k.exchange (w.module id) (w'.module id)
  foreign : ∀ id, id ≠ k.own → k.Foreign (w.module id).name ∧ (w'.module id).file = (w.module id).file
  named : (w.module k.own).name = k.one
  registry : ∀ name, k.Foreign name → Ordered.find? name w'.registry = Ordered.find? name w.registry
  /-- The module is reached under no other name. -/
  apart : ∀ name, k.Foreign name → Ordered.find? name w.registry ≠ some k.own
  /-- The sources that can be imported do not tell the names apart. -/
  sources : ∀ path statements, Import.sourceAt w.files path = .ok statements → ∀ s ∈ statements, k.Discreet s

/-- Two outcomes of work that come to the same, with worlds behind them that are the same up to the names. -/
inductive Alike {α β : Type} (R : α → β → Prop) : Except Failure α × World → Except Failure β × World → Prop where
  | ok {a : α} {b : β} {w w' : World} : R a b → k.Twin w w' → Alike R (.ok a, w) (.ok b, w')
  | error {f : Failure} {w w' : World} : k.Twin w w' → Alike R (.error f, w) (.error f, w')

/-- Work that comes to the same in worlds that are the same up to the names. -/
def Parallel {α β : Type} (R : α → β → Prop) (x : Act α) (y : Act β) : Prop :=
  ∀ w w', k.Twin w w' → k.Alike R (w.run x) (w'.run y)

/-- The same module in both worlds, and not the one with the two names. -/
def Same (id id' : ModuleId) : Prop := id' = id ∧ id ≠ k.own

variable {k}

namespace Parallel

variable {α β γ δ : Type} {R : α → β → Prop} {S : γ → δ → Prop}

theorem pure {a : α} {b : β} (h : R a b) : k.Parallel R (Pure.pure a) (Pure.pure b) := fun _ _ hw => .ok h hw

theorem throw (f : Failure) : k.Parallel R (MonadExcept.throw f) (MonadExcept.throw f) := fun _ _ hw => .error hw

theorem get : k.Parallel k.Twin (MonadState.get : Act World) MonadState.get := fun _ _ hw => .ok hw hw

theorem lift {r : Except Failure α} {g : α → β} (h : ∀ a, r = .ok a → R a (g a)) :
    k.Parallel R (World.lift r) (World.lift (r.map g)) := by
  cases r with
  | error f => exact throw f
  | ok a => exact pure (h a rfl)

theorem lift_same {r : Except Failure α} {P : α → Prop} (h : ∀ a, r = .ok a → P a) :
    k.Parallel (fun a b => b = a ∧ P a) (World.lift r) (World.lift r) := by
  cases r with
  | error f => exact throw f
  | ok a => exact pure ⟨rfl, h a rfl⟩

theorem bind {x : Act α} {y : Act β} {f : α → Act γ} {g : β → Act δ} (hx : k.Parallel R x y)
    (hf : ∀ a b, R a b → k.Parallel S (f a) (g b)) : k.Parallel S (x >>= f) (y >>= g) := by
  intro w w' hw
  have hxy := hx w w' hw
  rw [run_bind, run_bind]
  generalize w.run x = r at *
  generalize w'.run y = r' at *
  cases hxy with
  | ok hab hw' => exact hf _ _ hab _ _ hw'
  | error hw' => exact .error hw'

theorem tryCatch {x : Act α} {y : Act β} {f : Failure → Act α} {g : Failure → Act β} (hx : k.Parallel R x y)
    (hf : ∀ e, k.Parallel R (f e) (g e)) : k.Parallel R (MonadExcept.tryCatch x f) (MonadExcept.tryCatch y g) := by
  intro w w' hw
  have hxy := hx w w' hw
  rw [run_tryCatch, run_tryCatch]
  generalize w.run x = r at *
  generalize w'.run y = r' at *
  cases hxy with
  | ok hab hw' => exact .ok hab hw'
  | error hw' => exact hf _ _ _ hw'

theorem forM {act act' : α → Act PUnit} {items : List α} (h : ∀ a ∈ items, k.Parallel Eq (act a) (act' a)) :
    k.Parallel Eq (items.forM act) (items.forM act') := by
  induction items with
  | nil => exact pure rfl
  | cons a rest ih =>
      exact bind (h a List.mem_cons_self) fun _ _ _ => ih fun b hb => h b (List.mem_cons_of_mem a hb)

theorem forIn {step step' : α → PUnit → Act (ForInStep PUnit)} {items : List α}
    (h : ∀ a ∈ items, ∀ u, k.Parallel Eq (step a u) (step' a u)) (u : PUnit) :
    k.Parallel Eq (ForIn.forIn items u step) (ForIn.forIn items u step') := by
  induction items generalizing u with
  | nil => exact pure rfl
  | cons a rest ih =>
      rw [List.forIn_cons, List.forIn_cons]
      refine bind (h a List.mem_cons_self u) fun r r' hr => ?_
      subst hr
      cases r with
      | done u' => exact pure rfl
      | yield u' => exact ih (fun b hb => h b (List.mem_cons_of_mem a hb)) u'

end Parallel

/-! ## Changes of twin worlds -/

theorem module_push (w : World) (m : Module) (id : ModuleId) :
    World.module { w with modules := w.modules.push m } id = if id = w.modules.size then m else w.module id := by
  unfold World.module
  simp only [Array.getD_eq_getD_getElem?, Array.getElem?_push]
  split <;> rfl

theorem module_modify (w : World) (changed id : ModuleId) (change : Module → Module) :
    World.module { w with modules := w.modules.modify changed change } id =
      if id = changed ∧ id < w.modules.size then change (w.module id) else w.module id := by
  unfold World.module
  simp only [Array.getD_eq_getD_getElem?, Array.getElem?_modify]
  by_cases heq : changed = id
  · subst heq
    by_cases hlt : changed < w.modules.size
    · simp [hlt]
    · simp [hlt]
  · rw [if_neg heq, if_neg fun h => heq h.1.symm]

/-- A change that keeps the names and the files of modules, made to twins. -/
structure Changes (change change' : Module → Module) : Prop where
  twin : ∀ {m m'}, Module.Twin k.exchange m m' → Module.Twin k.exchange (change m) (change' m')
  name : ∀ m, (change m).name = m.name
  file : ∀ m, (change m).file = m.file
  file' : ∀ m, (change' m).file = m.file

variable (k) in
theorem changes_bind {name : String} (hname : name ≠ "__name__") (b : Bound) :
    Changes (k := k) (fun m => m.bind name b) (fun m => m.bind name (b.renamed k.exchange)) where
  twin h := h.bind hname b
  name _ := rfl
  file _ := rfl
  file' _ := rfl

variable (k) in
theorem changes_unbind {name : String} (hname : name ≠ "__name__") :
    Changes (k := k) (fun m => m.unbind name) (fun m => m.unbind name) where
  twin h := h.unbind hname
  name _ := rfl
  file _ := rfl
  file' _ := rfl

namespace Twin

variable {w w' : World}

theorem update (h : k.Twin w w') {change change' : Module → Module} (hc : Changes (k := k) change change')
    (id : ModuleId) :
    k.Twin { w with modules := w.modules.modify id change } { w' with modules := w'.modules.modify id change' } := by
  have hleft := module_modify w id
  have hright (i : ModuleId) := module_modify w' id i change'
  rw [h.size] at hright
  refine { h with size := ?_, made := ?_, modules := fun i => ?_, foreign := fun i hi => ?_, named := ?_ }
  · simpa using h.size
  · simpa using h.made
  · rw [hleft, hright]
    split
    · exact hc.twin (h.modules i)
    · exact h.modules i
  · rw [hleft, hright]
    split
    · rw [hc.name, hc.file, hc.file']
      exact h.foreign i hi
    · exact h.foreign i hi
  · rw [hleft]
    split
    · exact (hc.name _).trans h.named
    · exact h.named

theorem create (h : k.Twin w w') {m : Module} (hm : Module.Twin k.exchange m m) (hname : k.Foreign m.name) :
    k.Twin { w with modules := w.modules.push m } { w' with modules := w'.modules.push m } := by
  have hleft := module_push w m
  have hright (i : ModuleId) := module_push w' m i
  rw [h.size] at hright
  have hown : k.own ≠ w.modules.size := Nat.ne_of_lt h.made
  refine { h with size := ?_, made := ?_, modules := fun i => ?_, foreign := fun i hi => ?_, named := ?_ }
  · simpa using h.size
  · simpa using Nat.lt_succ_of_lt h.made
  · rw [hleft, hright]
    split
    · exact hm
    · exact h.modules i
  · rw [hleft, hright]
    split
    · exact ⟨hname, rfl⟩
    · exact h.foreign i hi
  · rw [hleft, if_neg hown]
    exact h.named

theorem register (h : k.Twin w w') (name : String) {id : ModuleId} (hid : id ≠ k.own) :
    k.Twin { w with registry := Ordered.insert name id w.registry }
      { w' with registry := Ordered.insert name id w'.registry } := by
  refine { h with registry := fun other hother => ?_, apart := fun other hother => ?_ }
  · by_cases heq : other = name
    · rw [heq, Ordered.find?_insert_self, Ordered.find?_insert_self]
    · rw [Ordered.find?_insert_ne heq, Ordered.find?_insert_ne heq]
      exact h.registry other hother
  · by_cases heq : other = name
    · rw [heq, Ordered.find?_insert_self]
      exact fun hfound => hid (Option.some.inj hfound)
    · rw [Ordered.find?_insert_ne heq]
      exact h.apart other hother

theorem unregister (h : k.Twin w w') (name : String) :
    k.Twin { w with registry := Ordered.erase name w.registry }
      { w' with registry := Ordered.erase name w'.registry } := by
  refine { h with registry := fun other hother => ?_, apart := fun other hother => ?_ }
  · by_cases heq : other = name
    · rw [heq, Ordered.find?_erase_self, Ordered.find?_erase_self]
    · rw [Ordered.find?_erase_ne heq, Ordered.find?_erase_ne heq]
      exact h.registry other hother
  · by_cases heq : other = name
    · rw [heq, Ordered.find?_erase_self]
      exact nofun
    · rw [Ordered.find?_erase_ne heq]
      exact h.apart other hother

/-- The next module is not the one with the two names. -/
theorem same_size (h : k.Twin w w') : k.Same w.modules.size w'.modules.size :=
  ⟨h.size, Nat.ne_of_gt h.made⟩

end Twin

theorem parallel_update {change change' : Module → Module} (hc : Changes (k := k) change change') (id : ModuleId) :
    k.Parallel Eq (World.update id change) (World.update id change') := fun _ _ hw => .ok rfl (hw.update hc id)

theorem parallel_bind {name : String} (hname : name ≠ "__name__") (b : Bound) (id : ModuleId) :
    k.Parallel Eq (World.update id fun m => m.bind name b)
      (World.update id fun m => m.bind name (b.renamed k.exchange)) :=
  parallel_update (changes_bind k hname b) id

/-! ## Imports -/

/-- A module that is its own twin: it belongs to neither name, and so do all classes that it binds. -/
theorem twin_self {m : Module} (hname : k.Foreign m.name) (hnames : ∀ e ∈ m.names, e.2.renamed k.exchange = e.2)
    (hunbound : Ordered.find? "__name__" m.names = none) : Module.Twin k.exchange m m where
  name := hname.exchange_eq.symm
  names := by
    have hmapped : ∀ e ∈ m.names, (e.1, e.2.renamed k.exchange) = id e := fun e he => by
      rw [hnames e he]
      rfl
    exact ((List.map_congr_left hmapped).trans (List.map_id _)).symm
  parts := rfl
  loading := rfl
  unbound := hunbound

theorem twin_installed {name : String} {m : Module} (h : Installed.find? name = some m) (hname : k.Foreign name) :
    m.name = name ∧ Module.Twin k.exchange m m := by
  have hk := exchange_home k
  have hunbound : ∀ e ∈ Installed.own, "__name__" ∉ e.2.map (·.1) := by decide
  have hkept : ∀ e ∈ Installed.own, e.2.map (fun b => b.2.renamed k.exchange) = e.2.map (·.2) := by
    simp [-List.map_inj_left, Installed.own, Bound.renamed, Class.lexer_renamed hk, Class.parser_renamed hk,
      Class.grammarLexer_renamed hk, Class.grammarParser_renamed hk]
  unfold Installed.find? at h
  split at h
  · cases h
    exact ⟨rfl, twin_self hname nofun rfl⟩
  · split at h
    · cases h
      exact ⟨rfl, twin_self hname nofun rfl⟩
    · obtain ⟨names, hnames, rfl⟩ := Option.map_eq_some_iff.mp h
      obtain ⟨before, behind, heq, -⟩ := List.lookup_eq_some_iff.mp hnames
      have hmem : (name, names) ∈ Installed.own := heq ▸ List.mem_append_right _ List.mem_cons_self
      exact ⟨rfl, twin_self hname (List.map_inj_left.mp (hkept _ hmem)) (Ordered.find?_eq_none (hunbound _ hmem))⟩

/-- What two look-ups of a module that may be there come to. -/
def Known (k : TwoNames) (found found' : Option ModuleId) : Prop := found' = found ∧ ∀ id ∈ found, id ≠ k.own

theorem parallel_known? {name : String} (hname : k.Foreign name) :
    k.Parallel k.Known (Import.known? name) (Import.known? name) := by
  intro w w' hw
  rw [Import.run_known?, Import.run_known?, hw.registry name hname]
  cases hfound : Ordered.find? name w.registry with
  | some id =>
      refine .ok ⟨rfl, fun id' hid' => ?_⟩ hw
      obtain rfl := Option.some.inj hid'
      exact fun heq => hw.apart name hname (heq ▸ hfound)
  | none =>
      dsimp only
      cases hinstalled : Installed.find? name with
      | none => exact .ok ⟨rfl, nofun⟩ hw
      | some m =>
          obtain ⟨hm, htwin⟩ := twin_installed hinstalled hname
          have hnew := hw.same_size
          have hcreated := hw.create htwin (hm ▸ hname)
          dsimp only
          rw [hnew.1]
          refine .ok ⟨rfl, fun id hid => ?_⟩ (hcreated.register name hnew.2)
          obtain rfl := Option.some.inj hid
          exact hnew.2

/-- A module is made and its body is run in both worlds. -/
theorem parallel_load {m : Module} (hname : k.Foreign m.name) (hempty : m.names = []) {body : ModuleId → Act Unit}
    (hbody : ∀ id, id ≠ k.own → k.Parallel Eq (body id) (body id)) :
    k.Parallel k.Same (Import.load m body) (Import.load m body) := by
  have htwin : Module.Twin k.exchange { m with loading := true } { m with loading := true } :=
    twin_self hname (by simp [hempty]) (by simp [hempty, Ordered.find?])
  unfold Import.load
  refine .bind (R := k.Same) (fun w w' hw => .ok hw.same_size (hw.create htwin hname)) fun id id' hid => ?_
  obtain ⟨rfl, hid⟩ := hid
  refine .bind (R := Eq) (fun w w' hw => .ok rfl (hw.register m.name hid)) fun _ _ _ => ?_
  refine .bind (R := fun e e' => e = .error id' ∧ e' = .error id') (.tryCatch ?_ fun f => ?_) fun e e' he => ?_
  · refine .bind (hbody id' hid) fun _ _ _ => .bind (parallel_update ?_ id') fun _ _ _ => .pure ⟨rfl, rfl⟩
    exact ⟨fun h => ⟨h.name, h.names, h.parts, rfl, h.unbound⟩, fun _ => rfl, fun _ => rfl, fun _ => rfl⟩
  · exact .bind (R := Eq) (fun w w' hw => .ok rfl (hw.unregister m.name)) fun _ _ _ =>
      .bind (R := fun _ _ => False) (.throw f) fun _ _ h => h.elim
  · obtain ⟨rfl, rfl⟩ := he
    exact .pure ⟨rfl, hid⟩

/-! ## Bodies -/

section Bodies

variable {runBody : ModuleId → List Statement → Act Unit}

/-- The bodies of other modules come to the same. -/
def Bodies (k : TwoNames) (runBody : ModuleId → List Statement → Act Unit) : Prop :=
  ∀ id statements, id ≠ k.own → (∀ s ∈ statements, k.Discreet s) →
    k.Parallel Eq (runBody id statements) (runBody id statements)

theorem parallel_loadFound (hbody : k.Bodies runBody) {fs : Files}
    (hsources : ∀ path statements, Import.sourceAt fs path = .ok statements → ∀ s ∈ statements, k.Discreet s)
    {name : String} (hname : k.Foreign name) (found : Found) :
    k.Parallel k.Same (Import.loadFound runBody fs name found) (Import.loadFound runBody fs name found) := by
  have hrun {id : ModuleId} (hid : id ≠ k.own) (statements statements' : List Statement)
      (hs : statements' = statements ∧ ∀ s ∈ statements, k.Discreet s) :
      k.Parallel Eq (runBody id statements) (runBody id statements') := by
    obtain ⟨rfl, hs⟩ := hs
    exact hbody id _ hid hs
  cases found with
  | directories list =>
      exact parallel_load (m := { name := name, parts := some list }) hname rfl fun _ _ => .pure rfl
  | compiled path =>
      refine parallel_load (m := { name := name, file := some path }) hname rfl fun _ _ =>
        .bind (.lift_same (P := fun _ => True) fun _ _ => trivial) fun c c' hc => ?_
      rw [hc.1]
      exact .throw _
  | source path =>
      exact parallel_load (m := { name := name, file := some path }) hname rfl fun _ hid =>
        .bind (.lift_same (hsources path)) (hrun hid)
  | package path own =>
      exact parallel_load (m := { name := name, file := some path, parts := some [own] }) hname rfl fun _ hid =>
        .bind (.lift_same (hsources path)) (hrun hid)

section Look

variable {w w' : World}

theorem Twin.parentIn? (hw : k.Twin w w') {name : String} (hname : k.Foreign name) :
    Import.parentIn? w' name = Import.parentIn? w name := by
  unfold Import.parentIn?
  cases hparent : Import.parent? name with
  | none => rfl
  | some above =>
      show Option.map _ _ = Option.map _ _
      rw [hw.registry above (hname.of_top (Import.top_of_parent hparent))]

theorem Twin.unregisteredAbove (hw : k.Twin w w') {name : String} (hname : k.Foreign name) :
    Import.unregisteredAbove w' name = Import.unregisteredAbove w name := by
  unfold Import.unregisteredAbove
  rw [Import.takeWhile_congr fun above habove => ?_]
  have hmem : above ∈ Import.chain name := List.dropLast_subset _ (List.mem_reverse.mp habove)
  rw [hw.registry above (hname.of_top (Import.top_of_mem_chain hmem))]

theorem Twin.directoriesFor (hw : k.Twin w w') {name : String} (hname : k.Foreign name) :
    Import.directoriesFor w' name = Import.directoriesFor w name := by
  unfold Import.directoriesFor
  rw [hw.parentIn? hname, hw.searchPath]
  cases Import.parentIn? w name with
  | none => rfl
  | some parent =>
      dsimp only
      rw [(hw.modules parent.2).parts]

/-- What a name stands for in a module that may not be the one with the two names, or in that one when the name does
not tell the names apart. -/
theorem Twin.get? (hw : k.Twin w w') {id : ModuleId} {name : String}
    (hname : id = k.own → name ≠ "__name__" ∧ name ≠ "__file__") :
    (w'.module id).get? name = ((w.module id).get? name).map (Bound.renamed k.exchange) := by
  by_cases hid : id = k.own
  · exact (hw.modules id).get? (fun heq => absurd heq (hname hid).1) fun heq => absurd heq (hname hid).2
  · obtain ⟨hforeign, hfile⟩ := hw.foreign id hid
    exact (hw.modules id).get? (fun _ => (hw.modules id).name.trans hforeign.exchange_eq) fun _ => hfile

end Look

theorem parallel_one (hbody : k.Bodies runBody) {name : String} (hname : k.Foreign name)
    (hlast : Import.lastPart name ≠ "__name__") :
    k.Parallel k.Same (Import.one runBody name) (Import.one runBody name) := by
  unfold Import.one
  refine .bind (parallel_known? hname) fun found found' hfound => ?_
  obtain ⟨rfl, hfound⟩ := hfound
  cases found' with
  | some id => exact .pure ⟨rfl, hfound id rfl⟩
  | none =>
      refine .bind .get fun w w' hw => ?_
      rw [hw.directoriesFor hname, hw.parentIn? hname, hw.files]
      refine .bind (.lift_same (P := fun _ => True) fun _ _ => trivial) fun _ directories hdirectories => ?_
      obtain ⟨rfl, -⟩ := hdirectories
      dsimp only
      cases Import.search w.files directories (Import.lastPart name) with
      | none => exact .throw _
      | some found =>
          refine .bind (parallel_loadFound hbody hw.sources hname found) fun id id' hid => ?_
          cases Import.parentIn? w name with
          | none => exact .pure hid
          | some parent =>
              exact .bind (parallel_bind hlast (.module name) parent.2) fun _ _ _ => .pure hid

theorem parallel_module (hbody : k.Bodies runBody) {name : String} (hname : k.Foreign name)
    (hquiet : "__name__" ∉ Import.parts name) :
    k.Parallel k.Same (Import.module runBody name) (Import.module runBody name) := by
  unfold Import.module
  split
  · exact .throw _
  · split
    · exact .throw _
    · refine .bind (parallel_known? hname) fun found found' hfound => ?_
      obtain ⟨rfl, hfound⟩ := hfound
      cases found' with
      | some id => exact .pure ⟨rfl, hfound id rfl⟩
      | none =>
          refine .bind .get fun w w' hw => ?_
          rw [hw.unregisteredAbove hname]
          refine .bind (.forM fun above habove => ?_) fun _ _ _ => ?_
          · have hmem : above ∈ Import.chain name := Import.mem_chain_of_unregisteredAbove habove
            refine .bind (parallel_one hbody (hname.of_top (Import.top_of_mem_chain hmem)) fun heq => ?_)
              fun _ _ _ => .pure rfl
            exact hquiet (heq ▸ Import.lastPart_of_mem_chain hmem)
          · exact parallel_one hbody hname fun heq => hquiet (heq ▸ Import.lastPart_mem name)

theorem missingName_eq {w w' : World} (hw : k.Twin w w') {id : ModuleId} (hid : id ≠ k.own) (name : String) :
    Import.missingName (w'.module id) name = Import.missingName (w.module id) name := by
  obtain ⟨hforeign, hfile⟩ := hw.foreign id hid
  have hmodule := hw.modules id
  unfold Import.missingName
  rw [hfile, hmodule.loading, hmodule.name, hforeign.exchange_eq]

theorem parallel_take (hbody : k.Bodies runBody) {id : ModuleId} (hid : id ≠ k.own) {name : String}
    (hquiet : "__name__" ∉ Import.parts name) :
    k.Parallel (fun b b' => b' = b.renamed k.exchange) (Import.take runBody id name) (Import.take runBody id name) := by
  unfold Import.take
  refine .bind .get fun w w' hw => ?_
  obtain ⟨hforeign, -⟩ := hw.foreign id hid
  have hname : (w'.module id).name = (w.module id).name := (hw.modules id).name.trans hforeign.exchange_eq
  dsimp only
  rw [hw.get? fun heq => absurd heq hid, missingName_eq hw hid, hname, (hw.modules id).parts]
  cases (w.module id).get? name with
  | some b => exact .pure rfl
  | none =>
      dsimp only [Option.map_none]
      split
      · have hlast : Import.lastPart ((w.module id).name ++ "." ++ name) ≠ "__name__" := fun heq =>
          hquiet (heq ▸ Import.lastPart_part (w.module id).name name ▸ Import.lastPart_mem name)
        have hone := parallel_one hbody (hforeign.of_top (Import.top_part _ name)) hlast
        refine .bind (R := fun e e' => e' = e ∧ ∃ part, e = .error (.module part)) (.tryCatch ?_ fun f => ?_)
          fun e e' he => ?_
        · exact .bind hone fun _ _ _ => .pure ⟨rfl, _, rfl⟩
        · split
          · exact .bind (R := fun _ _ => False) (.throw _) fun _ _ h => h.elim
          · exact .bind (R := fun _ _ => False) (.throw _) fun _ _ h => h.elim
        · obtain ⟨rfl, part, rfl⟩ := he
          exact .pure rfl
      · exact .throw _

/-- A statement binds no name that tells the modules apart. -/
theorem Discreet.ne_of_binds {s : Statement} (hs : k.Discreet s) {name : String} (h : name ∈ s.binds) :
    name ≠ "__name__" :=
  Import.ne_of_not_mem_parts (by decide +kernel) (hs.binds name h)

/-- A class is defined with the same bases, and under the home of its module in each world. -/
theorem parallel_define (id : ModuleId) {name : String} {bases : List String} {members : List (String × Member)}
    {home : Option String} (hs : k.Discreet (.define name bases members home))
    (hown : id = k.own → (Statement.define name bases members home).Unaware) :
    k.Parallel Eq (perform runBody id (.define name bases members home))
      (perform runBody id (.define name bases members home)) := by
  unfold perform
  refine .bind .get fun w w' hw => ?_
  have hmodule := hw.modules id
  have hbases : basesOf (w'.module id) bases =
      (basesOf (w.module id) bases).map (List.map (Class.renamed k.exchange)) := by
    by_cases hid : id = k.own
    · obtain ⟨hname, hfile⟩ := hown hid
      exact hmodule.basesOf (exchange_home k) (fun h => absurd h hname) fun h => absurd h hfile
    · obtain ⟨hforeign, hfile⟩ := hw.foreign id hid
      exact hmodule.basesOf (exchange_home k) (fun _ => hmodule.name.trans hforeign.exchange_eq) fun _ => hfile
  have hhome : home.getD (w'.module id).ownName = k.exchange (home.getD (w.module id).ownName) := by
    cases home with
    | none => exact hmodule.ownName_right.trans (congrArg k.exchange hmodule.ownName_left.symm)
    | some home => exact (hs.home home rfl).exchange_eq.symm
  dsimp only
  rw [hbases, hhome, hw.nextClass]
  refine .bind (.lift (R := fun l l' => l' = l.map (Class.renamed k.exchange)) fun _ _ => rfl)
    fun classes _ hclasses => ?_
  subst hclasses
  have hdefined := Class.define_renamed (exchange_home k)
    { id := w.nextClass, name := name, home := home.getD (w.module id).ownName, members := Ordered.ofList members }
    classes
  unfold Layer.renamed at hdefined
  rw [hdefined]
  refine .bind (.lift (R := fun c c' => c' = c.renamed k.exchange) fun _ _ => rfl) fun c _ hc => ?_
  subst hc
  refine .bind (R := Eq) (fun v v' hv => .ok rfl { hv with nextClass := congrArg (· + 1) hv.nextClass })
    fun _ _ _ => ?_
  exact parallel_bind (hs.ne_of_binds List.mem_cons_self) (.type c) id

/-- An import finds the same module, and takes the same names out of it. -/
theorem parallel_fetch (hbody : k.Bodies runBody) (id : ModuleId) {name : String} {names : Option (List String)}
    (hs : k.Discreet (.fetch name names)) :
    k.Parallel Eq (perform runBody id (.fetch name names)) (perform runBody id (.fetch name names)) := by
  obtain ⟨hforeign, hquiet⟩ := hs.imported name rfl
  unfold perform
  refine .bind (parallel_module hbody hforeign hquiet) fun found found' hfound => ?_
  obtain ⟨rfl, hfound⟩ := hfound
  cases names with
  | none => exact parallel_bind (hs.ne_of_binds List.mem_cons_self) (.module _) id
  | some names =>
      refine .bind (.forIn (fun n hn _ => ?_) _) fun _ _ _ => .pure rfl
      refine .bind (parallel_take hbody hfound (hs.binds n hn)) fun b b' hb => ?_
      subst hb
      exact .bind (parallel_bind (hs.ne_of_binds hn) b id) fun _ _ _ => .pure rfl

/-- A statement that does not tell the names apart comes to the same in both worlds. -/
theorem parallel_perform (hbody : k.Bodies runBody) (id : ModuleId) {s : Statement} (hs : k.Discreet s)
    (hown : id = k.own → s.Unaware) : k.Parallel Eq (perform runBody id s) (perform runBody id s) := by
  have hlook {name : String} (hname : name ∈ s.looksUp) (heq : id = k.own) :
      name ≠ "__name__" ∧ name ≠ "__file__" :=
    ⟨fun h => (hown heq).name (h ▸ hname), fun h => (hown heq).file (h ▸ hname)⟩
  cases s with
  | define name bases members home => exact parallel_define id hs hown
  | assign name value => exact parallel_bind (hs.ne_of_binds List.mem_cons_self) (.value value) id
  | copy name source =>
      unfold perform
      refine .bind .get fun w w' hw => ?_
      rw [hw.get? (hlook List.mem_cons_self)]
      cases (w.module id).get? source with
      | some b => exact parallel_bind (hs.ne_of_binds List.mem_cons_self) b id
      | none => exact .throw _
  | remove name =>
      unfold perform
      refine .bind .get fun w w' hw => ?_
      rw [hw.get? (hlook List.mem_cons_self)]
      cases (w.module id).get? name with
      | some b => exact parallel_update (changes_unbind k (hs.ne_of_binds List.mem_cons_self)) id
      | none => exact .throw _
  | fail f => exact .throw f
  | shortenSearch => exact fun w w' hw => .ok rfl { hw with searchPath := congrArg List.tail hw.searchPath }
  | fetch name names => exact parallel_fetch hbody id hs

theorem parallel_runWithin (depth : Nat) (id : ModuleId) {statements : List Statement}
    (hs : ∀ s ∈ statements, k.Discreet s) (hown : id = k.own → ∀ s ∈ statements, s.Unaware) :
    k.Parallel Eq (runWithin depth id statements) (runWithin depth id statements) := by
  induction depth generalizing id statements with
  | zero => exact .throw _
  | succ depth ih =>
      exact .forM fun s hmem => parallel_perform (fun id' statements' hid hs' => ih id' hs' fun heq => absurd heq hid)
        id (hs s hmem) fun heq => hown heq s hmem

/-- A body that does not tell the names of its module apart comes to the same under either of them. -/
theorem parallel_run {statements : List Statement} (hs : ∀ s ∈ statements, k.Discreet s)
    (hown : ∀ s ∈ statements, s.Unaware) :
    k.Parallel Eq (Loading.run k.own statements) (Loading.run k.own statements) :=
  parallel_runWithin importDepth k.own hs fun _ => hown

end Bodies

end TwoNames

end GrammarBench
