import Mathlib.Logic.Equiv.Basic
import GrammarBench.Loading.Import
import GrammarBench.Proofs.Choosing

/-!
# Renamed homes

The name of the module that a class says it belongs to only decides what a module offers. When these names are
changed one to one, classes are derived as before, and a module that is renamed along offers the same classes.

* `Class.renamed`, `Module.renamed`: a class and a module with all names of modules changed.
* `Class.define_renamed`: classes are derived alike.
* `Module.candidates_renamed`: a renamed module offers the renamed classes.
-/

namespace GrammarBench

variable {ρ : Equiv.Perm String}

/-! ## Entries -/

namespace Ordered

variable {α β : Type} {f : α → β} {entries : List (String × α)} {key : String}

/-- The entries with all values changed. -/
def mapValues (f : α → β) (entries : List (String × α)) : List (String × β) :=
  entries.map fun e => (e.1, f e.2)

theorem find?_mapValues : find? key (mapValues f entries) = (find? key entries).map f := by
  unfold find? mapValues
  induction entries with
  | nil => rfl
  | cons e rest ih =>
      rw [List.map_cons, List.lookup_cons, List.lookup_cons, ih]
      cases key == e.1 <;> rfl

theorem insert_mapValues (value : α) :
    insert key (f value) (mapValues f entries) = mapValues f (insert key value entries) := by
  induction entries with
  | nil => rfl
  | cons e rest ih =>
      obtain ⟨k, v⟩ := e
      unfold mapValues at ih ⊢
      rw [List.map_cons, insert, insert, ih]
      split <;> rfl

theorem erase_mapValues : erase key (mapValues f entries) = mapValues f (erase key entries) :=
  List.filter_map

end Ordered

/-! ## Layers -/

namespace Layer

/-- The layer with the name of its module changed. -/
def renamed (ρ : Equiv.Perm String) (l : Layer) : Layer := { l with home := ρ l.home }

/-- The layers that are always there. -/
def given : List Layer := [root, watch, lexer, parser, grammarLexer, grammarParser]

/-- The names of the modules of the layers that are always there stay as they are. -/
def Steady (ρ : Equiv.Perm String) : Prop := ∀ l ∈ given, ρ l.home = l.home

theorem Steady.renamed_eq (h : Steady ρ) {l : Layer} (hl : l ∈ given) : l.renamed ρ = l := by
  unfold renamed
  rw [h l hl]

theorem Steady.map_renamed (h : Steady ρ) {layers : List Layer} (hlayers : ∀ l ∈ layers, l ∈ given) :
    layers.map (renamed ρ) = layers :=
  (List.map_congr_left fun l hl => h.renamed_eq (hlayers l hl)).trans (List.map_id _)

end Layer

namespace Class

open Layer (Steady)

/-- The class with the names of the modules of all its layers changed. -/
def renamed (ρ : Equiv.Perm String) (c : Class) : Class := ⟨c.own.renamed ρ, c.behind.map (Layer.renamed ρ)⟩

variable {layers : List Layer} {lists : List (List Layer)} {bases : List Class} {own : Layer}

theorem memberOf?_renamed (name : String) : memberOf? (layers.map (Layer.renamed ρ)) name = memberOf? layers name :=
  List.findSome?_map

theorem hasLayer_renamed (c : Class) (id : Nat) : (c.renamed ρ).hasLayer id = c.hasLayer id := by
  unfold hasLayer
  show ((c.layers.map (Layer.renamed ρ)).any _) = _
  rw [List.any_map]
  rfl

theorem member?_renamed (c : Class) (name : String) : (c.renamed ρ).member? name = c.member? name := by
  show memberOf? (c.layers.map (Layer.renamed ρ)) name = _
  exact memberOf?_renamed name

/-! ## The order of layers -/

theorem nextHead?_renamed :
    nextHead? (lists.map (List.map (Layer.renamed ρ))) = (nextHead? lists).map (Layer.renamed ρ) := by
  unfold nextHead?
  rw [List.findSome?_map, List.map_findSome?]
  congr 1
  funext l
  have hfree (h : Layer) : (lists.map (List.map (Layer.renamed ρ))).all (fun l => l.tail.all (·.id ≠ h.id)) =
      lists.all fun l => l.tail.all (·.id ≠ h.id) := by
    rw [List.all_map]
    congr 1
    funext l
    dsimp only [Function.comp_apply]
    rw [← List.map_tail, List.all_map]
    rfl
  cases l with
  | nil => rfl
  | cons h tail =>
      have hhead : (lists.map (List.map (Layer.renamed ρ))).all (fun l => l.tail.all (·.id ≠ (h.renamed ρ).id)) =
          lists.all fun l => l.tail.all (·.id ≠ h.id) := hfree h
      simp only [Function.comp_apply, List.map_cons, List.head?_cons, Option.filter_some]
      rw [hhead]
      split <;> rfl

theorem dropHead_renamed (h : Layer) (l : List Layer) :
    dropHead (h.renamed ρ) (l.map (Layer.renamed ρ)) = (dropHead h l).map (Layer.renamed ρ) := by
  unfold dropHead
  rw [List.head?_map, ← List.map_tail, Option.any_map]
  exact (apply_ite (List.map (Layer.renamed ρ)) _ _ _).symm

theorem mergeLayers_renamed (rounds : Nat) :
    mergeLayers rounds (lists.map (List.map (Layer.renamed ρ))) =
      match mergeLayers rounds lists with
      | .ok layers => .ok (layers.map (Layer.renamed ρ))
      | .error left => .error (left.map (List.map (Layer.renamed ρ))) := by
  induction rounds generalizing lists with
  | zero => rfl
  | succ rounds ih =>
      have hfilter : (lists.map (List.map (Layer.renamed ρ))).filter (!·.isEmpty) =
          (lists.filter (!·.isEmpty)).map (List.map (Layer.renamed ρ)) := by
        rw [List.filter_map]
        congr 2
        funext l
        exact congrArg _ List.isEmpty_map
      unfold mergeLayers
      dsimp only
      rw [hfilter]
      generalize lists.filter (!·.isEmpty) = lists
      rw [List.isEmpty_map, nextHead?_renamed]
      split
      · rfl
      · cases nextHead? lists with
        | none => rfl
        | some h =>
            have hdropped : (lists.map (List.map (Layer.renamed ρ))).map (dropHead (h.renamed ρ)) =
                (lists.map (dropHead h)).map (List.map (Layer.renamed ρ)) := by
              rw [List.map_map, List.map_map]
              exact List.map_congr_left fun l _ => dropHead_renamed h l
            dsimp only [Option.map_some]
            rw [hdropped, ih]
            cases mergeLayers rounds (lists.map (dropHead h)) <;> rfl

theorem repeated?_renamed : repeated? (bases.map (renamed ρ)) = (repeated? bases).map (renamed ρ) := by
  induction bases with
  | nil => rfl
  | cons c rest ih =>
      have hany : (rest.map (renamed ρ)).any (·.own.id = (c.renamed ρ).own.id) =
          rest.any (·.own.id = c.own.id) := List.any_map
      rw [List.map_cons, repeated?, repeated?, hany, ih]
      split <;> rfl

theorem distinct_renamed (layers : List Layer) :
    distinct (layers.map (Layer.renamed ρ)) = (distinct layers).map (Layer.renamed ρ) := by
  unfold distinct
  rw [List.foldl_map]
  show List.foldl _ (List.map (Layer.renamed ρ) []) layers = _
  refine List.foldl_hom (List.map (Layer.renamed ρ)) fun seen l => ?_
  have hany : (seen.map (Layer.renamed ρ)).any (·.id = (l.renamed ρ).id) = seen.any (·.id = l.id) := List.any_map
  rw [hany]
  split
  · rfl
  · rw [List.map_append]
    rfl

/-- The layers behind a class are ordered alike. -/
theorem order_renamed (bases : List Class) :
    order (bases.map (renamed ρ)) = (order bases).map (List.map (Layer.renamed ρ)) := by
  have hlists : (bases.map (renamed ρ)).map layers ++ [(bases.map (renamed ρ)).map (·.own)] =
      (bases.map layers ++ [bases.map (·.own)]).map (List.map (Layer.renamed ρ)) := by
    simp only [List.map_append, List.map_map, List.map_cons, List.map_nil]
    rfl
  have hlength : ((bases.map layers ++ [bases.map (·.own)]).map (List.map (Layer.renamed ρ))).flatten.length =
      (bases.map layers ++ [bases.map (·.own)]).flatten.length := by
    rw [← List.map_flatten, List.length_map]
  unfold order
  rw [repeated?_renamed]
  cases repeated? bases with
  | some c => rfl
  | none =>
      dsimp only [Option.map_none]
      rw [hlists, hlength, mergeLayers_renamed]
      cases mergeLayers _ (bases.map layers ++ [bases.map (·.own)]) with
      | ok layers => rfl
      | error left =>
          have hheads : (left.map (List.map (Layer.renamed ρ))).filterMap List.head? =
              (left.filterMap List.head?).map (Layer.renamed ρ) := by
            rw [List.filterMap_map, List.map_filterMap]
            congr 1
            funext l
            exact List.head?_map
          dsimp only
          rw [hheads, distinct_renamed, List.map_map]
          rfl

/-! ## New classes -/

theorem missingIn_renamed (members : List (String × Member)) :
    missingIn (bases.map (renamed ρ)) members (layers.map (Layer.renamed ρ)) = missingIn bases members layers := by
  unfold missingIn
  rw [List.flatMap_map]
  simp only [memberOf?_renamed]
  rfl

theorem derive_renamed (hρ : Steady ρ) (own : Layer) (bases : List Class) :
    derive (own.renamed ρ) (bases.map (renamed ρ)) = (derive own bases).map (renamed ρ) := by
  have hroot : [root] = [root].map (renamed ρ) :=
    congrArg (fun l => [(⟨l, []⟩ : Class)]) (hρ.renamed_eq (l := Layer.root) List.mem_cons_self).symm
  have hbases : (if (bases.map (renamed ρ)).isEmpty then [root] else bases.map (renamed ρ)) =
      (if bases.isEmpty then [root] else bases).map (renamed ρ) := by
    rw [List.isEmpty_map]
    split
    · exact hroot
    · rfl
  unfold derive
  dsimp only
  rw [hbases, order_renamed]
  generalize (if bases.isEmpty then [root] else bases) = bases
  cases order bases with
  | error f => rfl
  | ok behind =>
      have hwatched : (behind.map (Layer.renamed ρ)).any (·.watched) = behind.any (·.watched) := List.any_map
      have hmissing : missingIn (bases.map (renamed ρ)) own.members ((own :: behind).map (Layer.renamed ρ)) =
          missingIn bases own.members (own :: behind) := missingIn_renamed own.members
      show Except.ok _ = Except.ok _
      simp only [hwatched]
      rw [show missingIn (bases.map (renamed ρ)) (own.renamed ρ).members
        (own.renamed ρ :: behind.map (Layer.renamed ρ)) = _ from hmissing]
      rfl

theorem withTable_renamed (c : Class) : (c.renamed ρ).withTable = c.withTable.map (renamed ρ) := by
  unfold withTable isParser
  rw [hasLayer_renamed, member?_renamed]
  split
  · cases RuleTable.ofMember ((c.member? tableName).getD (.table [])) <;> rfl
  · rfl

/-- Classes are derived alike. -/
theorem define_renamed (hρ : Steady ρ) (own : Layer) (bases : List Class) :
    define (own.renamed ρ) (bases.map (renamed ρ)) = (define own bases).map (renamed ρ) := by
  unfold define
  rw [show located (own.renamed ρ) = (located own).renamed ρ from rfl, derive_renamed hρ]
  cases derive (located own) bases with
  | error f => rfl
  | ok c => exact withTable_renamed c

theorem renamed_eq (hρ : Steady ρ) {c : Class} (hc : ∀ l ∈ c.layers, l ∈ Layer.given) : c.renamed ρ = c := by
  have hown := hρ.renamed_eq (hc c.own List.mem_cons_self)
  have hbehind := hρ.map_renamed fun l hl => hc l (List.mem_cons_of_mem _ hl)
  unfold renamed
  rw [hown, hbehind]

theorem lexer_renamed (hρ : Steady ρ) : lexer.renamed ρ = lexer :=
  renamed_eq hρ (by simp [layers, lexer, watch, Layer.given])

theorem parser_renamed (hρ : Steady ρ) : parser.renamed ρ = parser :=
  renamed_eq hρ (by simp [layers, parser, watch, Layer.given])

theorem grammarLexer_renamed (hρ : Steady ρ) : grammarLexer.renamed ρ = grammarLexer :=
  renamed_eq hρ (by simp [layers, grammarLexer, lexer, watch, Layer.given])

theorem grammarParser_renamed (hρ : Steady ρ) : grammarParser.renamed ρ = grammarParser :=
  renamed_eq hρ (by simp [layers, grammarParser, parser, watch, Layer.given])

theorem grammarName_renamed (c : Class) (suffix : String) : (c.renamed ρ).grammarName suffix = c.grammarName suffix := by
  unfold grammarName
  rw [member?_renamed]
  rfl

theorem fits_renamed (r : Role) (c : Class) : r.fits (c.renamed ρ) = r.fits c := by
  unfold Role.fits isLexer isParser
  rw [hasLayer_renamed, hasLayer_renamed]
  rfl

end Class

/-! ## Modules -/

/-- What a name stands for, with the names of the modules of a class changed. -/
def Bound.renamed (ρ : Equiv.Perm String) : Bound → Bound
  | .type c => .type (c.renamed ρ)
  | b => b

namespace Bound

theorem type_renamed (b : Bound) : Loading.boundType (b.renamed ρ) = Loading.boundType b := by
  cases b with
  | type c =>
      show (if (c.behind.map (Layer.renamed ρ)).any (·.watched) then _ else _) = _
      rw [List.any_map]
      rfl
  | _ => rfl

theorem notABase_renamed (b : Bound) : Loading.notABase (b.renamed ρ) = Loading.notABase b := by
  cases b <;> rfl

/-- The classes among what the bases of a class stand for, or the failure of deriving a class from anything else. -/
def classesIn (bases : List Bound) : Except Failure (List Class) :=
  match bases.mapM Loading.classOf?, bases with
  | some classes, _ => .ok classes
  | none, [] => .ok []
  | none, b :: rest =>
    .error (if rest.all fun c => Loading.boundType c = Loading.boundType b then Loading.notABase b
      else Loading.mixedBases)

theorem basesOf_eq (m : Module) (names : List String) :
    Loading.basesOf m names = names.mapM (Loading.baseOf m) >>= classesIn := rfl

theorem classesIn_renamed (bases : List Bound) :
    classesIn (bases.map (renamed ρ)) = (classesIn bases).map (List.map (Class.renamed ρ)) := by
  have hclasses : (bases.map (renamed ρ)).mapM Loading.classOf? =
      (bases.mapM Loading.classOf?).map (List.map (Class.renamed ρ)) := by
    induction bases with
    | nil => rfl
    | cons b rest ih =>
        rw [List.map_cons, List.mapM_cons, List.mapM_cons, ih]
        cases b <;> first | rfl | (cases rest.mapM Loading.classOf? <;> rfl)
  unfold classesIn
  rw [hclasses]
  cases bases.mapM Loading.classOf? with
  | some classes => rfl
  | none =>
      cases bases with
      | nil => rfl
      | cons b rest =>
          have hall : (rest.map (renamed ρ)).all (fun c => Loading.boundType c = Loading.boundType (b.renamed ρ)) =
              rest.all fun c => Loading.boundType c = Loading.boundType b := by
            rw [List.all_map]
            simp only [type_renamed, Function.comp_def]
          simp only [Option.map_none, List.map_cons, hall, notABase_renamed]
          rfl

end Bound

namespace Module

open Layer (Steady)

/-- Two modules that only differ in their files and in the names of modules, their own and those that classes
say they belong to. -/
structure Twin (ρ : Equiv.Perm String) (m m' : Module) : Prop where
  name : m'.name = ρ m.name
  names : m'.names = Ordered.mapValues (Bound.renamed ρ) m.names
  parts : m'.parts = m.parts
  loading : m'.loading = m.loading
  /-- The name that a module knows itself by is not bound. -/
  unbound : Ordered.find? "__name__" m.names = none

/-- The choice among the classes that can play a role. -/
def pick (m : Module) (r : Role) (grammar : Option String) : List Class → Except Failure Class
  | [] => .error (m.absent grammar r)
  | [c] => .ok c
  | several => .error (tooMany r several)

theorem chosen_of_ok {m : Module} {r : Role} {grammar : Option String} {classes : List Class}
    (h : m.candidates r grammar = .ok classes) : m.chosen r grammar = m.pick r grammar classes := by
  unfold chosen
  rw [h]
  rcases classes with _ | ⟨c, _ | ⟨d, rest⟩⟩ <;> rfl

theorem chosen_of_error {m : Module} {r : Role} {grammar : Option String} {f : Failure}
    (h : m.candidates r grammar = .error f) : m.chosen r grammar = .error f := by
  unfold chosen
  rw [h]
  rfl

namespace Twin

variable {m m' : Module} {name : String}

theorem find? (h : Twin ρ m m') (name : String) :
    Ordered.find? name m'.names = (Ordered.find? name m.names).map (Bound.renamed ρ) := by
  rw [h.names, Ordered.find?_mapValues]

/-- What a name stands for, for all names that do not tell the modules apart. -/
theorem get? (h : Twin ρ m m') (hname : name = "__name__" → m'.name = m.name)
    (hfile : name = "__file__" → m'.file = m.file) : m'.get? name = (m.get? name).map (Bound.renamed ρ) := by
  unfold Module.get?
  rw [h.find?]
  cases Ordered.find? name m.names with
  | some b => rfl
  | none =>
      dsimp only [Option.map_none]
      split
      · rw [hname rfl]
        rfl
      · rfl
      · rw [hfile rfl, Option.map_map]
        rfl
      · rfl

theorem ownName_left (h : Twin ρ m m') : m.ownName = m.name := by
  unfold ownName Module.get?
  rw [h.unbound]
  rfl

theorem ownName_right (h : Twin ρ m m') : m'.ownName = ρ m.name := by
  unfold ownName Module.get?
  rw [h.find?, h.unbound, ← h.name]
  rfl

theorem bind (h : Twin ρ m m') (hname : name ≠ "__name__") (b : Bound) :
    Twin ρ (m.bind name b) (m'.bind name (b.renamed ρ)) where
  name := h.name
  names := by
    show Ordered.insert name (b.renamed ρ) m'.names = _
    rw [h.names, Ordered.insert_mapValues]
    rfl
  parts := h.parts
  loading := h.loading
  unbound := (Ordered.find?_insert_ne (Ne.symm hname) b m.names).trans h.unbound

theorem unbind (h : Twin ρ m m') (hname : name ≠ "__name__") : Twin ρ (m.unbind name) (m'.unbind name) where
  name := h.name
  names := by
    show Ordered.erase name m'.names = _
    rw [h.names, Ordered.erase_mapValues]
    rfl
  parts := h.parts
  loading := h.loading
  unbound := (Ordered.find?_erase_ne (Ne.symm hname) m.names).trans h.unbound

/-! ## Bases -/

theorem baseOf (h : Twin ρ m m') (hρ : Steady ρ) (hname : name = "__name__" → m'.name = m.name)
    (hfile : name = "__file__" → m'.file = m.file) :
    Loading.baseOf m' name = (Loading.baseOf m name).map (Bound.renamed ρ) := by
  unfold Loading.baseOf
  rw [h.get? hname hfile]
  split
  · exact congrArg (fun c => Except.ok (Bound.type c)) (Class.lexer_renamed hρ).symm
  · split
    · exact congrArg (fun c => Except.ok (Bound.type c)) (Class.parser_renamed hρ).symm
    · cases m.get? name <;> rfl

theorem basesOf (h : Twin ρ m m') (hρ : Steady ρ) {names : List String}
    (hnames : "__name__" ∈ names → m'.name = m.name) (hfiles : "__file__" ∈ names → m'.file = m.file) :
    Loading.basesOf m' names = (Loading.basesOf m names).map (List.map (Class.renamed ρ)) := by
  have hbases : names.mapM (Loading.baseOf m') =
      (names.mapM (Loading.baseOf m)).map (List.map (Bound.renamed ρ)) := by
    induction names with
    | nil => rfl
    | cons name rest ih =>
        rw [List.mapM_cons, List.mapM_cons,
          h.baseOf hρ (fun heq => hnames (heq ▸ List.mem_cons_self)) fun heq => hfiles (heq ▸ List.mem_cons_self),
          ih (fun hmem => hnames (List.mem_cons_of_mem _ hmem)) fun hmem => hfiles (List.mem_cons_of_mem _ hmem)]
        cases Loading.baseOf m name with
        | error f => rfl
        | ok b => cases rest.mapM (Loading.baseOf m) <;> rfl
  rw [Bound.basesOf_eq, Bound.basesOf_eq, hbases]
  cases names.mapM (Loading.baseOf m) with
  | error f => rfl
  | ok bases => exact Bound.classesIn_renamed bases

/-! ## The classes on offer -/

theorem typesOf_mapValues (entries : List (String × Bound)) :
    typesOf ((Ordered.mapValues (Bound.renamed ρ) entries).map (·.2)) =
      (typesOf (entries.map (·.2))).map (Class.renamed ρ) := by
  unfold typesOf Ordered.mapValues
  rw [List.map_map, List.filterMap_map, List.filterMap_map, List.map_filterMap]
  refine List.filterMap_congr fun e _ => ?_
  obtain ⟨n, b⟩ := e
  cases b <;> rfl

/-- What some names stand for, where they stand for classes. -/
theorem typesOf_filterMap (h : Twin ρ m m') (names : List String) :
    typesOf (names.filterMap m'.get?) = (typesOf (names.filterMap m.get?)).map (Class.renamed ρ) := by
  unfold typesOf
  rw [List.filterMap_filterMap, List.filterMap_filterMap, List.map_filterMap]
  refine List.filterMap_congr fun name _ => ?_
  unfold Module.get?
  rw [h.find?]
  cases Ordered.find? name m.names with
  | some b => cases b <;> rfl
  | none =>
      dsimp only [Option.map_none]
      split
      · rfl
      · rfl
      · cases m.file <;> cases m'.file <;> rfl
      · rfl

theorem offered (h : Twin ρ m m') : m'.offered = m.offered.map (List.map (Class.renamed ρ)) := by
  have hshown : typesOf (m'.names.map (·.2)) = (typesOf (m.names.map (·.2))).map (Class.renamed ρ) := by
    rw [h.names, typesOf_mapValues]
  have hown : ((typesOf (m'.names.map (·.2))).filter fun c => c.home = m'.ownName) =
      ((typesOf (m.names.map (·.2))).filter fun c => c.home = m.ownName).map (Class.renamed ρ) := by
    rw [hshown, List.filter_map, h.ownName_left, h.ownName_right]
    congr 2
    funext c
    exact decide_eq_decide.mpr ρ.injective.eq_iff
  have hlisted (items : List Value) : (m'.listed items).map typesOf =
      ((m.listed items).map typesOf).map (List.map (Class.renamed ρ)) := by
    unfold Module.listed
    generalize (items.mapM _ : Except Failure (List String)) = names
    cases names with
    | error f => rfl
    | ok names => exact congrArg Except.ok (h.typesOf_filterMap names)
  unfold Module.offered
  rw [h.get? (fun hname => absurd hname (by decide)) (fun hfile => absurd hfile (by decide))]
  cases m.get? listName with
  | none => exact congrArg Except.ok hown
  | some b =>
      cases b with
      | value v =>
          cases v <;> first
            | exact congrArg Except.ok hown
            | (dsimp only [Option.map_some, Bound.renamed]
               split
               · exact hlisted _
               · rfl)
      | type c =>
          show RuleTable.notIterable (if (c.behind.map (Layer.renamed ρ)).any (·.watched) then _ else _) = _
          rw [List.any_map]
          rfl
      | module name => rfl

theorem candidates (h : Twin ρ m m') (r : Role) (grammar : Option String) :
    m'.candidates r grammar = (m.candidates r grammar).map (List.map (Class.renamed ρ)) := by
  unfold Module.candidates
  rw [h.offered]
  cases m.offered with
  | error f => rfl
  | ok types =>
      have hfits : (types.map (Class.renamed ρ)).filter r.fits = (types.filter r.fits).map (Class.renamed ρ) := by
        rw [List.filter_map]
        congr 2
        funext c
        exact Class.fits_renamed r c
      cases grammar with
      | none => exact congrArg Except.ok hfits
      | some g =>
          show ((types.map (Class.renamed ρ)).filter r.fits).filterM (fun c => do
            return (← c.grammarName r.suffix) = Text.toLower g) = Except.map _
              ((types.filter r.fits).filterM fun c => do return (← c.grammarName r.suffix) = Text.toLower g)
          rw [hfits, Outcome.filterM_map]
          simp only [Function.comp_def, Class.grammarName_renamed]

theorem chosen (h : Twin ρ m m') (r : Role) (grammar : Option String) :
    (∃ c, m.chosen r grammar = .ok c ∧ m'.chosen r grammar = .ok (c.renamed ρ)) ∨
      (∃ f, m.chosen r grammar = .error f ∧ m'.chosen r grammar = .error f) ∨
      (m.chosen r grammar = .error (m.absent grammar r) ∧ m'.chosen r grammar = .error (m'.absent grammar r)) := by
  have hcandidates := h.candidates r grammar
  cases hfound : m.candidates r grammar with
  | error f =>
      rw [hfound] at hcandidates
      exact Or.inr (Or.inl ⟨f, chosen_of_error hfound, chosen_of_error hcandidates⟩)
  | ok classes =>
      rw [hfound] at hcandidates
      rw [chosen_of_ok hfound, chosen_of_ok hcandidates]
      rcases classes with _ | ⟨c, _ | ⟨d, rest⟩⟩
      · exact Or.inr (Or.inr ⟨rfl, rfl⟩)
      · exact Or.inl ⟨c, rfl, rfl⟩
      · have hnames : ((c :: d :: rest).map (Class.renamed ρ)).map (·.name) = (c :: d :: rest).map (·.name) :=
          List.map_map
        refine Or.inr (Or.inl ⟨tooMany r (c :: d :: rest), rfl, ?_⟩)
        unfold tooMany
        rw [← hnames]
        rfl

end Twin

/-- What comes of the choice of a lexer class and a parser class in two modules, the same but for the names of
modules: those that the classes say they belong to, and that of the module in which no class is found. -/
inductive SameChoice (ρ : Equiv.Perm String) (m m' : Module) (grammar : Option String) :
    Except Failure (Class × Class) → Except Failure (Class × Class) → Prop where
  | pair (lexer parser : Class) :
      SameChoice ρ m m' grammar (.ok (lexer, parser)) (.ok (lexer.renamed ρ, parser.renamed ρ))
  | failure (f : Failure) : SameChoice ρ m m' grammar (.error f) (.error f)
  | absent (r : Role) :
      SameChoice ρ m m' grammar (.error (m.absent grammar r)) (.error (m'.absent grammar r))

/-- A lexer class and a parser class are chosen alike. -/
theorem Twin.resolve {m m' : Module} (h : Twin ρ m m') (grammar : Option String) (w w' : World) :
    SameChoice ρ m m' grammar (w.run (m.resolve grammar)).1 (w'.run (m'.resolve grammar)).1 := by
  rw [run_resolve, run_resolve]
  rcases h.chosen .lexer grammar with ⟨lexer, hl, hl'⟩ | ⟨f, hl, hl'⟩ | ⟨hl, hl'⟩ <;> rw [hl, hl']
  · rcases h.chosen .parser grammar with ⟨parser, hp, hp'⟩ | ⟨f, hp, hp'⟩ | ⟨hp, hp'⟩ <;> rw [hp, hp']
    · exact .pair lexer parser
    · exact .failure f
    · exact .absent .parser
  · exact .failure f
  · exact .absent .lexer

end Module

end GrammarBench
