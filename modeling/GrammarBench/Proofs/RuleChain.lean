import Mathlib.Data.List.Infix
import GrammarBench.Proofs.ClassOrder
import GrammarBench.Proofs.RuleLine

/-!
# Rules along a chain

A chain of classes, each with the class above for its only base, down from the parser class. A class may
set a table of its own, which stands for everything above it; whatever the classes say, the names and the
entries of the last table can be told from the classes as they were written.

* `Class.chain`: the last class of a chain.
* `RuleTable.namesAfter`, `RuleTable.entryAfter?`: what a table comes to in some classes.
* `RuleTable.Reads`: a table with these names and entries; every class makes one of another.
* `Class.chain_rules`: the names and entries of the last class, with the classes above as they were.
-/

namespace GrammarBench

open GrammarBench.Class

/-! ## Names without repetitions -/

theorem eraseDups_of_nodup {names : List String} (h : names.Nodup) : names.eraseDups = names := by
  induction names with
  | nil => rfl
  | cons a rest ih =>
      obtain ⟨ha, hrest⟩ := List.nodup_cons.mp h
      have hkept : rest.filter (fun b => !b == a) = rest := by
        rw [List.filter_eq_self]
        intro b hb
        simpa using fun heq : b = a => ha (heq ▸ hb)
      rw [List.eraseDups_cons, hkept, ih hrest]

theorem eraseDups_concat (names : List String) (a : String) :
    (names ++ [a]).eraseDups = if a ∈ names then names.eraseDups else names.eraseDups ++ [a] := by
  rw [List.eraseDups_append]
  by_cases ha : a ∈ names
  · simp [ha, List.removeAll]
  · simp [ha, List.removeAll, List.eraseDups_cons]

namespace Ordered

variable {α : Type}

/-- A key that is there keeps its place, and a new one comes last. -/
theorem keys_insert (key : String) (value : α) (entries : List (String × α)) :
    (insert key value entries).map (·.1) =
      if key ∈ entries.map (·.1) then entries.map (·.1) else entries.map (·.1) ++ [key] := by
  induction entries with
  | nil => simp [insert]
  | cons e rest ih =>
      obtain ⟨k, v⟩ := e
      unfold insert
      by_cases hk : k = key
      · simp [hk]
      · rw [if_neg hk, List.map_cons, ih]
        simp only [List.map_cons, List.mem_cons, Ne.symm hk, false_or]
        split <;> rfl

theorem isSome_find? (key : String) (entries : List (String × α)) :
    (find? key entries).isSome = (entries.map (·.1)).contains key := by
  unfold find?
  induction entries with
  | nil => rfl
  | cons e rest ih =>
      obtain ⟨k, v⟩ := e
      rw [List.lookup_cons, List.map_cons, List.contains_cons, ← ih]
      cases key == k <;> rfl

end Ordered

/-! ## Classes and tables -/

namespace Layer

/-- The names that a class marks as rules, in the order of its members. -/
def marks (l : Layer) : List String := (l.members.filter (·.2.isMarked)).map (·.1)

/-- What a class enters into a table under a name, when some names stand there already. -/
def entered? (l : Layer) (names : List String) (name : String) : Option Entry :=
  if l.decorates name || names.contains name then l.callable? name else none

/-- The table that a class sets, with the paths of its functions. -/
def explicit? (l : Layer) : Option RuleTable :=
  match Ordered.find? tableName l.members with
  | some (.table entries) => some (RuleTable.located l.name tableName entries)
  | _ => none

/-- A class whose members have different names, with nothing but a table under the name for one. -/
structure Tidy (l : Layer) : Prop where
  keys : (l.members.map (·.1)).Nodup
  tables : ∀ m, Ordered.find? tableName l.members = some m →
    ∃ entries, m = .table entries ∧ (entries.map (·.1)).Nodup

end Layer

namespace RuleTable

/-- The names of a table when some classes, the latest one first, have entered what they mark: every name
stands where it came first. -/
def namesAfter (table : RuleTable) (line : List Layer) : List String :=
  (table.map (·.1) ++ line.reverse.flatMap Layer.marks).eraseDups

/-- What stands under a name then: what the latest of the classes has entered that enters anything, and
otherwise what stood there before. -/
def entryAfter? (table : RuleTable) (line : List Layer) (name : String) : Option Entry :=
  (line.tails.findSome? fun
    | [] => none
    | l :: above => l.entered? (namesAfter table above) name).or (Ordered.find? name table)

theorem namesAfter_cons (table : RuleTable) (l : Layer) (above : List Layer) :
    namesAfter table (l :: above) =
      ((table.map (·.1) ++ above.reverse.flatMap Layer.marks) ++ l.marks).eraseDups := by
  unfold namesAfter
  rw [List.reverse_cons, List.flatMap_append, List.flatMap_singleton, List.append_assoc]

theorem entryAfter?_cons (table : RuleTable) (l : Layer) (above : List Layer) (name : String) :
    entryAfter? table (l :: above) name =
      (l.entered? (namesAfter table above) name).or (entryAfter? table above name) := by
  unfold entryAfter?
  rw [List.tails_cons, List.findSome?_cons]
  dsimp only
  cases l.entered? (namesAfter table above) name <;> rfl

/-! ## One class -/

/-- One member adds its name just if it is marked. -/
theorem keys_enter {names : List String} {table : RuleTable} (h : table.map (·.1) = names.eraseDups)
    (owner : String) (member : String × Member) :
    (enter owner table member).map (·.1) =
      (names ++ if member.2.isMarked then [member.1] else []).eraseDups := by
  obtain ⟨key, m⟩ := member
  have hkey : key ∈ table.map (·.1) ↔ key ∈ names := by rw [h, List.mem_eraseDups]
  unfold enter
  dsimp only
  cases hmarked : m.isMarked with
  | true =>
      obtain ⟨e, he⟩ := Option.isSome_iff_exists.mp (callable?_of_isMarked hmarked owner key)
      rw [he]
      dsimp only
      rw [Bool.true_or, if_pos rfl, if_pos rfl, Ordered.keys_insert, eraseDups_concat, h]
      simp only [List.mem_eraseDups]
  | false =>
      rw [if_neg Bool.false_ne_true, List.append_nil, ← h, Bool.false_or, Ordered.isSome_find?]
      cases callable? owner key m with
      | none => rfl
      | some e =>
          dsimp only
          split
          · next hthere => rw [Ordered.keys_insert, if_pos (List.contains_iff_mem.mp hthere)]
          · rfl

theorem keys_extended {names : List String} {table : RuleTable} (h : table.map (·.1) = names.eraseDups)
    (owner : String) (members : List (String × Member)) :
    (table.extended owner members).map (·.1) =
      (names ++ (members.filter (·.2.isMarked)).map (·.1)).eraseDups := by
  induction members generalizing table names with
  | nil => rw [List.filter_nil, List.map_nil, List.append_nil, ← h]; rfl
  | cons member rest ih =>
      show ((enter owner table member).extended owner rest).map (·.1) = _
      rw [ih (keys_enter h owner member), List.filter_cons, List.append_assoc]
      cases member.2.isMarked <;> rfl

theorem isMarked_locatedMember (owner name : String) (m : Member) :
    (locatedMember owner name m).isMarked = m.isMarked := by
  cases m <;> rfl

theorem callable?_locatedMember (owner key name : String) (m : Member) :
    callable? owner name (locatedMember owner key m) = callable? owner name m := by
  cases m <;> rfl

/-- What a class leaves under a name is what it enters there itself, and otherwise what it has found. -/
theorem taken_located (own : Layer) (name : String) (table : RuleTable) :
    taken own.name name (Ordered.find? name table) (Ordered.find? name (Class.located own).members) =
      (own.entered? (table.map (·.1)) name).or (Ordered.find? name table) := by
  unfold Layer.entered? Layer.decorates Layer.callable? taken
  rw [find?_located, ← Ordered.isSome_find?]
  cases Ordered.find? name own.members with
  | none => simp
  | some m =>
      simp only [Option.map_some, Option.any_some, Option.bind_some, callable?_locatedMember,
        isMarked_locatedMember]
      cases callable? own.name name m with
      | none => simp
      | some e =>
          dsimp only
          split <;> rfl

/-- A table with the names and the entries that it has after some classes. -/
structure Reads (table : RuleTable) (start : RuleTable) (line : List Layer) : Prop where
  names : table.map (·.1) = namesAfter start line
  entries : ∀ name, Ordered.find? name table = entryAfter? start line name

theorem Reads.start {table : RuleTable} (h : (table.map (·.1)).Nodup) : Reads table table [] where
  names := by
    unfold namesAfter
    rw [List.reverse_nil, List.flatMap_nil, List.append_nil, eraseDups_of_nodup h]
  entries := fun _ => rfl

/-- One more class. -/
theorem Reads.extended {table start : RuleTable} {line : List Layer} (h : Reads table start line)
    {own : Layer} (hown : (own.members.map (·.1)).Nodup) :
    Reads (table.extended own.name (Class.located own).members) start (own :: line) where
  names := by
    have hmarks : ((Class.located own).members.filter (·.2.isMarked)).map (·.1) = own.marks := by
      unfold Class.located Layer.marks
      dsimp only
      rw [List.filter_map, List.map_map]
      have hsame : (fun m : String × Member => m.2.isMarked) ∘
          (fun m : String × Member => (m.1, locatedMember own.name m.1 m.2)) = fun m => m.2.isMarked :=
        funext fun m => isMarked_locatedMember own.name m.1 m.2
      exact congrArg (fun marked => (own.members.filter marked).map (·.1)) hsame
    rw [keys_extended h.names, hmarks, namesAfter_cons]
  entries := fun name => by
    have hkeys : ((Class.located own).members.map (·.1)).Nodup := by
      unfold Class.located
      dsimp only
      rw [List.map_map]
      exact hown
    rw [find?_extended own.name name hkeys, taken_located, entryAfter?_cons, h.names, h.entries]

end RuleTable

/-! ## Chains -/

namespace Class

/-- The last class of a chain that is given with its latest class first: each class has the next one for
its only base, and the first of them all the parser class. -/
def chain : List Layer → Except Failure Class
  | [] => .ok Class.parser
  | own :: above => do define own [← chain above]

/-- The table that the nearest class sets which sets one. -/
def nearestTable (line : List Layer) : RuleTable := (line.findSome? (·.explicit?)).getD []

/-- The classes down from the nearest one that sets a table, or all of them when none does. -/
def reach (line : List Layer) : List Layer :=
  line.takeWhile (·.explicit?.isNone) ++ (line.find? (·.explicit?.isSome)).toList

theorem reach_cons_some {own : Layer} {table : RuleTable} (h : own.explicit? = some table)
    (above : List Layer) : nearestTable (own :: above) = table ∧ reach (own :: above) = [own] := by
  unfold nearestTable reach
  simp [h]

theorem reach_cons_none {own : Layer} (h : own.explicit? = none) (above : List Layer) :
    nearestTable (own :: above) = nearestTable above ∧ reach (own :: above) = own :: reach above := by
  unfold nearestTable reach
  simp [h]

/-- The last class of a chain: a parser class with a number of its own, whose table has the names and the
entries that it has after the classes down from the nearest table. -/
structure Chained (line : List Layer) (c : Class) : Prop where
  parser : c.isParser = true
  ids : c.layers.map (·.id) = (line ++ Class.parser.layers).map (·.id)
  table : ∃ table, Ordered.find? tableName c.own.members = some (.table table) ∧
    RuleTable.Reads table (nearestTable line) (reach line)

theorem chained_top : Chained [] Class.parser where
  parser := rfl
  ids := rfl
  table := ⟨[], rfl, RuleTable.Reads.start List.nodup_nil⟩

/-- The table from which a new class starts, and the classes that have made it. -/
theorem Chained.start {above : List Layer} {b : Class} (h : Chained above b) {own : Layer}
    (hown : own.Tidy) : ∃ start line, 
      RuleTable.ofMember (((Ordered.find? tableName (located own).members).or
        (memberOf? b.layers tableName)).getD (.table [])) = .ok start ∧
      reach (own :: above) = own :: line ∧ RuleTable.Reads start (nearestTable (own :: above)) line := by
  rw [find?_located]
  cases hfind : Ordered.find? tableName own.members with
  | none =>
      have hnone : own.explicit? = none := by
        unfold Layer.explicit?
        rw [hfind]
      obtain ⟨htable, hreach⟩ := reach_cons_none hnone above
      obtain ⟨table, hbase, hreads⟩ := h.table
      refine ⟨table, reach above, ?_, hreach, htable ▸ hreads⟩
      have hmember : b.member? tableName = some (.table table) := by
        rw [member?_eq, hbase]
        rfl
      show RuleTable.ofMember ((b.member? tableName).getD _) = _
      rw [hmember]
      rfl
  | some m =>
      obtain ⟨entries, rfl, hnodup⟩ := hown.tables m hfind
      have hsome : own.explicit? = some (RuleTable.located own.name tableName entries) := by
        unfold Layer.explicit?
        rw [hfind]
      obtain ⟨htable, hreach⟩ := reach_cons_some hsome above
      refine ⟨RuleTable.located own.name tableName entries, [], rfl, hreach, ?_⟩
      rw [htable]
      refine RuleTable.Reads.start ?_
      unfold RuleTable.located
      rw [List.map_map]
      exact hnodup

/-- One more class of a chain can be defined, and has the classes above behind it as they were. -/
theorem Chained.define {above : List Layer} {b : Class} (h : Chained above b) {own : Layer}
    (hown : own.Tidy) (hids : ((own :: above ++ Class.parser.layers).map (·.id)).Nodup) :
    ∃ c, Class.define own [b] = .ok c ∧ c.behind = b.layers ∧ Chained (own :: above) c := by
  have hbehind : order [b] = .ok b.layers := order_single (by
    rw [h.ids]
    exact (List.nodup_cons.mp hids).2)
  obtain ⟨start, line, hstart, hreach, hreads⟩ := h.start hown
  obtain ⟨d, hderive⟩ : ∃ d, derive (located own) [b] = .ok d := by
    unfold derive
    simp only [List.isEmpty_cons, Bool.false_eq_true, if_false, hbehind]
    exact ⟨_, rfl⟩
  obtain ⟨horder, hid, -, -, hmembers⟩ := derive_ok hderive
  have hlayers : d.behind = b.layers := Except.ok.inj (horder.symm.trans hbehind)
  obtain ⟨c, hc⟩ : ∃ c, Class.define own [b] = .ok c := by
    have htable : RuleTable.ofMember ((d.member? tableName).getD (.table [])) = .ok start := by
      rw [member?_eq, hmembers, hlayers]
      exact hstart
    exact exists_define hderive htable
  have hdefines := defines_of_define hc
  have hbehind' : c.behind = b.layers := hdefines.behind_eq hbehind
  have hparser : c.isParser = true := hasLayer_of_behind hbehind' h.parser
  obtain ⟨start', hstart', hown'⟩ := table_of_define hc hparser
  refine ⟨c, hc, hbehind', hparser, ?_, ?_⟩
  · show c.own.id :: c.behind.map (·.id) = _
    rw [hdefines.id, hbehind', h.ids]
    rfl
  · rw [hbehind', hstart] at hstart'
    cases hstart'
    exact ⟨_, by rw [hown', Ordered.find?_insert_self], hreach ▸ hreads.extended hown.keys⟩

/-- The whole chain can be defined, and so can every part of it that starts at the parser class. -/
theorem exists_chain {line : List Layer} (htidy : ∀ l ∈ line, l.Tidy)
    (hids : ((line ++ Class.parser.layers).map (·.id)).Nodup) :
    ∃ c, chain line = .ok c ∧ Chained line c ∧
      ∀ above, above <:+ line → ∃ b, chain above = .ok b ∧ b.layers <:+ c.layers := by
  induction line with
  | nil =>
      refine ⟨Class.parser, rfl, chained_top, fun above habove => ⟨Class.parser, ?_, List.suffix_refl _⟩⟩
      rw [List.suffix_nil.mp habove]
      rfl
  | cons own above ih =>
      obtain ⟨b, hb, hchained, hparts⟩ := ih (fun l hl => htidy l (List.mem_cons_of_mem own hl))
        (List.nodup_cons.mp hids).2
      obtain ⟨c, hc, hbehind, hchained'⟩ := hchained.define (htidy own List.mem_cons_self) hids
      have hwhole : chain (own :: above) = .ok c := by
        show (chain above >>= fun b => define own [b]) = _
        rw [hb]
        exact hc
      refine ⟨c, hwhole, hchained', fun part hpart => ?_⟩
      rcases List.suffix_cons_iff.mp hpart with rfl | hpart
      · exact ⟨c, hwhole, List.suffix_refl _⟩
      · obtain ⟨p, hp, hlayers⟩ := hparts part hpart
        refine ⟨p, hp, hlayers.trans ?_⟩
        rw [← hbehind]
        exact List.suffix_cons c.own c.behind

/-- **Rules along a chain.** However the classes of a chain are written, with different members each and
nothing but a table under the name for one, the last of them can be defined. Its table has the names of the
nearest table and those that the classes down from there mark, in the order in which they came first, each
with what the latest class has entered that could call the name and had it marked or found it in the table,
or else with what the nearest table has there. The classes above stand behind it as they were. -/
theorem chain_rules (line : List Layer) (htidy : ∀ l ∈ line, l.Tidy)
    (hids : ((line ++ Class.parser.layers).map (·.id)).Nodup) :
    let names := RuleTable.namesAfter (nearestTable line) (reach line)
    let found? := RuleTable.entryAfter? (nearestTable line) (reach line)
    ∃ c, chain line = .ok c ∧ c.ruleNames = .ok names ∧
      (∀ name, c.rule name = (found? name).elim (.error (.report (.noSuchRule name names))) .ok) ∧
      ∀ above, above <:+ line → ∃ b, chain above = .ok b ∧ b.layers <:+ c.layers := by
  intro names found?
  obtain ⟨c, hc, hchained, hparts⟩ := exists_chain htidy hids
  obtain ⟨table, hown, hreads⟩ := hchained.table
  have hmember : c.member? tableName = some (.table table) := by
    rw [member?_eq, hown]
    rfl
  refine ⟨c, hc, ?_, fun name => ?_, hparts⟩
  · unfold ruleNames
    rw [hchained.parser, hmember]
    exact congrArg Except.ok hreads.names
  · have htable : (c.member? tableName).getD (.table []) = .table table := by
      rw [hmember]
      rfl
    rw [rule_of_table htable, hreads.entries, hreads.names]

/-- A function that gives a text. -/
def giving (text : String) : Function := { body := .give (.leaf (.text text)) }

/-- A chain in which the second class of four from above sets a table: it enters one of its own functions
there in the place of a value, the third class enters one that is still to be defined, and a value and a
function without a mark count for nothing. -/
def layeredLine : List Layer :=
  [{ id := 9, name := "D", home := "m", members := [("d", .function true (giving "d")),
      ("c", .function true (giving "c"))] },
    { id := 8, name := "C", home := "m", members := [("x", .value .null), ("c", .function false (giving "e")),
      ("b", .missing)] },
    { id := 7, name := "B", home := "m", members := [("b", .function true (giving "b")),
      ("rules", .table [("a", .value (.int 1)), ("x", .builtin "int")]), ("a", .function false (giving "a"))] },
    { id := 6, name := "A", home := "m", members := [("z", .function true (giving "z"))] }]

theorem tidy_layeredLine : ∀ l ∈ layeredLine, l.Tidy := by
  intro l hl
  simp only [layeredLine, List.mem_cons, List.not_mem_nil, or_false] at hl
  rcases hl with rfl | rfl | rfl | rfl
  · exact ⟨by decide, fun m hm => nomatch hm⟩
  · exact ⟨by decide, fun m hm => nomatch hm⟩
  · exact ⟨by decide, fun m hm => ⟨_, (Option.some.inj hm).symm, by decide⟩⟩
  · exact ⟨by decide, fun m hm => nomatch hm⟩

theorem chain_rules_layeredLine :
    ∃ c, chain layeredLine = .ok c ∧ c.ruleNames = .ok ["a", "x", "b", "d", "c"] ∧
      c.rule "a" = .ok (.function (giving "a") "B.a") ∧ c.rule "x" = .ok (.builtin "int") ∧
      c.rule "b" = .ok (.function ⟨{}, .fail (.fault .notImplemented "")⟩ "C.b") ∧
      c.rule "c" = .ok (.function (giving "c") "D.c") ∧
      c.rule "z" = .error (.report (.noSuchRule "z" ["a", "x", "b", "d", "c"])) := by
  obtain ⟨c, hc, hnames, hrule, -⟩ := chain_rules layeredLine tidy_layeredLine (by decide)
  exact ⟨c, hc, hnames.trans rfl, (hrule "a").trans rfl, (hrule "x").trans rfl, (hrule "b").trans rfl,
    (hrule "c").trans rfl, (hrule "z").trans rfl⟩

end Class

end GrammarBench
