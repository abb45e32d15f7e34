import SelectiveTrace.Proofs.Scope.Index

/-! The tables of an index against the tree they are made of. Collecting a tree records its nodes one
after the other, in the order in which they start; so a line has the furthest end of the constructs that
start on it, and a name has the last of the definitions that go by it. -/
namespace SelectiveTrace

namespace Table
variable {κ α : Type} [DecidableEq κ] {t : Table κ α} {k : κ} {a : α}

theorem nodup_insert (h : t.keys.Nodup) : (t.insert k a).keys.Nodup := by
  unfold keys at h ⊢
  refine List.nodup_cons.mpr ⟨?_, h.sublist (List.filter_sublist.map _)⟩
  simp [erase]

/-- Where each key is bound once, its binding is the one found. -/
theorem get?_of_mem (h : t.keys.Nodup) (mem : (k, a) ∈ t.entries) : t.get? k = some a := by
  obtain ⟨b, hb⟩ : ∃ b, t.get? k = some b := by
    rw [← Option.isSome_iff_exists, get?, Option.isSome_map, List.find?_isSome]
    exact ⟨(k, a), mem, by simp⟩
  have heq : (k, b) = (k, a) := List.inj_on_of_nodup_map h (mem_of_get? hb) mem rfl
  rw [hb, (Prod.mk.inj heq).2]

end Table

/-- Places in the order of the text. -/
instance : LE Place := ⟨fun p q => p.row < q.row ∨ p.row = q.row ∧ p.column ≤ q.column⟩

instance (p q : Place) : Decidable (p ≤ q) :=
  inferInstanceAs (Decidable (_ ∨ _))

theorem Place.row_le {p q : Place} (h : p ≤ q) : p.row ≤ q.row := by
  rcases h with h | ⟨h, -⟩ <;> omega

/-- A node that starts before it stops has its lines in order. -/
theorem SyntaxNode.span_ordered {n : SyntaxNode} (h : n.start ≤ n.stop) :
    n.span.start ≤ n.span.stop := by
  have hrow := Place.row_le h
  unfold span
  dsimp only
  split <;> omega

/-- A node of a tree, and the nodes around it below the root, the outermost first. -/
structure Descendant where
  around : List SyntaxNode
  node : SyntaxNode

/-- A class or function: the names of the definitions around it and its own, and its lines. -/
structure Definition where
  path : List String
  range : ScopeRange
deriving DecidableEq

namespace SyntaxNode

mutual

def spread (around : List SyntaxNode) : SyntaxNode → List Descendant
  | .node kind start stop name children =>
    ⟨around, .node kind start stop name children⟩ ::
      spreadAll (around ++ [.node kind start stop name children]) children

def spreadAll (around : List SyntaxNode) : List SyntaxNode → List Descendant
  | [] => []
  | n :: ns => spread around n ++ spreadAll around ns

end

def descendants (root : SyntaxNode) : List Descendant :=
  spreadAll [] root.children

def defined? (n : SyntaxNode) : Option (String × ScopeRange) :=
  match n.kind.scope?, n.name? with
  | some kind, some name => some (name, ⟨kind, n.span⟩)
  | _, _ => none

def namesOf (ns : List SyntaxNode) : List String :=
  ns.filterMap fun n => n.defined?.map (·.1)

theorem spread_eq (around : List SyntaxNode) (n : SyntaxNode) :
    n.spread around = ⟨around, n⟩ :: spreadAll (around ++ [n]) n.children := by
  cases n
  rfl

theorem namesOf_concat (ns : List SyntaxNode) (n : SyntaxNode) :
    namesOf (ns ++ [n]) = namesOf ns ++ (n.defined?.map (·.1)).toList := by
  unfold namesOf
  rw [List.filterMap_append, List.filterMap_cons, List.filterMap_nil]
  cases n.defined? <;> rfl

end SyntaxNode

namespace Descendant

def StartsOn (line : Nat) (d : Descendant) : Prop :=
  d.node.kind.isStatement = true ∧ d.node.span.start = line

instance (line : Nat) (d : Descendant) : Decidable (d.StartsOn line) :=
  inferInstanceAs (Decidable (_ ∧ _))

def definition? (d : Descendant) : Option Definition :=
  d.node.defined?.map fun e => ⟨SyntaxNode.namesOf d.around ++ [e.1], e.2⟩

end Descendant

def SyntaxNode.definitions (root : SyntaxNode) : List Definition :=
  root.descendants.filterMap Descendant.definition?

namespace ScopeIndex
variable {names : List String} {ix : ScopeIndex} {ds : List Descendant} {line : Nat} {key : String}

/-- The name that a definition goes by in an index, where `names` stand around the tree. -/
def keyOf (names : List String) (e : Definition) : String :=
  dotted (names ++ e.path)

/-! ### One node after the other -/

def recordLines (ix : ScopeIndex) (n : SyntaxNode) : ScopeIndex :=
  if n.kind.isStatement then ix.addStatement n.span else ix

def record (names : List String) (ix : ScopeIndex) (d : Descendant) : ScopeIndex :=
  match d.definition? with
  | some e => (ix.recordLines d.node).addRange (names ++ e.path) e.range
  | none => ix.recordLines d.node

theorem collect_eq (n : SyntaxNode) (c : Collector) :
    collect n c =
      let c' : Collector := { c with index := c.index.recordLines n }
      match n.defined? with
      | some e => (collectAll n.children (c'.enter e.1 e.2)).leave
      | none => collectAll n.children c' := by
  obtain ⟨kind, start, stop, name, children⟩ := n
  have hlines (s : LineSpan) : (if kind.isStatement then c.addStatement s else c) =
      { c with index := if kind.isStatement then c.index.addStatement s else c.index } := by
    split <;> rfl
  unfold collect
  dsimp only
  rw [hlines]
  unfold SyntaxNode.defined? recordLines SyntaxNode.kind SyntaxNode.name?
  cases kind.scope? with
  | none => rfl
  | some k => cases name <;> rfl

mutual

/-- The names on the stack are those around the tree, and then those of the definitions around the
node. -/
theorem index_collect : ∀ (n : SyntaxNode) (c : Collector) (around : List SyntaxNode),
    c.names = names ++ SyntaxNode.namesOf around →
    (collect n c).index = (n.spread around).foldl (record names) c.index
  | .node kind start stop name children, c, around, h => by
    have hall := @index_collectAll children
    set n : SyntaxNode := .node kind start stop name children
    have hnames := SyntaxNode.namesOf_concat around n
    rw [collect_eq, SyntaxNode.spread_eq, List.foldl_cons, record, Descendant.definition?]
    cases hd : n.defined? with
    | some e =>
      rw [hd] at hnames
      refine (hall (Collector.enter _ e.1 e.2) (around ++ [n]) ?_).trans ?_
      · rw [hnames, ← List.append_assoc, ← h]
        rfl
      · simp only [Collector.enter, h, Option.map_some, List.append_assoc]
        rfl
    | none =>
      rw [hd] at hnames
      refine hall _ (around ++ [n]) ?_
      rw [hnames, Option.map_none, Option.toList_none, List.append_nil]
      exact h

theorem index_collectAll : ∀ (ns : List SyntaxNode) (c : Collector) (around : List SyntaxNode),
    c.names = names ++ SyntaxNode.namesOf around →
    (collectAll ns c).index = (SyntaxNode.spreadAll around ns).foldl (record names) c.index
  | [], _, _, _ => rfl
  | n :: ns, c, around, h => by
    have hn := index_collect n c around h
    have hns := index_collectAll ns (collect n c) around ((names_collect n c).trans h)
    rw [collectAll, hns, hn, SyntaxNode.spreadAll, List.foldl_append]

end

/-- An index is made by recording the nodes below the root one by one. -/
theorem index_ofRoot (root : SyntaxNode) (names : List String) :
    (collectAll root.children ⟨{}, names⟩).index = root.descendants.foldl (record names) {} :=
  index_collectAll root.children ⟨{}, names⟩ [] (List.append_nil names).symm

/-! ### The ends of constructs -/

theorem get?_recordLines (ix : ScopeIndex) (n : SyntaxNode) (line : Nat) :
    (ix.recordLines n).statementEnds.get? line =
      if n.kind.isStatement = true ∧ n.span.start = line then
        some ((ix.statementEnds.get? line).elim n.span.stop (max · n.span.stop))
      else ix.statementEnds.get? line := by
  unfold recordLines addStatement
  by_cases hk : n.kind.isStatement = true
  · by_cases hl : n.span.start = line
    · subst hl
      rw [if_pos hk, if_pos ⟨hk, rfl⟩, Table.get?_insert_self]
      cases ix.statementEnds.get? n.span.start <;> rfl
    · rw [if_pos hk, if_neg fun h => hl h.2]
      exact Table.get?_insert_of_ne _ _ (Ne.symm hl)
  · rw [if_neg hk, if_neg fun h => hk h.1]

theorem statementEnds_record (ix : ScopeIndex) (d : Descendant) :
    (record names ix d).statementEnds = (ix.recordLines d.node).statementEnds := by
  unfold record
  split <;> rfl

inductive Reach (ds : List Descendant) (line : Nat) : Option Nat → Prop
  | unmet (absent : ∀ d ∈ ds, ¬ d.StartsOn line) : Reach ds line none
  | met (d : Descendant) (mem : d ∈ ds) (starts : d.StartsOn line)
      (furthest : ∀ e ∈ ds, e.StartsOn line → e.node.span.stop ≤ d.node.span.stop) :
      Reach ds line (some d.node.span.stop)

/-- One more node. -/
theorem Reach.concat {o : Option Nat} (h : Reach ds line o) (d : Descendant) :
    Reach (ds ++ [d]) line
      (if d.StartsOn line then some (o.elim d.node.span.stop (max · d.node.span.stop)) else o) := by
  have hmem {e : Descendant} (he : e ∈ ds ++ [d]) : e ∈ ds ∨ e = d := by simpa using he
  have hd : d ∈ ds ++ [d] := by simp
  split
  case isTrue hs =>
    cases h with
    | unmet absent =>
      refine .met d hd hs fun e he hes => ?_
      rcases hmem he with he | rfl
      · exact absurd hes (absent e he)
      · exact le_rfl
    | met f hf hfs furthest =>
      have hle : ∀ e ∈ ds ++ [d], e.StartsOn line →
          e.node.span.stop ≤ max f.node.span.stop d.node.span.stop := by
        intro e he hes
        rcases hmem he with he | rfl
        · exact (furthest e he hes).trans (le_max_left ..)
        · exact le_max_right ..
      rw [Option.elim_some]
      rcases le_total f.node.span.stop d.node.span.stop with hfd | hdf
      · rw [max_eq_right hfd] at hle ⊢
        exact .met d hd hs hle
      · rw [max_eq_left hdf] at hle ⊢
        exact .met f (List.mem_append_left _ hf) hfs hle
  case isFalse hs =>
    cases h with
    | unmet absent =>
      refine .unmet fun e he => ?_
      rcases hmem he with he | rfl
      · exact absent e he
      · exact hs
    | met f hf hfs furthest =>
      refine .met f (List.mem_append_left _ hf) hfs fun e he hes => ?_
      rcases hmem he with he | rfl
      · exact furthest e he hes
      · exact absurd hes hs

theorem reach_statementEnds (ds : List Descendant) (line : Nat) :
    Reach ds line ((ds.foldl (record names) {}).statementEnds.get? line) := by
  induction ds using List.reverseRecOn with
  | nil => exact .unmet nofun
  | append_singleton ds d ih =>
    rw [List.foldl_concat, statementEnds_record, get?_recordLines]
    exact ih.concat d

/-! ### The last definition of a name -/

theorem ranges_record (ix : ScopeIndex) (d : Descendant) :
    (record names ix d).ranges =
      d.definition?.elim ix.ranges fun e => ix.ranges.insert (keyOf names e) e.range := by
  have hlines : (ix.recordLines d.node).ranges = ix.ranges := by
    unfold recordLines
    split <;> rfl
  unfold record
  cases d.definition? with
  | none => exact hlines
  | some e => exact congrArg (Table.insert · (keyOf names e) e.range) hlines

def last? (names : List String) (key : String) (es : List Definition) : Option Definition :=
  (es.filter fun e => keyOf names e = key).getLast?

theorem get?_ranges (ds : List Descendant) (key : String) :
    (ds.foldl (record names) {}).ranges.get? key =
      (last? names key (ds.filterMap Descendant.definition?)).map (·.range) := by
  induction ds using List.reverseRecOn with
  | nil => rfl
  | append_singleton ds d ih =>
    rw [List.foldl_concat, ranges_record, List.filterMap_append, List.filterMap_cons,
      List.filterMap_nil]
    cases d.definition? with
    | none => simpa using ih
    | some e =>
      rw [Option.elim_some, Table.get?_insert, last?, List.filter_append, ih, last?]
      by_cases h : keyOf names e = key
      · simp [h]
      · simp [h, Ne.symm h]

theorem nodup_ranges (ds : List Descendant) :
    (ds.foldl (record names) {}).ranges.keys.Nodup := by
  induction ds using List.reverseRecOn with
  | nil => exact List.nodup_nil
  | append_singleton ds d ih =>
    rw [List.foldl_concat, ranges_record]
    cases d.definition? with
    | none => exact ih
    | some e => exact Table.nodup_insert ih

/-- What an index holds under a name is the last definition of it. -/
theorem exists_of_mem_ranges {e : String × ScopeRange}
    (h : e ∈ (ds.foldl (record names) {}).ranges.entries) :
    ∃ x, last? names e.1 (ds.filterMap Descendant.definition?) = some x ∧ x.range = e.2 := by
  have hget := Table.get?_of_mem (nodup_ranges ds) (show (e.1, e.2) ∈ _ from h)
  rw [get?_ranges] at hget
  exact Option.map_eq_some_iff.mp hget

theorem last?_eq_some {es : List Definition} {e : Definition} (h : last? names key es = some e) :
    e ∈ es ∧ keyOf names e = key := by
  have hmem := List.mem_of_getLast? h
  rw [List.mem_filter] at hmem
  exact ⟨hmem.1, of_decide_eq_true hmem.2⟩

/-- The last definition of a name is the one that no later one of the name follows. -/
theorem last?_append {before after : List Definition} {e : Definition}
    (unmatched : ∀ x ∈ after, keyOf names x ≠ keyOf names e) :
    last? names (keyOf names e) (before ++ e :: after) = some e := by
  have hafter : (after.filter fun x => keyOf names x = keyOf names e) = [] := by
    rw [List.filter_eq_nil_iff]
    exact fun x hx => by simpa using unmatched x hx
  simp [last?, hafter]

theorem isSome_last? {es : List Definition} :
    (last? names key es).isSome = true ↔ ∃ e ∈ es, keyOf names e = key := by
  rw [last?, Option.isSome_iff_ne_none, ne_eq, List.getLast?_eq_none_iff, List.filter_eq_nil_iff]
  simp

theorem span_of_definition? {d : Descendant} {e : Definition} (h : d.definition? = some e) :
    e.range.span = d.node.span := by
  obtain ⟨x, hx, rfl⟩ := Option.map_eq_some_iff.mp h
  unfold SyntaxNode.defined? at hx
  split at hx
  · cases hx
    rfl
  · cases hx

/-- The index of a tree whose nodes start before they stop. A line is found if and only if a construct
of its own starts on it, with the furthest last line of these constructs; a name is found if and only
if a class or function goes by it, with the last one that does; no answer ends before it starts; and
the names that were on the stack are on it again. -/
theorem tables_tell_the_tree {root : SyntaxNode} (names : List String)
    (ordered : ∀ d ∈ root.descendants, d.node.start ≤ d.node.stop) :
    let c := collectAll root.children ⟨{}, names⟩
    (∀ line, (c.index.statementRange line).isSome ↔ ∃ d ∈ root.descendants, d.StartsOn line) ∧
    (∀ line s, c.index.statementRange line = some s → s.start = line ∧
      (∃ d ∈ root.descendants, d.StartsOn line ∧ d.node.span.stop = s.stop) ∧
      ∀ d ∈ root.descendants, d.StartsOn line → d.node.span.stop ≤ s.stop) ∧
    (∀ key, c.index.ranges.contains key = true ↔ ∃ e ∈ root.definitions, keyOf names e = key) ∧
    (∀ before e after, root.definitions = before ++ e :: after →
      (∀ x ∈ after, keyOf names x ≠ keyOf names e) →
      c.index.ranges.get? (keyOf names e) = some e.range) ∧
    (∀ (query : ScopeQuery) (s : LineSpan), query.answer c.index = some s → s.start ≤ s.stop) ∧
    c.names = names := by
  intro c
  have hix : c.index = root.descendants.foldl (record names) {} := index_ofRoot root names
  have hspan : ∀ d ∈ root.descendants, d.node.span.start ≤ d.node.span.stop :=
    fun d hd => SyntaxNode.span_ordered (ordered d hd)
  have hrange : ∀ key r, (key, r) ∈ c.index.ranges.entries → r.span.start ≤ r.span.stop := by
    intro key r hmem
    rw [hix] at hmem
    obtain ⟨e, he, rfl⟩ := exists_of_mem_ranges hmem
    obtain ⟨d, hd, hdef⟩ := List.mem_filterMap.mp (last?_eq_some he).1
    rw [span_of_definition? hdef]
    exact hspan d hd
  have hreach (line : Nat) := @reach_statementEnds names root.descendants line
  rw [← hix] at hreach
  have hlines : ∀ line s, c.index.statementRange line = some s → s.start = line ∧
      ∃ d ∈ root.descendants, d.StartsOn line ∧ d.node.span.stop = s.stop ∧
        ∀ e ∈ root.descendants, e.StartsOn line → e.node.span.stop ≤ s.stop := by
    intro line s hs
    obtain ⟨stop, hget, rfl⟩ := Option.map_eq_some_iff.mp hs
    have hr := hreach line
    rw [hget] at hr
    cases hr with
    | met d hd hds furthest => exact ⟨rfl, d, hd, hds, rfl, furthest⟩
  refine ⟨fun line => ?_, fun line s hs => ?_, fun key => ?_, fun before e after hsplit hno => ?_,
    fun query s hs => ?_, names_collectAll _ _⟩
  · have hr := hreach line
    unfold statementRange
    rw [Option.isSome_map]
    generalize c.index.statementEnds.get? line = stop at hr ⊢
    cases hr with
    | unmet absent => simpa using absent
    | met d hd hds _ => simpa using ⟨d, hd, hds⟩
  · obtain ⟨hstart, d, hd, hds, hstop, furthest⟩ := hlines line s hs
    exact ⟨hstart, ⟨d, hd, hds, hstop⟩, furthest⟩
  · rw [hix, Table.contains, get?_ranges, Option.isSome_map, isSome_last?]
    rfl
  · rw [hix, get?_ranges, ← SyntaxNode.definitions, hsplit, last?_append hno]
    rfl
  · cases query with
    | statementRange line =>
      obtain ⟨hstart, d, hd, hds, hstop, -⟩ := hlines line s hs
      rw [hstart, ← hstop, ← hds.2]
      exact hspan d hd
    | belongingMethod line =>
      obtain ⟨e, he, -, rfl, -⟩ := exists_of_enclosingMethod hs
      exact hrange e.1 e.2 he
    | methodRange name =>
      obtain ⟨r, hr, rfl⟩ := exists_of_methodRange hs
      exact hrange name r hr

def accessors : SyntaxNode :=
  .node .module ⟨0, 0⟩ ⟨9, 0⟩ none
    [.node .classDefinition ⟨0, 0⟩ ⟨7, 0⟩ (some "C")
      [.node .block ⟨1, 4⟩ ⟨7, 0⟩ none
        [.node .decorated ⟨1, 4⟩ ⟨3, 16⟩ none
          [.node .plain ⟨1, 4⟩ ⟨1, 13⟩ none [],
            .node .functionDefinition ⟨2, 4⟩ ⟨3, 16⟩ (some "x") []],
          .node .functionDefinition ⟨4, 4⟩ ⟨7, 0⟩ (some "x") [.node .plain ⟨4, 8⟩ ⟨5, 0⟩ none []]]],
      .node .functionDefinition ⟨7, 0⟩ ⟨9, 0⟩ none
        [.node .functionDefinition ⟨8, 4⟩ ⟨9, 0⟩ (some "g") []]]

theorem tables_tell_accessors :
    (∀ d ∈ accessors.descendants, d.node.start ≤ d.node.stop) ∧
    let c := collectAll accessors.children ⟨{}, ["m"]⟩
    c.index.statementRange 5 = some ⟨5, 7⟩ ∧ c.index.statementRange 4 = none ∧
    c.index.ranges.get? "m.C.x" = some ⟨.method, ⟨5, 7⟩⟩ ∧
    c.index.ranges.contains "m.g" = true ∧ c.names = ["m"] := by
  have ordered : ∀ d ∈ accessors.descendants, d.node.start ≤ d.node.stop := by decide
  obtain ⟨hfound, hends, hkeys, hlast, -, hnames⟩ := tables_tell_the_tree ["m"] ordered
  refine ⟨ordered, ?_, ?_, ?_, ?_, hnames⟩
  · obtain ⟨s, hs⟩ := Option.isSome_iff_exists.mp ((hfound 5).mpr (by decide))
    obtain ⟨hstart, ⟨d, hd, hds, hstop⟩, furthest⟩ := hends 5 s hs
    have hmost : ∀ d ∈ accessors.descendants, d.StartsOn 5 → d.node.span.stop ≤ 7 := by decide
    obtain ⟨e, he, hes, heq⟩ :
        ∃ e ∈ accessors.descendants, e.StartsOn 5 ∧ e.node.span.stop = 7 := by decide
    have hseven : s.stop = 7 :=
      le_antisymm (hstop ▸ hmost d hd hds) (heq ▸ furthest e he hes)
    rw [hs, ← hstart, ← hseven]
  · rw [← Option.not_isSome_iff_eq_none, hfound 4]
    decide
  · exact hlast [⟨["C"], .class_, ⟨1, 7⟩⟩, ⟨["C", "x"], .method, ⟨3, 4⟩⟩]
      ⟨["C", "x"], .method, ⟨5, 7⟩⟩ [⟨["g"], .method, ⟨9, 9⟩⟩] rfl (by decide +kernel)
  · exact (hkeys "m.g").mpr ⟨⟨["g"], .method, ⟨9, 9⟩⟩, List.mem_of_getLast? rfl, by decide +kernel⟩

end ScopeIndex
end SelectiveTrace
