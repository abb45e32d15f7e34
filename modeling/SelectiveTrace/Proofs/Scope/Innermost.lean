import SelectiveTrace.Proofs.Scope.Tables

/-! The function that is found around a line. An index keeps one definition of each name, the last
one, so it is the innermost of these that is found; a function whose name is defined again behind it
is not found on any line of it. -/
namespace SelectiveTrace

/-- The span is one of these, and shorter than each of them, or as long and starts no earlier. -/
structure LineSpan.IsInnermost (s : LineSpan) (among : LineSpan → Prop) : Prop where
  mem : among s
  least : ∀ t, among t → s.length < t.length ∨ s.length = t.length ∧ t.start ≤ s.start

def Definition.IsAround (line : Nat) (e : Definition) : Prop :=
  e.range.kind = .method ∧ e.range.span.contains line = true

instance (line : Nat) (e : Definition) : Decidable (e.IsAround line) :=
  inferInstanceAs (Decidable (_ ∧ _))

def Definition.qualifiedName (e : Definition) : String :=
  ScopeIndex.dotted e.path

/-- The definitions without those whose name is defined again behind them. -/
def Definition.lasting : List Definition → List Definition
  | [] => []
  | e :: es =>
    if es.any fun x => x.qualifiedName = e.qualifiedName then lasting es else e :: lasting es

def SyntaxNode.lastDefinitions (root : SyntaxNode) : List Definition :=
  Definition.lasting root.definitions

namespace LineSpan.IsInnermost
variable {s t : LineSpan} {among among' : LineSpan → Prop} {line : Nat}

theorem congr (h : s.IsInnermost among) (same : ∀ t, among t ↔ among' t) : s.IsInnermost among' :=
  ⟨(same s).mp h.mem, fun t ht => h.least t ((same t).mpr ht)⟩

/-- Of the spans around a line one is innermost. -/
theorem unique (h : s.IsInnermost among) (h' : t.IsInnermost among)
    (around : ∀ u, among u → u.contains line = true) : s = t := by
  have hs := around s h.mem
  have ht := around t h'.mem
  have hst := h.least t h'.mem
  have hts := h'.least s h.mem
  obtain ⟨a, b⟩ := s
  obtain ⟨c, d⟩ := t
  simp only [LineSpan.contains, LineSpan.length, Bool.and_eq_true, decide_eq_true_eq] at *
  rw [LineSpan.mk.injEq]
  omega

end LineSpan.IsInnermost

namespace ScopeIndex
variable {ix : ScopeIndex} {line : Nat} {spans : List LineSpan} {s : LineSpan} {root : SyntaxNode}

theorem isInner_iff (s t : LineSpan) :
    isInner s t = true ↔ s.length < t.length ∨ s.length = t.length ∧ t.start < s.start := by
  simp [isInner]

theorem innermost_eq_none : innermost spans = none ↔ spans = [] := by
  cases spans with
  | nil => simp [innermost]
  | cons s spans =>
    unfold innermost
    split
    · split <;> simp
    · simp

theorem isInnermost_of_innermost (h : innermost spans = some s) :
    s.IsInnermost (· ∈ spans) := by
  refine ⟨innermost_mem h, ?_⟩
  induction spans generalizing s with
  | nil => cases h
  | cons first spans ih =>
    unfold innermost at h
    split at h
    case h_1 t ht =>
      have hleast := ih ht
      have hinner := isInner_iff t first
      split at h
      case isTrue hi =>
        cases h
        intro u hu
        rcases List.mem_cons.mp hu with rfl | hu
        · have := hinner.mp hi
          omega
        · exact hleast u hu
      case isFalse hi =>
        cases h
        rw [hinner] at hi
        intro u hu
        rcases List.mem_cons.mp hu with rfl | hu
        · omega
        · have := hleast u hu
          omega
    case h_2 hnone =>
      cases h
      rw [innermost_eq_none] at hnone
      subst hnone
      intro u hu
      obtain rfl := List.mem_singleton.mp hu
      omega

theorem mem_methodsAround : s ∈ ix.methodsAround line ↔
    ∃ e ∈ ix.ranges.entries, e.2.kind = .method ∧ e.2.span.contains line = true ∧ e.2.span = s := by
  unfold methodsAround
  simp only [List.mem_filterMap, List.mem_map, exists_exists_and_eq_and, Option.ite_none_right_eq_some,
    Bool.and_eq_true, decide_eq_true_eq, Option.some.injEq, and_assoc]

/-- The function found around a line is the innermost that the index holds. -/
theorem enclosingMethod_eq_some_iff : ix.enclosingMethod line = some s ↔
    s.IsInnermost (· ∈ ix.methodsAround line) := by
  refine ⟨isInnermost_of_innermost, fun h => ?_⟩
  have hne : ix.enclosingMethod line ≠ none := by
    rw [ne_eq, enclosingMethod, innermost_eq_none]
    exact List.ne_nil_of_mem h.mem
  obtain ⟨t, ht⟩ := Option.ne_none_iff_exists'.mp hne
  have haround : ∀ u ∈ ix.methodsAround line, u.contains line = true := by
    intro u hu
    obtain ⟨e, -, -, hline, rfl⟩ := mem_methodsAround.mp hu
    exact hline
  rw [ht, h.unique (isInnermost_of_innermost ht) haround]

theorem keyOf_nil (e : Definition) : keyOf [] e = e.qualifiedName := rfl

theorem last?_cons (names : List String) (key : String) (e : Definition) (es : List Definition) :
    last? names key (e :: es) =
      (last? names key es).or (if keyOf names e = key then some e else none) := by
  unfold last?
  by_cases h : keyOf names e = key
  · simp [h, List.getLast?_cons]
  · simp [h]

/-- A definition lasts if it is the last one of its name. -/
theorem mem_lasting {es : List Definition} {e : Definition} :
    e ∈ Definition.lasting es ↔ last? [] e.qualifiedName es = some e := by
  induction es with
  | nil => simp [Definition.lasting, last?]
  | cons x es ih =>
    have hlater : (es.any fun y => y.qualifiedName = x.qualifiedName) = true ↔
        (last? [] x.qualifiedName es).isSome = true := by
      rw [isSome_last?]
      simp [keyOf_nil]
    unfold Definition.lasting
    simp only [last?_cons, hlater]
    by_cases hname : x.qualifiedName = e.qualifiedName
    · rw [if_pos (show keyOf [] x = _ from hname), hname]
      cases hl : last? [] e.qualifiedName es with
      | some y => simpa [hl] using ih
      | none => simp [ih, hl, eq_comm]
    · rw [if_neg (show keyOf [] x ≠ _ from hname), Option.or_none, ← ih]
      split
      · rfl
      · have hne : e ≠ x := fun h => hname (h ▸ rfl)
        simp [hne]

/-- What an index holds are the last definitions of its tree. -/
theorem mem_ranges_ofTree {e : String × ScopeRange} : e ∈ (ofTree root).ranges.entries ↔
    ∃ d ∈ root.lastDefinitions, d.qualifiedName = e.1 ∧ d.range = e.2 := by
  have hix : ofTree root = root.descendants.foldl (record []) {} := index_ofRoot root []
  rw [hix]
  constructor
  · intro h
    obtain ⟨d, hd, hrange⟩ := exists_of_mem_ranges h
    have hname : d.qualifiedName = e.1 := (last?_eq_some hd).2
    exact ⟨d, mem_lasting.mpr (hname ▸ hd), hname, hrange⟩
  · rintro ⟨d, hd, hname, hrange⟩
    have hlast := mem_lasting.mp hd
    refine Table.mem_of_get? ?_
    rw [get?_ranges, ← hname, ← SyntaxNode.definitions, hlast, Option.map_some, hrange]

theorem mem_methodsAround_ofTree : s ∈ (ofTree root).methodsAround line ↔
    ∃ d ∈ root.lastDefinitions, d.IsAround line ∧ d.range.span = s := by
  rw [mem_methodsAround]
  constructor
  · rintro ⟨e, he, hkind, hline, hspan⟩
    obtain ⟨d, hd, -, hrange⟩ := mem_ranges_ofTree.mp he
    rw [← hrange] at hkind hline hspan
    exact ⟨d, hd, ⟨hkind, hline⟩, hspan⟩
  · rintro ⟨d, hd, ⟨hkind, hline⟩, hspan⟩
    exact ⟨(d.qualifiedName, d.range), mem_ranges_ofTree.mpr ⟨d, hd, rfl, rfl⟩, hkind, hline, hspan⟩

theorem mem_of_mem_lasting {es : List Definition} {e : Definition} (h : e ∈ Definition.lasting es) :
    e ∈ es :=
  (last?_eq_some (mem_lasting.mp h)).1

/-- Around a line that lies in a function one function is innermost. -/
theorem exists_isInnermost {p : Definition → Prop} [DecidablePred p] {es : List Definition}
    (h : ∃ e ∈ es, p e) :
    ∃ s : LineSpan, s.IsInnermost fun t => ∃ e ∈ es, p e ∧ e.range.span = t := by
  have hmem : ∀ t, t ∈ (es.filter p).map (·.range.span) ↔ ∃ e ∈ es, p e ∧ e.range.span = t := by
    intro t
    simp [List.mem_map, List.mem_filter, and_assoc]
  obtain ⟨e, he, hp⟩ := h
  have hne : innermost ((es.filter p).map (·.range.span)) ≠ none := by
    rw [ne_eq, innermost_eq_none]
    exact List.ne_nil_of_mem ((hmem e.range.span).mpr ⟨e, he, hp, rfl⟩)
  obtain ⟨s, hs⟩ := Option.ne_none_iff_exists'.mp hne
  exact ⟨s, (isInnermost_of_innermost hs).congr hmem⟩

/-- In the index of a text, the function found around a line is the innermost of those around it that
no later definition of the same name replaces. Of all functions around a line, replaced or not, one is
innermost, and it is found if and only if one of those that last has its lines. -/
theorem enclosing_method_lasts {source : String} (accepted : ofSource source = .ok ix) :
    ∃ root, Grammar.parse source = some root ∧ ∀ line,
      (∀ s, ix.enclosingMethod line = some s ↔
        s.IsInnermost fun t => ∃ e ∈ root.lastDefinitions, e.IsAround line ∧ e.range.span = t) ∧
      ((∃ e ∈ root.definitions, e.IsAround line) →
        ∃ s, (s.IsInnermost fun t => ∃ e ∈ root.definitions, e.IsAround line ∧ e.range.span = t) ∧
          (ix.enclosingMethod line = some s ↔
            ∃ e ∈ root.lastDefinitions, e.IsAround line ∧ e.range.span = s)) := by
  unfold ofSource at accepted
  split at accepted
  case h_1 root hroot =>
    cases accepted
    refine ⟨root, hroot, fun line => ?_⟩
    have hfound : ∀ s, (ofTree root).enclosingMethod line = some s ↔
        s.IsInnermost fun t =>
          ∃ e ∈ root.lastDefinitions, e.IsAround line ∧ e.range.span = t := by
      intro s
      rw [enclosingMethod_eq_some_iff]
      exact ⟨fun h => h.congr fun _ => mem_methodsAround_ofTree,
        fun h => h.congr fun _ => mem_methodsAround_ofTree.symm⟩
    refine ⟨hfound, fun hany => ?_⟩
    obtain ⟨s, hs⟩ := exists_isInnermost hany
    refine ⟨s, hs, fun h => ((hfound s).mp h).mem, fun hlast => (hfound s).mpr ⟨hlast, ?_⟩⟩
    rintro t ⟨e, he, haround, hspan⟩
    exact hs.least t ⟨e, mem_of_mem_lasting he, haround, hspan⟩
  case h_2 => cases accepted

def property : String :=
  "class C:\n    @property\n    def x(self):\n        return 1\n" ++
    "    @x.setter\n    def x(self, v):\n        self.y = v\n"

theorem definitions_of_property : (Grammar.parse property).map SyntaxNode.definitions =
    some [⟨["C"], .class_, ⟨1, 7⟩⟩, ⟨["C", "x"], .method, ⟨3, 4⟩⟩,
      ⟨["C", "x"], .method, ⟨6, 7⟩⟩] := by
  decide +kernel

theorem exists_ofSource_property : ∃ ix, ofSource property = .ok ix := by
  unfold ofSource
  obtain ⟨root, hroot, -⟩ := Option.map_eq_some_iff.mp definitions_of_property
  rw [hroot]
  exact ⟨_, rfl⟩

/-- The setter is found on its lines, and nothing on those of the getter. -/
theorem enclosing_method_lasts_in_property : ∃ ix, ofSource property = .ok ix ∧
    ix.enclosingMethod 7 = some ⟨6, 7⟩ ∧ ix.enclosingMethod 4 = none := by
  obtain ⟨ix, accepted⟩ := exists_ofSource_property
  obtain ⟨root, hroot, hfound⟩ := enclosing_method_lasts accepted
  have hdefs := definitions_of_property
  rw [hroot, Option.map_some, Option.some.injEq] at hdefs
  have hlast : root.lastDefinitions =
      [⟨["C"], .class_, ⟨1, 7⟩⟩, ⟨["C", "x"], .method, ⟨6, 7⟩⟩] := by
    rw [SyntaxNode.lastDefinitions, hdefs]
    decide +kernel
  simp only [hlast] at hfound
  refine ⟨ix, accepted, ((hfound 7).1 _).mpr ⟨?_, ?_⟩, Option.eq_none_iff_forall_ne_some.mpr ?_⟩
  · exact ⟨⟨["C", "x"], .method, ⟨6, 7⟩⟩, by decide, by decide, rfl⟩
  · rintro t ⟨e, he, haround, rfl⟩
    revert e
    decide
  · intro s hs
    obtain ⟨e, he, haround, -⟩ := (((hfound 4).1 s).mp hs).mem
    revert e
    decide

/-- The getter is the innermost function around its last line, and it is not found there. -/
theorem getter_is_not_found : ∃ ix root, ofSource property = .ok ix ∧
    Grammar.parse property = some root ∧
    ((⟨3, 4⟩ : LineSpan).IsInnermost fun t =>
      ∃ e ∈ root.definitions, e.IsAround 4 ∧ e.range.span = t) ∧
    ix.enclosingMethod 4 ≠ some ⟨3, 4⟩ := by
  obtain ⟨ix, accepted⟩ := exists_ofSource_property
  obtain ⟨root, hroot, hdefs⟩ := Option.map_eq_some_iff.mp definitions_of_property
  have hnone : (ofSource property).toOption.map (·.enclosingMethod 4) = some none := by
    decide +kernel
  rw [accepted] at hnone
  refine ⟨ix, root, accepted, hroot, ⟨?_, ?_⟩, ?_⟩
  · rw [hdefs]
    exact ⟨⟨["C", "x"], .method, ⟨3, 4⟩⟩, by decide, by decide, rfl⟩
  · rw [hdefs]
    rintro t ⟨e, he, haround, rfl⟩
    revert e
    decide
  · rw [show ix.enclosingMethod 4 = none from Option.some.inj hnone]
    exact nofun

end ScopeIndex
end SelectiveTrace
