import SelectiveTrace.CallGraph.Tree
import SelectiveTrace.Proofs.CallGraph.Uses

/-! Drawn trees are read back. A guide is a continuation and one space more, so a line that goes on behind a
continuation must not begin with a space; then each line of the drawing tells its level, whether a node
begins with it, and its text, and the drawing tells everything about the nodes but where their depths are
counted from. -/
namespace SelectiveTrace

namespace Text

theorem pieces_ne_nil (sep : Char) (cs : List Char) : pieces sep cs ≠ [] := by
  cases cs with
  | nil => simp [pieces]
  | cons c cs =>
    rw [pieces]
    split
    · simp
    · split <;> simp

/-- A line that is ended is the first piece. -/
theorem pieces_ended {sep : Char} {cs : List Char} (h : sep ∉ cs) (rest : List Char) :
    pieces sep (cs ++ sep :: rest) = cs :: pieces sep rest := by
  induction cs with
  | nil =>
    obtain ⟨p, ps, hrest⟩ := List.exists_cons_of_ne_nil (pieces_ne_nil sep rest)
    simp [pieces, hrest]
  | cons c cs ih =>
    obtain ⟨hne, hcs⟩ := not_or.mp (mt List.mem_cons.mpr h)
    simp [pieces, ih hcs, Ne.symm hne]

end Text

namespace CallNode

structure DrawnLine where
  level : Nat
  /-- A node begins with the line. -/
  begins : Bool
  text : String

namespace DrawnLine
variable {l : DrawnLine} {ls : List DrawnLine}

def chars (l : DrawnLine) : List Char :=
  guides l.level ++ (if l.begins then branch else continuation) ++ l.text.toList

def ofChars? : List Char → Option DrawnLine
  | '│' :: ' ' :: ' ' :: ' ' :: cs => (ofChars? cs).map fun l => { l with level := l.level + 1 }
  | '│' :: ' ' :: ' ' :: cs => some ⟨0, false, String.ofList cs⟩
  | '├' :: '─' :: ' ' :: cs => some ⟨0, true, String.ofList cs⟩
  | _ => none

def ofDrawing (text : String) : List DrawnLine :=
  (Text.pieces '\n' text.toList).filterMap ofChars?

/-- The line is whole, and it is not taken for one a level deeper. -/
structure IsPlain (l : DrawnLine) : Prop where
  unbroken : '\n' ∉ l.text.toList
  unindented : l.begins = false → l.text.toList.head? ≠ some ' '

theorem ofChars?_guides (level : Nat) (cs : List Char) :
    ofChars? (guides level ++ cs) =
      (ofChars? cs).map fun l => { l with level := l.level + level } := by
  induction level with
  | zero => simp [guides]
  | succ level ih =>
    have hguide : ofChars? (guide ++ (guides level ++ cs)) =
        (ofChars? (guides level ++ cs)).map fun l => { l with level := l.level + 1 } := rfl
    rw [guides, List.append_assoc, hguide, ih, Option.map_map]
    rfl

theorem ofChars?_chars (h : l.IsPlain) : ofChars? l.chars = some l := by
  obtain ⟨level, begins, text⟩ := l
  rw [chars, List.append_assoc, ofChars?_guides]
  cases begins with
  | true =>
    have hbranch : ofChars? (branch ++ text.toList) = some ⟨0, true, String.ofList text.toList⟩ := rfl
    simp [hbranch]
  | false =>
    have hcontinuation : ofChars? (continuation ++ text.toList) =
        some ⟨0, false, String.ofList text.toList⟩ := by
      have hhead := h.unindented rfl
      dsimp only at hhead
      cases htext : text.toList with
      | nil => rfl
      | cons c cs =>
        rw [htext] at hhead
        have hc : c ≠ ' ' := fun he => hhead (by rw [he]; rfl)
        show ofChars? ('│' :: ' ' :: ' ' :: c :: cs) = _
        rw [ofChars?]
        intro cs' he
        cases he
        exact hc rfl
    simp [hcontinuation]

theorem unbroken_guides (level : Nat) : '\n' ∉ guides level := by
  induction level with
  | zero => simp [guides]
  | succ level ih => simp [guides, guide, ih]

theorem unbroken_chars (h : l.IsPlain) : '\n' ∉ l.chars := by
  have hmark : '\n' ∉ (if l.begins then branch else continuation) := by
    split <;> decide
  simp only [chars, List.mem_append, not_or]
  exact ⟨⟨unbroken_guides _, hmark⟩, h.unbroken⟩

/-- Lines that are drawn one below the other are read back. -/
theorem ofDrawing_eq (plain : ∀ l ∈ ls, l.IsPlain) :
    ofDrawing (String.ofList (ls.flatMap fun l => l.chars ++ ['\n'])) = ls := by
  rw [ofDrawing, String.toList_ofList]
  induction ls with
  | nil => rfl
  | cons l ls ih =>
    have hl := plain l List.mem_cons_self
    rw [List.flatMap_cons, List.append_assoc, List.singleton_append,
      Text.pieces_ended (unbroken_chars hl), List.filterMap_cons, ofChars?_chars hl,
      ih fun l' h => plain l' (List.mem_cons_of_mem l h)]

/-- The nodes that the lines make up, each with its level; before them the lines that no node begins
above. -/
def gather : List DrawnLine → List String × List (Nat × List String)
  | [] => ([], [])
  | l :: ls =>
    if l.begins then ([], (l.level, l.text :: (gather ls).1) :: (gather ls).2)
    else (l.text :: (gather ls).1, (gather ls).2)

theorem gather_continued (level : Nat) (texts : List String) (ls : List DrawnLine) :
    gather (texts.map (⟨level, false, ·⟩) ++ ls) = (texts ++ (gather ls).1, (gather ls).2) := by
  induction texts with
  | nil => rfl
  | cons text texts ih => simp [gather, ih]

end DrawnLine

open DrawnLine

/-- The content can be told from the drawing: there is a line, no line is broken, and none behind the first
one begins with a space. -/
structure IsDrawable (n : CallNode) : Prop where
  nonempty : n.content ≠ []
  unbroken : ∀ line ∈ n.content, '\n' ∉ line.toList
  unindented : ∀ line ∈ n.content.tail, line.toList.head? ≠ some ' '

def drawnLines (level : Nat) : List String → List DrawnLine
  | [] => []
  | first :: rest => ⟨level, true, first⟩ :: rest.map (⟨level, false, ·⟩)

theorem draw_eq (level : Nat) (content : List String) :
    draw level content = (drawnLines level content).flatMap fun l => l.chars ++ ['\n'] := by
  cases content with
  | nil => rfl
  | cons first rest =>
    have hrest : rest.flatMap (drawLine level continuation) =
        (rest.map (⟨level, false, ·⟩)).flatMap fun l : DrawnLine => l.chars ++ ['\n'] := by
      rw [List.flatMap_map]
      rfl
    rw [draw, hrest]
    rfl

section
variable {n : CallNode} {nodes nodes' : List CallNode}

theorem IsDrawable.isPlain (h : n.IsDrawable) (level : Nat) :
    ∀ l ∈ drawnLines level n.content, l.IsPlain := by
  obtain ⟨depth, content⟩ := n
  obtain ⟨-, hunbroken, hunindented⟩ := h
  cases content with
  | nil => simp [drawnLines]
  | cons first rest =>
    intro l hl
    rcases List.mem_cons.mp hl with rfl | hl
    · exact ⟨hunbroken first List.mem_cons_self, fun he => by cases he⟩
    · obtain ⟨text, htext, rfl⟩ := List.mem_map.mp hl
      exact ⟨hunbroken text (List.mem_cons_of_mem _ htext), fun _ => hunindented text htext⟩

def leveled (nodes : List CallNode) : List (Nat × List String) :=
  nodes.map fun n => ((n.depth - baseDepth nodes).toNat, n.content)

def readTree (text : String) : List (Nat × List String) :=
  (gather (ofDrawing text)).2

theorem gather_drawnLines (nonempty : ∀ n ∈ nodes, n.content ≠ []) (level : CallNode → Nat) :
    gather (nodes.flatMap fun n => drawnLines (level n) n.content) =
      ([], nodes.map fun n => (level n, n.content)) := by
  induction nodes with
  | nil => rfl
  | cons n nodes ih =>
    obtain ⟨first, rest, hcontent⟩ :=
      List.exists_cons_of_ne_nil (nonempty n List.mem_cons_self)
    have hnodes := ih fun n' h => nonempty n' (List.mem_cons_of_mem n h)
    rw [List.flatMap_cons, hcontent, drawnLines, List.cons_append, gather, if_pos rfl,
      gather_continued, hnodes, List.map_cons, hcontent, List.append_nil]

/-- A tree is read back up to the depth that its levels are counted from. -/
theorem readTree_tree (drawable : ∀ n ∈ nodes, n.IsDrawable) :
    readTree (tree nodes) = leveled nodes := by
  have hlines : treeChars nodes =
      (nodes.flatMap fun n => drawnLines (n.depth - baseDepth nodes).toNat n.content).flatMap
        fun l => l.chars ++ ['\n'] := by
    simp only [treeChars, draw_eq, List.flatMap_assoc]
  have hplain : ∀ l ∈ nodes.flatMap fun n => drawnLines (n.depth - baseDepth nodes).toNat n.content,
      l.IsPlain := by
    intro l hl
    obtain ⟨n, hn, hl⟩ := List.mem_flatMap.mp hl
    exact (drawable n hn).isPlain _ l hl
  rw [readTree, tree, hlines, ofDrawing_eq hplain,
    gather_drawnLines fun n hn => (drawable n hn).nonempty]
  rfl

theorem baseDepth_le (h : n ∈ nodes) : baseDepth nodes ≤ n.depth := by
  induction nodes with
  | nil => cases h
  | cons first rest ih =>
    cases rest with
    | nil =>
      rw [List.mem_singleton.mp h]
      exact Int.le_refl _
    | cons second rest =>
      show min first.depth (baseDepth (second :: rest)) ≤ n.depth
      rcases List.mem_cons.mp h with rfl | h
      · exact Int.min_le_left _ _
      · exact Int.le_trans (Int.min_le_right _ _) (ih h)

theorem contents_leveled (nodes : List CallNode) :
    (leveled nodes).map (·.2) = nodes.map (·.content) := by
  simp [leveled]

theorem depths_leveled (nodes : List CallNode) :
    (leveled nodes).map (fun l => (l.1 : Int) + baseDepth nodes) = nodes.map (·.depth) := by
  rw [leveled, List.map_map]
  refine List.map_congr_left fun n hn => ?_
  have := baseDepth_le hn
  simp only [Function.comp_apply]
  omega

end

def marks : List String :=
  [callMark, pathMark, startingMark, returnMark, valueMark, brokenOff]

end CallNode

namespace CallUse
variable {us : List CallUse} {u : CallUse} {line mark text : String} {lines : List String}

def texts : CallUse → List String
  | .opens _ _ line path starting => [line, path] ++ starting.toList
  | .returns _ line value => [line, value]
  | .breaksOff _ => []

def Notes (us : List CallUse) (line : String) : Prop :=
  ∃ mark ∈ CallNode.marks, ∃ text, line = mark ++ text ∧ (text = "" ∨ ∃ u ∈ us, text ∈ u.texts)

namespace Notes

theorem mono (h : Notes us line) (u : CallUse) : Notes (us ++ [u]) line := by
  obtain ⟨mark, hmark, text, hline, htext⟩ := h
  refine ⟨mark, hmark, text, hline, htext.imp_right ?_⟩
  rintro ⟨v, hv, ht⟩
  exact ⟨v, List.mem_append_left _ hv, ht⟩

theorem of_text (h : mark ∈ CallNode.marks) (ht : text ∈ u.texts) : Notes (us ++ [u]) (mark ++ text) :=
  ⟨mark, h, text, rfl, Or.inr ⟨u, by simp, ht⟩⟩

/-- No mark begins with a space. -/
theorem unindented (h : Notes us line) : line.toList.head? ≠ some ' ' := by
  obtain ⟨mark, hmark, text, rfl, -⟩ := h
  have hhead : ∀ mark ∈ CallNode.marks, mark.toList ≠ [] ∧ mark.toList.head? ≠ some ' ' := by decide
  obtain ⟨hne, hspace⟩ := hhead mark hmark
  obtain ⟨c, cs, hcs⟩ := List.exists_cons_of_ne_nil hne
  rw [hcs] at hspace
  simpa [hcs] using hspace

theorem unbroken (h : Notes us line) (unbroken : ∀ u ∈ us, ∀ text ∈ u.texts, '\n' ∉ text.toList) :
    '\n' ∉ line.toList := by
  obtain ⟨mark, hmark, text, rfl, htext⟩ := h
  have hmarks : ∀ mark ∈ CallNode.marks, '\n' ∉ mark.toList := by decide
  have htext' : '\n' ∉ text.toList := by
    rcases htext with rfl | ⟨u, hu, ht⟩
    · simp
    · exact unbroken u hu text ht
  rw [String.toList_append, List.mem_append, not_or]
  exact ⟨hmarks mark hmark, htext'⟩

end Notes

theorem notes_opening {f : FrameId} {depth : Int} {path : String} {starting : Option String}
    (h : line ∈ CallNode.opening text path starting) :
    Notes (us ++ [.opens f depth text path starting]) line := by
  simp only [CallNode.opening, List.mem_append, List.mem_cons, List.not_mem_nil, or_false,
    Option.mem_toList, Option.map_eq_some_iff] at h
  rcases h with (rfl | rfl) | ⟨vars, rfl, rfl⟩
  · exact .of_text (by decide) (by simp [texts])
  · exact .of_text (by decide) (by simp [texts])
  · exact .of_text (by decide) (by simp [texts])

theorem notes_ending (ending : u.ending? = some lines) (h : line ∈ lines) :
    Notes (us ++ [u]) line := by
  cases u with
  | opens => cases ending
  | returns f text value =>
    cases ending
    simp only [List.mem_cons, List.not_mem_nil, or_false] at h
    rcases h with rfl | rfl
    · exact .of_text (by decide) (by simp [texts])
    · exact .of_text (by decide) (by simp [texts])
  | breaksOff f =>
    cases ending
    rw [List.mem_singleton.mp h]
    exact ⟨CallNode.brokenOff, by decide, "", rfl, Or.inl rfl⟩

end CallUse

namespace CallGraph
open CallUse
variable {output : Option Path} {us : List CallUse} {n : CallNode}

/-- The lines of a graph are made of marks and of what its uses gave. -/
theorem notes_ofUses (h : n ∈ (ofUses output us).nodes) : ∀ line ∈ n.content, Notes us line := by
  induction us using List.reverseRecOn generalizing n with
  | nil => cases h
  | append_singleton us u ih =>
    rw [ofUses_concat, afterUse] at h
    have hold : ∀ n ∈ (ofUses output us).nodes, ∀ line ∈ n.content, Notes (us ++ [u]) line :=
      fun n hn line hline => (ih hn line hline).mono u
    cases hending : u.ending? with
    | none => cases u with
      | opens f depth text path starting =>
        rcases List.mem_append.mp h with h | h
        · exact hold n h
        · rw [List.mem_singleton.mp h]
          exact fun line hline => notes_opening hline
      | returns | breaksOff => cases hending
    | some lines =>
      rw [use_of_ending hending, close] at h
      cases hp : (ofUses output us).pending.get? u.frame with
      | none =>
        rw [hp] at h
        exact hold n h
      | some i =>
        rw [hp] at h
        obtain ⟨j, hj⟩ := List.mem_iff_getElem?.mp h
        rw [List.getElem?_modify] at hj
        obtain ⟨n', hn', rfl⟩ := Option.map_eq_some_iff.mp hj
        have hn := hold n' (List.mem_iff_getElem?.mpr ⟨j, hn'⟩)
        split
        · intro line hline
          rcases List.mem_append.mp hline with hline | hline
          · exact hn line hline
          · exact notes_ending hending hline
        · exact hn

open CallNode

theorem content_ofUses_ne_nil (h : n ∈ (ofUses output us).nodes) : n.content ≠ [] := by
  obtain ⟨first, last, hfirst, -, hcontent⟩ := (keeps_ofUses output us).grammar n h
  rw [hcontent]
  cases hfirst <;> exact List.cons_ne_nil _ _

/-- Two lists of nodes that are drawn alike, where the contents can be told from the drawing, are as long as
each other, have the same contents, and their depths differ by one number. The nodes of a graph have lines,
and none behind the first one begins with a space; so their contents can be told if no text that was given
for them is broken. -/
theorem drawn_tree_tells_nodes :
    (∀ nodes nodes' : List CallNode, (∀ n ∈ nodes, n.IsDrawable) → (∀ n ∈ nodes', n.IsDrawable) →
      tree nodes = tree nodes' →
        nodes.length = nodes'.length ∧ nodes.map (·.content) = nodes'.map (·.content) ∧
        ∃ k : Int, nodes.map (·.depth) = nodes'.map fun n => n.depth + k) ∧
    ∀ output us, ∀ n ∈ (ofUses output us).nodes,
      n.content ≠ [] ∧ (∀ line ∈ n.content.tail, line.toList.head? ≠ some ' ') ∧
      ((∀ u ∈ us, ∀ text ∈ u.texts, '\n' ∉ text.toList) → n.IsDrawable) := by
  constructor
  · intro nodes nodes' drawable drawable' same
    have hleveled : leveled nodes = leveled nodes' := by
      rw [← readTree_tree drawable, same, readTree_tree drawable']
    have hcontents : nodes.map (·.content) = nodes'.map (·.content) := by
      rw [← contents_leveled, hleveled, contents_leveled]
    refine ⟨by simpa using congrArg List.length hcontents, hcontents,
      baseDepth nodes - baseDepth nodes', ?_⟩
    calc nodes.map (·.depth)
        = (leveled nodes').map fun l => (l.1 : Int) + baseDepth nodes := by
          rw [← hleveled, depths_leveled]
      _ = ((leveled nodes').map fun l => (l.1 : Int) + baseDepth nodes').map
            (· + (baseDepth nodes - baseDepth nodes')) := by
          rw [List.map_map]
          refine List.map_congr_left fun l _ => ?_
          simp only [Function.comp_apply]
          omega
      _ = nodes'.map fun n => n.depth + (baseDepth nodes - baseDepth nodes') := by
          rw [depths_leveled, List.map_map]
          rfl
  · intro output us n hn
    have hnotes := notes_ofUses hn
    have hunindented : ∀ line ∈ n.content.tail, line.toList.head? ≠ some ' ' :=
      fun line hline => (hnotes line (List.mem_of_mem_tail hline)).unindented
    exact ⟨content_ofUses_ne_nil hn, hunindented, fun unbroken =>
      ⟨content_ofUses_ne_nil hn, fun line hline => (hnotes line hline).unbroken unbroken,
        hunindented⟩⟩

/-- A line that begins with a space may be taken for a node of its own. -/
example : tree [⟨0, ["Call ... f()", " ├─ Call ... g()"]⟩] =
    tree [⟨0, ["Call ... f()"]⟩, ⟨1, ["Call ... g()"]⟩] := by
  decide +kernel

def innerCall : List CallUse :=
  [.opens ⟨0, 0⟩ 3 "def f(x):" "/a.py" (some "x = 1"), .opens ⟨0, 1⟩ 4 "    def g():" "/a.py" none,
    .breaksOff ⟨0, 1⟩, .returns ⟨0, 0⟩ "    return x" "1"]

theorem drawn_tree_tells_nodes_of_inner_call :
    let nodes := (ofUses none innerCall).nodes
    let nodes' := nodes.map fun n => { n with depth := n.depth - 7 }
    (∀ n ∈ nodes, n.IsDrawable) ∧ (∀ n ∈ nodes', n.IsDrawable) ∧ tree nodes = tree nodes' ∧
      ∃ k : Int, nodes.map (·.depth) = nodes'.map fun n => n.depth + k := by
  intro nodes nodes'
  obtain ⟨htells, hgraph⟩ := drawn_tree_tells_nodes
  have hdrawable : ∀ n ∈ nodes, n.IsDrawable :=
    fun n hn => (hgraph none innerCall n hn).2.2 (by decide)
  have hdrawable' : ∀ n ∈ nodes', n.IsDrawable := by
    intro n' hn'
    obtain ⟨n, hn, rfl⟩ := List.mem_map.mp hn'
    exact ⟨(hdrawable n hn).nonempty, (hdrawable n hn).unbroken, (hdrawable n hn).unindented⟩
  have hsame : tree nodes = tree nodes' := by decide +kernel
  exact ⟨hdrawable, hdrawable', hsame, (htells nodes nodes' hdrawable hdrawable' hsame).2.2⟩

end CallGraph
end SelectiveTrace
