import SelectiveTrace.Proofs.CallGraph.Observed
import SelectiveTrace.Proofs.CallGraph.Visits

/-! A call graph as the record of visits: which node is whose, which nodes stand open, and what has
gone wrong. -/
namespace SelectiveTrace

theorem forall_of_iff {P : List Visit → Prop} {V V' : List Visit} {id : FrameId}
    (here : P (Visit.of id V') ↔ P (Visit.of id V))
    (others : ∀ j, j ≠ id → Visit.of j V' = Visit.of j V) :
    (∀ j, P (Visit.of j V')) ↔ ∀ j, P (Visit.of j V) := by
  refine forall_congr' fun j => ?_
  by_cases hj : j = id
  · rw [hj]
    exact here
  · rw [others j hj]

def CallNode.Opens (t : Tracer) (file : Path) (n : CallNode) : Prop :=
  ∃ line starting more, n.content = opening line (t.displayPath file) starting ++ more

namespace CallGraph

/-- Every node is closed or stands open for a frame. -/
def IsSettled (g : CallGraph) : Prop :=
  ∀ (i : Nat) (n : CallNode), g.nodes[i]? = some n →
    n.isClosed = true ∨ ∃ id, g.pending.get? id = some i

/-- The node that an end closes was settled before, since it stood open. -/
theorem isSettled_erase_iff {g : CallGraph} {id : FrameId} {i : Nat}
    (pending : g.pending.get? id = some i) {lines : List String}
    (closing : ∀ n : CallNode, (n.add lines).isClosed = true) :
    IsSettled { g with
      nodes := g.nodes.modify i (·.add lines), pending := g.pending.erase id } ↔ g.IsSettled := by
  have hnode : ∀ k, k ≠ i → (g.nodes.modify i (·.add lines))[k]? = g.nodes[k]? :=
    fun k hk => List.getElem?_modify_ne _ _ hk.symm
  constructor
  · intro hall k n hn
    by_cases hk : k = i
    · exact Or.inr ⟨id, hk ▸ pending⟩
    · refine (hall k n ((hnode k hk).trans hn)).imp_right ?_
      rintro ⟨j, hj⟩
      exact ⟨j, (Table.get?_erase_eq_some_iff.mp hj).2⟩
  · intro hall k n hn
    by_cases hk : k = i
    · rw [hk, List.getElem?_modify] at hn
      obtain ⟨n', -, rfl⟩ := Option.map_eq_some_iff.mp hn
      refine Or.inl ?_
      simpa using closing n'
    · refine (hall k n ((hnode k hk).symm.trans hn)).imp_right ?_
      rintro ⟨j, hj⟩
      refine ⟨j, Table.get?_erase_eq_some_iff.mpr ⟨?_, hj⟩⟩
      rintro rfl
      exact hk (Option.some.inj (hj.symm.trans pending))

end CallGraph

structure Visit.Records (t : Tracer) (V : List Visit) (g : CallGraph) (faults : List Error) :
    Prop where
  pending : ∀ id, (g.pending.get? id).isSome = leavesOpen (of id V)
  injective : ∀ id j i, g.pending.get? id = some i → g.pending.get? j = some i → id = j
  unclosed : ∀ id i, g.pending.get? id = some i →
    ∃ n, g.nodes[i]? = some n ∧ n.isClosed = false
  nodes : List.Forall₂ (CallNode.Opens t) ((shown V).map file) g.nodes
  matched : faults = [] ↔ ∀ id, IsMatched (of id V)
  /-- Every node is closed or stands open for a frame, unless a call was shown too early. -/
  kept : (∀ (i : Nat) (n : CallNode), g.nodes[i]? = some n →
    n.isClosed = true ∨ ∃ id, g.pending.get? id = some i) ↔ ∀ id, IsKept (of id V)

namespace Visit.Records
variable {t : Tracer} {V V' : List Visit} {g g' : CallGraph} {faults es : List Error} {id : FrameId}

theorem empty (t : Tracer) (output : Option Path) : Records t [] { output } [] := by
  refine ⟨fun _ => rfl, ?_, ?_, .nil, iff_of_true rfl fun _ => trivial,
    iff_of_true ?_ fun _ => trivial⟩
  · intro id j i h
    cases h
  · intro id i h
    cases h
  · intro i n h
    simp at h

/-- The graph stays. -/
theorem unchanged (h : Records t V g faults) (others : ∀ j, j ≠ id → of j V' = of j V)
    (hshown : (shown V').map file = (shown V).map file)
    (opens : leavesOpen (of id V') = leavesOpen (of id V))
    (hmatched : IsMatched (of id V') ↔ IsMatched (of id V))
    (hkept : IsKept (of id V') ↔ IsKept (of id V)) : Records t V' g faults := by
  refine ⟨?_, h.injective, h.unclosed, hshown ▸ h.nodes,
    h.matched.trans (forall_of_iff hmatched others).symm,
    h.kept.trans (forall_of_iff hkept others).symm⟩
  intro j
  by_cases hj : j = id
  · rw [hj, opens, h.pending]
  · rw [others j hj, h.pending]

/-- A node that stands open for a frame is in the graph. -/
theorem lt_length (h : Records t V g faults) {i : Nat} (hp : g.pending.get? id = some i) :
    i < g.nodes.length := by
  obtain ⟨n, hn, -⟩ := h.unclosed id i hp
  exact (List.getElem?_eq_some_iff.mp hn).1

/-- A node is closed. -/
theorem close (h : Records t V g faults) (others : ∀ j, j ≠ id → of j V' = of j V)
    (hshown : (shown V').map file = (shown V).map file) {i : Nat}
    (pending : g.pending.get? id = some i) {lines : List String}
    (closing : ∀ n : CallNode, (n.add lines).isClosed = true)
    (shuts : leavesOpen (of id V') = false)
    (hmatched : IsMatched (of id V') ↔ IsMatched (of id V))
    (hkept : IsKept (of id V') ↔ IsKept (of id V)) :
    Records t V' { g with
      nodes := g.nodes.modify i (·.add lines), pending := g.pending.erase id } faults := by
  refine ⟨?_, ?_, ?_, ?_, h.matched.trans (forall_of_iff hmatched others).symm,
    (CallGraph.isSettled_erase_iff pending closing).trans
      (h.kept.trans (forall_of_iff hkept others).symm)⟩
  · intro j
    by_cases hj : j = id
    · rw [hj, shuts, Table.get?_erase_self]
      rfl
    · rw [Table.get?_erase_of_ne _ hj, others j hj, h.pending]
  · intro j k l hj hk
    exact h.injective j k l (Table.get?_erase_eq_some_iff.mp hj).2
      (Table.get?_erase_eq_some_iff.mp hk).2
  · intro j k hj
    obtain ⟨hji, hj'⟩ := Table.get?_erase_eq_some_iff.mp hj
    have hki : k ≠ i := by
      rintro rfl
      exact hji (h.injective j id k hj' pending)
    obtain ⟨n, hn, hc⟩ := h.unclosed j k hj'
    exact ⟨n, (List.getElem?_modify_ne _ _ hki.symm).trans hn, hc⟩
  · rw [hshown]
    refine forall₂_modify_right h.nodes i ?_
    rintro file n ⟨line, starting, more, hc⟩
    refine ⟨line, starting, more ++ lines, ?_⟩
    rw [CallNode.add, hc, List.append_assoc]

/-- An end is shown where no node stands open. -/
theorem unmatched (h : Records t V g faults) (others : ∀ j, j ≠ id → of j V' = of j V)
    (hshown : (shown V').map file = (shown V).map file) (e : Error)
    (opens : leavesOpen (of id V') = leavesOpen (of id V)) (hmatched : ¬ IsMatched (of id V'))
    (hkept : IsKept (of id V') ↔ IsKept (of id V)) : Records t V' g (faults ++ [e]) := by
  refine ⟨?_, h.injective, h.unclosed, hshown ▸ h.nodes,
    iff_of_false (by simp) fun hall => hmatched (hall id),
    h.kept.trans (forall_of_iff hkept others).symm⟩
  intro j
  by_cases hj : j = id
  · rw [hj, opens, h.pending]
  · rw [others j hj, h.pending]

section
variable {f : FrameId} {d : Int} {line path : String} {starting : Option String}

/-- A call takes the node of no frame but its own. -/
theorem injective_openCall (h : Records t V g faults) (j k : FrameId) (i : Nat)
    (hj : (g.openCall f d line path starting).pending.get? j = some i)
    (hk : (g.openCall f d line path starting).pending.get? k = some i) : j = k := by
  rcases CallGraph.pending_openCall_eq_some_iff.mp hj with ⟨hj, hi⟩ | ⟨-, hj⟩ <;>
    rcases CallGraph.pending_openCall_eq_some_iff.mp hk with ⟨hk, hi'⟩ | ⟨-, hk⟩
  · rw [hj, hk]
  · have hl := h.lt_length hk
    omega
  · have hl := h.lt_length hj
    omega
  · exact h.injective j k i hj hk

theorem unclosed_openCall (h : Records t V g faults) (j : FrameId) (i : Nat)
    (hj : (g.openCall f d line path starting).pending.get? j = some i) :
    ∃ n, (g.openCall f d line path starting).nodes[i]? = some n ∧ n.isClosed = false := by
  rcases CallGraph.pending_openCall_eq_some_iff.mp hj with ⟨-, rfl⟩ | ⟨-, hj⟩
  · exact ⟨_, List.getElem?_concat_length, CallNode.isClosed_opening _ _ _ _⟩
  · obtain ⟨n, hn, hc⟩ := h.unclosed j i hj
    exact ⟨n, (CallGraph.nodes_openCall_of_lt (h.lt_length hj)).trans hn, hc⟩

/-- A call loses the node that stands open for its frame, and no other. -/
theorem isSettled_openCall_iff (h : Records t V g faults) :
    (g.openCall f d line path starting).IsSettled ↔
      g.IsSettled ∧ g.pending.get? f = none := by
  constructor
  · intro hall
    have hbefore : ∀ (i : Nat) (n : CallNode), g.nodes[i]? = some n →
        n.isClosed = true ∨ ∃ j, j ≠ f ∧ g.pending.get? j = some i := by
      intro i n hn
      have hi := (List.getElem?_eq_some_iff.mp hn).1
      refine (hall i n ((CallGraph.nodes_openCall_of_lt hi).trans hn)).imp_right ?_
      rintro ⟨j, hj⟩
      rcases CallGraph.pending_openCall_eq_some_iff.mp hj with ⟨-, he⟩ | hj
      · omega
      · exact ⟨j, hj⟩
    refine ⟨fun i n hn => (hbefore i n hn).imp_right fun ⟨j, hj⟩ => ⟨j, hj.2⟩, ?_⟩
    -- a node that stands open for the frame is not closed, and no other frame keeps it open
    by_contra hp
    obtain ⟨i, hp⟩ := Option.ne_none_iff_exists'.mp hp
    obtain ⟨n, hn, hc⟩ := h.unclosed f i hp
    rcases hbefore i n hn with hc' | ⟨j, hne, hj⟩
    · rw [hc] at hc'
      cases hc'
    · exact hne (h.injective j f i hj hp)
  · rintro ⟨hall, hfree⟩ i n hn
    by_cases hi : i < g.nodes.length
    · refine (hall i n ((CallGraph.nodes_openCall_of_lt hi).symm.trans hn)).imp_right ?_
      rintro ⟨j, hj⟩
      refine ⟨j, CallGraph.pending_openCall_eq_some_iff.mpr (Or.inr ⟨?_, hj⟩)⟩
      rintro rfl
      rw [hfree] at hj
      cases hj
    · have hl := (List.getElem?_eq_some_iff.mp hn).1
      rw [CallGraph.length_nodes_openCall] at hl
      exact Or.inr ⟨f, CallGraph.pending_openCall_eq_some_iff.mpr (Or.inl ⟨rfl, by omega⟩)⟩

end

/-- A call is shown. -/
theorem openCall (h : Records t V g faults) {v : Visit} (opened : v.opened = true)
    (running : v.left? = none) (stays : v.dropped = false) (d : Int) (line : String)
    (starting : Option String) :
    Records t (v :: V) (g.openCall v.frame d line (t.displayPath v.file) starting) faults := by
  have hshut : v.shut = false := shut_of_running running
  have others : ∀ j, j ≠ v.frame → of j (v :: V) = of j V :=
    fun j hj => of_cons_of_ne hj.symm V
  have hkept : (∀ j, IsKept (of j (v :: V))) ↔
      (∀ j, IsKept (of j V)) ∧ leavesOpen (of v.frame V) = false := by
    constructor
    · intro hall
      have hv := hall v.frame
      rw [of_cons_self] at hv
      refine ⟨fun j => ?_, hv.2 opened⟩
      by_cases hj : j = v.frame
      · exact hj ▸ hv.1
      · exact others j hj ▸ hall j
    · rintro ⟨hall, hfree⟩ j
      by_cases hj : j = v.frame
      · rw [hj, of_cons_self]
        exact ⟨hall v.frame, fun _ => hfree⟩
      · exact (others j hj).symm ▸ hall j
  refine ⟨?_, h.injective_openCall, h.unclosed_openCall, ?_, ?_, ?_⟩
  · intro j
    by_cases hj : j = v.frame
    · rw [hj, of_cons_self, leavesOpen, opened, hshut, stays]
      exact Option.isSome_iff_exists.mpr
        ⟨_, CallGraph.pending_openCall_eq_some_iff.mpr (Or.inl ⟨rfl, rfl⟩)⟩
    · rw [others j hj, ← h.pending]
      exact congrArg Option.isSome (Table.get?_insert_of_ne _ _ hj)
  · have hs : shown (v :: V) = shown V ++ [v] := by
      unfold shown
      simp [opened]
    rw [hs, List.map_append]
    refine List.rel_append h.nodes (.cons ⟨line, starting, [], ?_⟩ .nil)
    simp
  · refine h.matched.trans (forall_of_iff ?_ others).symm
    rw [of_cons_self, IsMatched, hshut]
    simp
  · refine h.isSettled_openCall_iff.trans ((and_congr h.kept ?_).trans hkept.symm)
    rw [← h.pending, Option.isSome_eq_false_iff, Option.isNone_iff_eq_none]

/-! What becomes of the record by the events of a frame. -/

/-- A call. -/
theorem enter (h : Records t V g faults) {v : Visit} (running : v.left? = none)
    (stays : v.dropped = false)
    (shown : if v.opened then ∃ d line starting,
      g' = g.openCall v.frame d line (t.displayPath v.file) starting else g' = g) :
    Records t (v :: V) g' faults := by
  cases ho : v.opened with
  | true =>
    rw [ho] at shown
    obtain ⟨d, line, starting, rfl⟩ := shown
    exact h.openCall ho running stays d line starting
  | false =>
    rw [ho] at shown
    have hg : g' = g := shown
    have hshut : v.shut = false := shut_of_running running
    have others : ∀ j, j ≠ v.frame → of j (v :: V) = of j V :=
      fun j hj => of_cons_of_ne hj.symm V
    rw [hg]
    refine h.unchanged others ?_ ?_ ?_ ?_
    · unfold Visit.shown
      simp [ho]
    · simp [of_cons_self, leavesOpen, ho, hshut, stays]
    · simp [of_cons_self, IsMatched, hshut]
    · simp [of_cons_self, IsKept, ho]

variable {v : Visit} {vs : List Visit}

/-- A line. -/
theorem pass (h : Records t V g faults) (current : of id V = v :: vs) (running : v.left? = none)
    (inside heard : Bool) : Records t (amend id (·.pass inside heard) V) g faults := by
  have hof : of id (amend id (·.pass inside heard) V) = v.pass inside heard :: vs :=
    of_amend (sparesCall_pass _ _) current
  have hshut : v.shut = false := shut_of_running running
  have hpassed : (v.pass inside heard).shut = false := shut_of_running running
  have hopened : (v.pass inside heard).opened = v.opened := rfl
  have hdropped : (v.pass inside heard).dropped = v.dropped := rfl
  refine h.unchanged (fun j hj => of_amend_of_ne (sparesCall_pass _ _) hj V)
    (map_shown_amend (sparesCall_pass _ _) V) ?_ ?_ ?_
  · rw [hof, current, leavesOpen, leavesOpen, hpassed, hshut, hopened, hdropped]
  · rw [hof, current, IsMatched, IsMatched, hpassed, hshut]
    simp
  · rw [hof, current, IsKept, IsKept, hopened]

/-- An end. -/
theorem leave (h : Records t V g faults) (current : of id V = v :: vs) (running : v.left? = none)
    (stays : v.dropped = false) {inside : Bool}
    (shown : if (v.leave inside).shut then g.Shuts id g' es else g' = g ∧ es = []) :
    Records t (amend id (·.leave inside) V) g' (faults ++ es) := by
  have hof : of id (amend id (·.leave inside) V) = v.leave inside :: vs :=
    of_amend (sparesCall_leave _) current
  have others : ∀ j, j ≠ id → of j (amend id (·.leave inside) V) = of j V :=
    fun j hj => of_amend_of_ne (sparesCall_leave _) hj V
  have hshown : (Visit.shown (amend id (·.leave inside) V)).map file = (Visit.shown V).map file :=
    map_shown_amend (sparesCall_leave _) V
  have hwas : v.shut = false := shut_of_running running
  have hpend := h.pending id
  rw [current, leavesOpen, hwas, stays] at hpend
  simp only [Bool.not_false, Bool.and_true] at hpend
  have hkept : IsKept (of id (amend id (·.leave inside) V)) ↔ IsKept (of id V) := by
    rw [hof, current]
    exact Iff.rfl
  have hopened : (v.leave inside).opened = v.opened := rfl
  have hdropped : (v.leave inside).dropped = v.dropped := rfl
  cases hs : (v.leave inside).shut with
  | false =>
    rw [hs] at shown
    obtain ⟨rfl, rfl⟩ : g' = g ∧ es = [] := shown
    rw [List.append_nil]
    refine h.unchanged others hshown ?_ ?_ hkept
    · rw [hof, current, leavesOpen, leavesOpen, hs, hwas, hopened, hdropped]
    · rw [hof, current, IsMatched, IsMatched, hs, hwas]
      simp
  | true =>
    rw [hs] at shown
    have hclosed : leavesOpen (of id (amend id (·.leave inside) V)) = false := by
      rw [hof, leavesOpen, hs]
      simp
    have hmatched : IsMatched (of id (amend id (·.leave inside) V)) ↔
        IsMatched vs ∧ (g.pending.get? id).isSome = true := by
      rw [hof, IsMatched, hs, hopened, hpend]
      simp
    cases shown with
    | closed pending lines closing =>
      rw [List.append_nil]
      refine h.close others hshown pending closing hclosed (hmatched.trans ?_) hkept
      rw [current, IsMatched, hwas, pending]
      simp
    | unmatched pending e =>
      refine h.unmatched others hshown e ?_ ?_ hkept
      · rw [hclosed, ← h.pending, pending]
        rfl
      · rw [hmatched, pending]
        simp

/-- A suspended frame is dropped. -/
theorem drop (h : Records t V g faults)
    (shown : if (g.pending.get? id).isSome then g.Shuts id g' [] else g' = g) :
    Records t (amend id (·.drop true) V) g' faults := by
  have others : ∀ j, j ≠ id → of j (amend id (·.drop true) V) = of j V :=
    fun j hj => of_amend_of_ne (sparesCall_drop _) hj V
  have hshown : (Visit.shown (amend id (·.drop true) V)).map file = (Visit.shown V).map file :=
    map_shown_amend (sparesCall_drop _) V
  have hpend := h.pending id
  have hopens : leavesOpen (of id (amend id (·.drop true) V)) = false := by
    cases hc : of id V with
    | nil =>
      rw [amend_of_nil hc, hc]
      rfl
    | cons v vs =>
      rw [of_amend (sparesCall_drop _) hc, leavesOpen]
      simp [Visit.drop]
  have hrest : (IsMatched (of id (amend id (·.drop true) V)) ↔ IsMatched (of id V)) ∧
      (IsKept (of id (amend id (·.drop true) V)) ↔ IsKept (of id V)) := by
    cases hc : of id V with
    | nil =>
      rw [amend_of_nil hc, hc]
      exact ⟨Iff.rfl, Iff.rfl⟩
    | cons v vs =>
      rw [of_amend (sparesCall_drop _) hc]
      exact ⟨Iff.rfl, Iff.rfl⟩
  cases hp : (g.pending.get? id).isSome with
  | true =>
    rw [hp] at shown
    cases shown with
    | closed pending lines closing =>
      exact h.close others hshown pending closing hopens hrest.1 hrest.2
  | false =>
    rw [hp] at shown hpend
    have hg : g' = g := shown
    rw [hg]
    exact h.unchanged others hshown (hopens.trans hpend) hrest.1 hrest.2

end Visit.Records
end SelectiveTrace
