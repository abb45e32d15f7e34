import SelectiveTrace.Proofs.CallGraph.Telling

/-! A call graph that is collected by target codes is the forest of the calls that were shown. Its
nodes stand in the order of the calls, their depths count the calls around them, and they are closed
when the calls end, in the way they end. -/
namespace SelectiveTrace
open Machine

/-- The machine, the tracer and the graph are in step with the forest. The open nodes are those of the
running frames whose calls and ends are shown, and the hook has given none of these frames up. The
tracer shows paths and values as it did at the start, when it was `t`. -/
structure InStep (t : Tracer) (m : Machine) (s : Tracer × Surroundings) (F : Forest)
    (g : CallGraph) : Prop where
  linked : m.Linked
  byCode : s.1.ByCode
  config : s.1.config = t.config
  counted : t.config.overflows = false
  renderer : s.1.renderer = t.renderer
  total : s.1.renderer.IsTotal
  faults : s.1.faults = []
  graph : s.1.graph = some g
  accepts : ∀ path, g.output = some path → s.2.Accepts path
  nested : F.IsNested
  active : F.active = m.stack.map g.pending.get?
  away : ∀ id, id ∉ m.stack → g.pending.get? id = none
  settled : ∀ id rest f, id :: rest <:+ m.stack → m.standing id = some f →
    s.1.shows f (m.framesAt rest) = (g.pending.get? id).isSome
  heard : ∀ id, (g.pending.get? id).isSome → id ∉ m.untraced
  depth : s.1.session.depth m.thread.id = F.running.length - 1
  nodes : List.Forall₂ t.Tells F.calls g.nodes

namespace InStep
variable {t : Tracer} {m m' : Machine} {s s' : Tracer × Surroundings} {F : Forest} {g : CallGraph}
  {f : Frame}

/-- What is settled below the acting frame stays settled. -/
theorem settled_of_not_mem (h : InStep t m s F g) {a : FrameId} (keeps : s.1.Keeps s'.1 a)
    (spares : ∀ j, j ≠ a → m.Spares m' j) {id : FrameId} {rest : List FrameId} {f : Frame}
    (hs : id :: rest <:+ m.stack) (ha : a ∉ id :: rest) (hf : m'.standing id = some f) :
    s'.1.shows f (m'.framesAt rest) = (g.pending.get? id).isSome := by
  have hne : ∀ j ∈ id :: rest, j ≠ a := fun j hj he => ha (he ▸ hj)
  have hr : m'.framesAt rest = m.framesAt rest :=
    framesAt_congr fun j hj => (spares j (hne j (List.mem_cons_of_mem _ hj))).standing
  rw [hr, keeps.shows fun k hk => hne _ (List.mem_cons_of_mem _ (h.linked.mem_framesAt hk))]
  rw [(spares id (hne id List.mem_cons_self)).standing] at hf
  exact h.settled id rest f hs hf

/-- The stack and the graph stay; the acting frame, if it runs, keeps its code. -/
theorem stay (h : InStep t m s F g) {a : FrameId} (acts : m.Acts m' a)
    (stack : m'.stack = m.stack)
    (own : a ∈ m.stack → m.stack.head? = some a ∧
      ∀ f', m'.standing a = some f' → ∃ f, m.standing a = some f ∧ f'.code = f.code)
    (traced : (g.pending.get? a).isSome → a ∉ m'.untraced) (keeps : s.1.Keeps s'.1 a)
    (faults : s'.1.faults = s.1.faults) (graph : s'.1.graph = some g) (world : s'.2 = s.2)
    (depth : s'.1.session.depth m.thread.id = s.1.session.depth m.thread.id) :
    InStep t m' s' F g := by
  refine ⟨acts.linked, keeps.byCode h.byCode, keeps.config.trans h.config, h.counted,
    keeps.renderer.trans h.renderer, keeps.renderer ▸ h.total, faults.trans h.faults, graph,
    ?_, h.nested, ?_, ?_, ?_, ?_, ?_, ?_⟩
  · rw [world]
    exact h.accepts
  · rw [stack]
    exact h.active
  · rw [stack]
    exact h.away
  · intro id rest f hs hf
    rw [stack] at hs
    by_cases he : id = a
    · subst he
      obtain ⟨f₀, hf₀, hc⟩ := (own (hs.mem List.mem_cons_self)).2 f hf
      have hn : id ∉ rest := (List.nodup_cons.mp (h.linked.nodup.sublist hs.sublist)).1
      have hne : ∀ j ∈ rest, j ≠ id := fun j hj he => hn (he ▸ hj)
      have hr : m'.framesAt rest = m.framesAt rest :=
        framesAt_congr fun j hj => (acts.spares j (hne j hj)).standing
      have hsame : ∀ below, s.1.shows f below = s.1.shows f₀ below := by
        intro below
        unfold Tracer.shows
        rw [hc]
      rw [hr, keeps.shows fun k hk => hne _ (h.linked.mem_framesAt hk), hsame]
      exact h.settled id rest f₀ hs hf₀
    · by_cases ha : a ∈ rest
      · -- the acting frame is the innermost one, so nothing stands on it
        obtain ⟨tail, ht⟩ :=
          List.head?_eq_some_iff.mp (own (hs.mem (List.mem_cons_of_mem _ ha))).1
        rw [ht, List.suffix_cons_iff] at hs
        rcases hs with hs | hs
        · exact absurd (List.cons.inj hs).1 he
        · exact absurd (hs.mem (List.mem_cons_of_mem _ ha)) (h.linked.not_mem_rest ht)
      · refine h.settled_of_not_mem keeps acts.spares hs ?_ hf
        simp [ha, Ne.symm he]
  · intro id hp
    by_cases he : id = a
    · exact he ▸ traced (he ▸ hp)
    · exact fun hu => h.heard id hp ((acts.spares id he).untraced hu)
  · rw [acts.thread, depth]
    exact h.depth
  · exact h.nodes

/-- A frame comes on top, and its call is shown. -/
theorem push_shown (h : InStep t m s F g) (acts : m.Acts m' f.id) (off : f.id ∉ m.stack)
    (stack : m'.stack = f.id :: m.stack) (here : f.thread = m.thread)
    (standing : m'.standing f.id = some f.place) (traced : f.id ∉ m'.untraced)
    (shown : s.1.shows f (m.framesAt m.stack) = true) (moves : s.1.Moves s'.1 f 1)
    (world : s'.2 = s.2) {line : String} {starting : Option String}
    (graph : s'.1.graph = some (g.openCall f.id (s.1.session.depth f.thread.id + 1) line
      (s.1.displayPath f.file) starting)) :
    ∃ g', InStep t m' s' (F.enter f.file true) g' ∧ g'.output = g.output := by
  have hlen : g.nodes.length = F.calls.length := h.nodes.length_eq.symm
  have hpend : ∀ j, j ≠ f.id → (g.openCall f.id (s.1.session.depth f.thread.id + 1) line
      (s.1.displayPath f.file) starting).pending.get? j = g.pending.get? j :=
    fun j hj => Table.get?_insert_of_ne _ _ hj
  have hnew : (g.openCall f.id (s.1.session.depth f.thread.id + 1) line
      (s.1.displayPath f.file) starting).pending.get? f.id = some F.calls.length := by
    rw [← hlen]
    exact Table.get?_insert_self _ _ _
  have hne : ∀ j ∈ m.stack, j ≠ f.id := fun j hj he => off (he ▸ hj)
  refine ⟨_, ⟨acts.linked, moves.keeps.byCode h.byCode, moves.keeps.config.trans h.config,
    h.counted, moves.keeps.renderer.trans h.renderer, moves.keeps.renderer ▸ h.total,
    moves.faults.trans h.faults, graph, ?_, h.nested.enter _ _, ?_, ?_, ?_, ?_, ?_, ?_⟩, rfl⟩
  · rw [world]
    exact h.accepts
  · rw [stack, List.map_cons, hnew]
    have hmap := List.map_congr_left fun j hj => hpend j (hne j hj)
    rw [hmap, ← h.active]
    rfl
  · intro id hid
    rw [stack, List.mem_cons, not_or] at hid
    rw [hpend id hid.1]
    exact h.away id hid.2
  · intro id rest k hs hk
    rw [stack, List.suffix_cons_iff] at hs
    rcases hs with hs | hs
    · obtain ⟨rfl, rfl⟩ := List.cons.inj hs
      rw [standing] at hk
      cases hk
      have hr : m'.framesAt m.stack = m.framesAt m.stack :=
        framesAt_congr fun j hj => (acts.spares j (hne j hj)).standing
      rw [hr, moves.keeps.shows fun k hk => hne _ (h.linked.mem_framesAt hk), hnew]
      exact shown
    · rw [hpend id (hne id (hs.mem List.mem_cons_self))]
      exact h.settled_of_not_mem moves.keeps acts.spares hs (fun hm => off (hs.mem hm)) hk
  · intro id hid
    by_cases he : id = f.id
    · exact he ▸ traced
    · rw [hpend id he] at hid
      exact fun hu => h.heard id hid ((acts.spares id he).untraced hu)
  · have hd := moves.depth
    rw [here, h.depth] at hd
    rw [acts.thread, hd, Forest.running_enter]
    simp
  · have hd := h.depth
    rw [← here] at hd
    refine List.rel_append h.nodes (.cons ?_ .nil)
    have hpath : s.1.displayPath f.file = t.displayPath f.file := by
      unfold Tracer.displayPath
      rw [h.config]
    rw [hd, Int.sub_add_cancel, hpath]
    exact Tracer.tells_opening _ _ _ _ _

/-- A frame comes on top, and its call is not shown. -/
theorem push_hidden (h : InStep t m s F g) (acts : m.Acts m' f.id) (off : f.id ∉ m.stack)
    (stack : m'.stack = f.id :: m.stack) (here : f.thread = m.thread)
    (standing : m'.standing f.id = some f.place)
    (hidden : s.1.shows f (m.framesAt m.stack) = false) (moves : s.1.Moves s'.1 f 0)
    (world : s'.2 = s.2) (graph : s'.1.graph = some g) :
    InStep t m' s' (F.enter f.file false) g := by
  have hne : ∀ j ∈ m.stack, j ≠ f.id := fun j hj he => off (he ▸ hj)
  refine ⟨acts.linked, moves.keeps.byCode h.byCode, moves.keeps.config.trans h.config,
    h.counted, moves.keeps.renderer.trans h.renderer, moves.keeps.renderer ▸ h.total,
    moves.faults.trans h.faults, graph, ?_, h.nested.enter _ _, ?_, ?_, ?_, ?_, ?_, ?_⟩
  · rw [world]
    exact h.accepts
  · rw [stack, List.map_cons, h.away _ off, ← h.active]
    rfl
  · intro id hid
    rw [stack, List.mem_cons, not_or] at hid
    exact h.away id hid.2
  · intro id rest k hs hk
    rw [stack, List.suffix_cons_iff] at hs
    rcases hs with hs | hs
    · obtain ⟨rfl, rfl⟩ := List.cons.inj hs
      rw [standing] at hk
      cases hk
      have hr : m'.framesAt m.stack = m.framesAt m.stack :=
        framesAt_congr fun j hj => (acts.spares j (hne j hj)).standing
      rw [hr, moves.keeps.shows fun k hk => hne _ (h.linked.mem_framesAt hk), h.away _ off]
      exact hidden
    · exact h.settled_of_not_mem moves.keeps acts.spares hs (fun hm => off (hs.mem hm)) hk
  · intro id hid
    have he : id ≠ f.id := by
      rintro rfl
      rw [h.away _ off] at hid
      cases hid
    exact fun hu => h.heard id hid ((acts.spares id he).untraced hu)
  · have hd := moves.depth
    rw [here, h.depth, Int.add_zero] at hd
    rw [acts.thread, hd, Forest.running_enter]
    simp
  · exact h.nodes

/-- The innermost frame ends, and its end is shown. -/
theorem pop_shown (h : InStep t m s F g) (acts : m.Acts m' f.id) {rest : List FrameId}
    (top : m.stack = f.id :: rest) (stack : m'.stack = rest) (here : f.thread = m.thread) {i : Nat}
    (pending : g.pending.get? f.id = some i) (moves : s.1.Moves s'.1 f (-1)) {e : Ending}
    {closing : List String} (told : Ending.Told s.1.renderer (some e) closing)
    (graph : s'.1.graph = some { g with
      nodes := g.nodes.modify i (·.add closing), pending := g.pending.erase f.id })
    (accepts : ∀ path, g.output = some path → s'.2.Accepts path) :
    ∃ g', InStep t m' s' (F.leave e) g' ∧ g'.output = g.output := by
  have off : f.id ∉ rest := h.linked.not_mem_rest top
  have hne : ∀ j ∈ rest, j ≠ f.id := fun j hj he => off (he ▸ hj)
  have hpend : ∀ j, j ≠ f.id → (g.pending.erase f.id).get? j = g.pending.get? j :=
    fun j hj => Table.get?_erase_of_ne _ hj
  have hact : F.active = some i :: rest.map g.pending.get? := by
    rw [h.active, top, List.map_cons, pending]
  have hrun : F.running = i :: (rest.map g.pending.get?).filterMap id := by
    unfold Forest.running
    rw [hact]
    rfl
  have hleave : F.leave e =
      { calls := F.calls.modify i fun c => { c with ending? := some e }
        active := rest.map g.pending.get? } := by
    unfold Forest.leave
    rw [hact]
  refine ⟨_, ⟨acts.linked, moves.keeps.byCode h.byCode, moves.keeps.config.trans h.config,
    h.counted, moves.keeps.renderer.trans h.renderer, moves.keeps.renderer ▸ h.total,
    moves.faults.trans h.faults, graph, accepts, h.nested.leave e, ?_, ?_, ?_, ?_, ?_, ?_⟩, rfl⟩
  · rw [stack, hleave]
    exact (List.map_congr_left fun j hj => hpend j (hne j hj)).symm
  · intro id hid
    by_cases he : id = f.id
    · rw [he]
      exact Table.get?_erase_self _ _
    · rw [stack] at hid
      rw [hpend id he]
      refine h.away id ?_
      rw [top, List.mem_cons, not_or]
      exact ⟨he, hid⟩
  · intro id below k hs hk
    rw [stack] at hs
    rw [hpend id (hne id (hs.mem List.mem_cons_self))]
    refine h.settled_of_not_mem moves.keeps acts.spares ?_ (fun hm => off (hs.mem hm)) hk
    rw [top]
    exact hs.trans (List.suffix_cons _ _)
  · intro id hid
    have he : id ≠ f.id := by
      rintro rfl
      rw [Table.get?_erase_self] at hid
      cases hid
    rw [hpend id he] at hid
    exact fun hu => h.heard id hid ((acts.spares id he).untraced hu)
  · have hd := moves.depth
    rw [here, h.depth, hrun] at hd
    rw [acts.thread, hd, hleave]
    simp [Forest.running]
    omega
  · rw [hleave]
    refine forall₂_modify h.nodes i ?_
    intro c n hc hn
    obtain ⟨c', hc', hopen⟩ := (h.nested.isOpen i).mp (by rw [hrun]; exact List.mem_cons_self)
    rw [hc] at hc'
    cases hc'
    exact hn.add hopen (h.renderer ▸ told)

/-- The innermost frame ends, and its end is not shown. -/
theorem pop_hidden (h : InStep t m s F g) (acts : m.Acts m' f.id) {rest : List FrameId}
    (top : m.stack = f.id :: rest) (stack : m'.stack = rest) (here : f.thread = m.thread)
    (pending : g.pending.get? f.id = none) (moves : s.1.Moves s'.1 f 0) (e : Ending)
    (graph : s'.1.graph = some g) (world : s'.2 = s.2) : InStep t m' s' (F.leave e) g := by
  have off : f.id ∉ rest := h.linked.not_mem_rest top
  have hact : F.active = none :: rest.map g.pending.get? := by
    rw [h.active, top, List.map_cons, pending]
  have hleave : F.leave e = { F with active := rest.map g.pending.get? } := by
    unfold Forest.leave
    rw [hact]
  refine ⟨acts.linked, moves.keeps.byCode h.byCode, moves.keeps.config.trans h.config,
    h.counted, moves.keeps.renderer.trans h.renderer, moves.keeps.renderer ▸ h.total,
    moves.faults.trans h.faults, graph, ?_, h.nested.leave e, ?_, ?_, ?_, ?_, ?_, ?_⟩
  · rw [world]
    exact h.accepts
  · rw [stack, hleave]
  · intro id hid
    by_cases he : id = f.id
    · rw [he]
      exact pending
    · rw [stack] at hid
      refine h.away id ?_
      rw [top, List.mem_cons, not_or]
      exact ⟨he, hid⟩
  · intro id below k hs hk
    rw [stack] at hs
    refine h.settled_of_not_mem moves.keeps acts.spares ?_ (fun hm => off (hs.mem hm)) hk
    rw [top]
    exact hs.trans (List.suffix_cons _ _)
  · intro id hid
    have he : id ≠ f.id := by
      rintro rfl
      rw [pending] at hid
      cases hid
    exact fun hu => h.heard id hid ((acts.spares id he).untraced hu)
  · have hd := moves.depth
    rw [here, h.depth, Int.add_zero] at hd
    rw [acts.thread, hd, hleave]
    simp [Forest.running, hact]
  · rw [hleave]
    exact h.nodes

def Advances (t : Tracer) (m : Machine) (s : Tracer × Surroundings) (F : Forest) (g : CallGraph)
    (op : Op FrameId) : Prop :=
  (m.step Tracer.deliver s op).panic = none ∧ ∃ g',
    InStep t (m.step Tracer.deliver s op).machine (m.step Tracer.deliver s op).state
      (F.after m s op) g' ∧ g'.output = g.output

section
variable {op : Op FrameId} {hook : HookName}

theorem advances_quiet (h : InStep t m s F g) (hd : op.IsDisciplined m)
    (event : op.event? m = none) (stack : (op.before m).stack = m.stack) :
    Advances t m s F g op := by
  have hF : F.after m s op = F := by
    unfold Forest.after
    rw [event]
  have hn := h.linked.nextId_not_mem
  unfold Advances
  rw [step_of_quiet hd event, hF]
  refine ⟨rfl, g, ?_, rfl⟩
  refine h.stay (h.linked.acts_quiet hd event m.nextId) stack (fun hm => absurd hm hn) ?_
    (Tracer.Keeps.refl _ _) rfl h.graph rfl rfl
  intro hp
  rw [h.away _ hn] at hp
  cases hp

theorem thread_of_live (h : InStep t m s F g) (hd : op.IsDisciplined m)
    (live : (op.before m).frames.get? f.id = some f) : f.thread = m.thread :=
  ((h.linked.before hd).known _ _ (standing_of_get? live)).2.1.trans (Op.thread_before m op)

theorem advances_start (h : InStep t m s F g) (hk : m.hook = some hook) (hd : op.IsDisciplined m)
    (keeps : op.KeepsHook m) (event : op.event? m = some (f.id, .call))
    (live : (op.before m).frames.get? f.id = some f) (back : f.back = m.stack.head?)
    (off : f.id ∉ m.stack) (stack : (op.before m).stack = f.id :: m.stack)
    (after : ∀ m', op.after m' = m') : Advances t m s F g op := by
  let ctx := (op.before m).context f .call
  have he : ctx.event = .call := rfl
  have hagrees := h.byCode.agrees_decide (h.config ▸ h.counted) (h.linked.before hd) s.2 ctx rfl
    (stack ▸ List.suffix_cons f.id m.stack) back
  rw [framesAt_before event off] at hagrees
  have hF : F.after m s op = F.enter f.file (s.1.isShown s.2 ctx) := by
    unfold Forest.after
    rw [event]
    dsimp only
    rw [live]
  have here := h.thread_of_live hd live
  have hacts : m.Acts (m.step Tracer.deliver s op).machine f.id := h.linked.acts_step hd event
  unfold Advances
  rw [hF]
  cases hb : s.1.shows f (m.framesAt m.stack) with
  | true =>
    rw [show s.1.shows ctx.frame (m.framesAt m.stack) = true from hb] at hagrees
    obtain ⟨expanded, hv⟩ := hagrees.eq_show rfl
    obtain ⟨t', line, starting, ha, hm, hg⟩ := Tracer.onEvent_call h.byCode h.total h.graph he hv
    have hstep : m.step Tracer.deliver s op =
        ⟨op.after ((op.before m).heed f.id .call .proceed), (t', s.2), none⟩ :=
      step_of_heard hd (keeps.trans hk) event live rfl ha (fun _ => by simp)
    rw [hstep, after] at hacts ⊢
    have hshown : s.1.isShown s.2 ctx = true := by
      unfold Tracer.isShown
      rw [hv]
    rw [hshown]
    refine ⟨rfl, h.push_shown hacts off ?_ here (standing_heed live) ?_ hb hm rfl hg⟩
    · rw [stack_heed, stack]
    · simp [Machine.heed, Event.isCall, mem_without]
  | false =>
    rw [show s.1.shows ctx.frame (m.framesAt m.stack) = false from hb] at hagrees
    have hv := hagrees.eq_skip
    obtain ⟨hm, hg⟩ := Tracer.moves_decide h.byCode s.2 ctx
    have ha := Tracer.onEvent_of_skip (t := s.1) (w := s.2) (by rw [he]; rfl) hv
    have hstep : m.step Tracer.deliver s op =
        ⟨op.after ((op.before m).heed f.id .call .skipFrame), ((s.1.decide s.2 ctx).2, s.2),
          none⟩ :=
      step_of_heard hd (keeps.trans hk) event live rfl ha (fun _ => by simp)
    rw [hstep, after] at hacts ⊢
    have hshown : s.1.isShown s.2 ctx = false := by
      unfold Tracer.isShown
      rw [hv]
    rw [hshown]
    refine ⟨rfl, g, h.push_hidden hacts off ?_ here (standing_heed live) hb hm rfl
      (hg.trans h.graph), rfl⟩
    rw [stack_heed, stack]

/-- An event of the innermost frame is judged by whether the frame has an open node. -/
theorem agrees_top (h : InStep t m s F g) (hd : op.IsDisciplined m) {f₀ : Frame}
    {rest : List FrameId} {e : Event} (event : op.event? m = some (f.id, e))
    (was : m.standing f.id = some f₀) (code : f.code = f₀.code) (back : f.back = f₀.back)
    (top : m.stack = f.id :: rest) (stack : (op.before m).stack = m.stack) :
    Verdict.Agrees e (g.pending.get? f.id).isSome
      (s.1.decide s.2 ((op.before m).context f e)).1 := by
  have hsuf : f.id :: rest <:+ m.stack := top ▸ List.suffix_rfl
  have hrest : rest <:+ (op.before m).stack := by
    rw [stack, top]
    exact List.suffix_cons _ _
  have hr := h.linked.back_of_top top was
  have hagrees := h.byCode.agrees_decide (h.config ▸ h.counted) (h.linked.before hd) s.2
    ((op.before m).context f e) rfl hrest (back.trans hr)
  rw [framesAt_before event (h.linked.not_mem_rest top)] at hagrees
  have hshows := h.settled f.id rest f₀ hsuf was
  unfold Tracer.shows at hshows
  rw [← code] at hshows
  rw [← hshows]
  exact hagrees

theorem advances_line (h : InStep t m s F g) (hk : m.hook = some hook) (hd : op.IsDisciplined m)
    (keeps : op.KeepsHook m) {f₀ : Frame} {rest : List FrameId}
    (event : op.event? m = some (f.id, .line))
    (live : (op.before m).frames.get? f.id = some f) (was : m.standing f.id = some f₀)
    (moved : f.place = { f₀ with line := f.line }) (top : m.stack = f.id :: rest)
    (stack : (op.before m).stack = m.stack) (after : ∀ m', op.after m' = m') :
    Advances t m s F g op := by
  have hF : F.after m s op = F := by
    unfold Forest.after
    rw [event]
  have here := h.thread_of_live hd live
  have hacts : m.Acts (m.step Tracer.deliver s op).machine f.id := h.linked.acts_step hd event
  have hcode : f.place.code = f₀.code := by rw [moved]
  have hback : f.place.back = f₀.back := by rw [moved]
  have htop : m.stack.head? = some f.id := by
    rw [top]
    rfl
  unfold Advances
  rw [hF]
  cases hu : (op.before m).hears f.id .line with
  | false =>
    have hstep : m.step Tracer.deliver s op = ⟨op.after (op.before m), s, none⟩ :=
      step_of_unheard hd (keeps.trans hk) event live hu
    rw [hstep, after] at hacts ⊢
    refine ⟨rfl, g, ?_, rfl⟩
    refine h.stay hacts stack (fun _ => ⟨htop, ?_⟩) ?_ (Tracer.Keeps.refl _ _) rfl h.graph rfl rfl
    · intro f' hf'
      rw [standing_of_get? live] at hf'
      cases hf'
      exact ⟨f₀, was, hcode⟩
    · exact fun hp hm => h.heard _ hp (Op.untraced_before hm)
  | true =>
    obtain ⟨a, t', ha, hp, hskip, hm, hg⟩ := Tracer.onEvent_line h.byCode
      (h.config ▸ h.counted) h.total h.graph
      (show ((op.before m).context f .line).event = .line from rfl) s.2
    have hstep : m.step Tracer.deliver s op =
        ⟨op.after ((op.before m).heed f.id .line a), (t', s.2), none⟩ :=
      step_of_heard hd (keeps.trans hk) event live hu ha hp
    rw [hstep, after] at hacts ⊢
    have hdepth : t'.session.depth m.thread.id = s.1.session.depth m.thread.id := by
      rw [← here]
      exact hm.depth.trans (Int.add_zero _)
    refine ⟨rfl, g, ?_, rfl⟩
    refine h.stay hacts ?_ (fun _ => ⟨htop, ?_⟩) ?_ hm.keeps hm.faults hg rfl hdepth
    · rw [stack_heed, stack]
    · intro f' hf'
      rw [standing_heed live] at hf'
      cases hf'
      exact ⟨f₀, was, hcode⟩
    · intro hpend hmem
      have hagrees := h.agrees_top hd event was hcode hback top stack
      rw [hpend] at hagrees
      cases a with
      | skipFrame =>
        rw [hskip rfl] at hagrees
        cases hagrees
      | proceed => exact h.heard _ hpend (Op.untraced_before hmem)
      | panicked text => exact hp text rfl

theorem advances_finish (h : InStep t m s F g) (hk : m.hook = some hook) (hd : op.IsDisciplined m)
    (keeps : op.KeepsHook m) {e : Event} {rest : List FrameId}
    (event : op.event? m = some (f.id, e)) (ends : op.Ends f e)
    (live : (op.before m).frames.get? f.id = some f) (was : m.standing f.id = some f.place)
    (top : m.stack = f.id :: rest) (stack : (op.before m).stack = m.stack)
    (after : ∀ m', m'.stack = m.stack → (op.after m').stack = rest) : Advances t m s F g op := by
  have hF : F.after m s op = F.leave op.ending := by
    unfold Forest.after
    rw [event]
    cases ends <;> rfl
  have hterm : e.isLine = false ∧ e.isDiscard = false := by
    cases ends <;> exact ⟨rfl, rfl⟩
  have here := h.thread_of_live hd live
  have hacts : m.Acts (m.step Tracer.deliver s op).machine f.id := h.linked.acts_step hd event
  unfold Advances
  rw [hF]
  cases hu : (op.before m).hears f.id e with
  | false =>
    have hstep : m.step Tracer.deliver s op = ⟨op.after (op.before m), s, none⟩ :=
      step_of_unheard hd (keeps.trans hk) event live hu
    rw [hstep] at hacts ⊢
    have hun := (mem_untraced_of_unheard hu).2
    have hpend : g.pending.get? f.id = none := by
      cases hp : g.pending.get? f.id with
      | none => rfl
      | some i => exact absurd hun (h.heard _ (by rw [hp]; rfl))
    exact ⟨rfl, g, h.pop_hidden hacts top (after _ stack) here hpend
      ((Tracer.Alike.refl _).moves f) _ h.graph rfl, rfl⟩
  | true =>
    have hagrees := h.agrees_top hd event was rfl rfl top stack
    cases hpend : g.pending.get? f.id with
    | some i =>
      rw [hpend] at hagrees
      obtain ⟨expanded, hv⟩ := hagrees.eq_show hterm.1
      obtain ⟨t', w', closing, ha, hm, told, hg, hw⟩ :=
        Tracer.onEvent_end h.byCode h.total h.graph ends rfl hpend h.accepts hv
      have hstep : m.step Tracer.deliver s op =
          ⟨op.after ((op.before m).heed f.id e .proceed), (t', w'), none⟩ :=
        step_of_heard hd (keeps.trans hk) event live hu ha (fun _ => by simp)
      rw [hstep] at hacts ⊢
      refine ⟨rfl, h.pop_shown hacts top (after _ ?_) here hpend hm told hg hw⟩
      rw [stack_heed, stack]
    | none =>
      rw [hpend] at hagrees
      have hv := hagrees.eq_skip
      obtain ⟨hm, hg⟩ := Tracer.moves_decide h.byCode s.2 ((op.before m).context f e)
      have ha := Tracer.onEvent_of_skip hterm.2 hv
      have hstep : m.step Tracer.deliver s op =
          ⟨op.after ((op.before m).heed f.id e .skipFrame),
            ((s.1.decide s.2 ((op.before m).context f e)).2, s.2), none⟩ :=
        step_of_heard hd (keeps.trans hk) event live hu ha (fun _ => by simp)
      rw [hstep] at hacts ⊢
      refine ⟨rfl, g, h.pop_hidden hacts top (after _ ?_) here hpend hm _ (hg.trans h.graph) rfl,
        rfl⟩
      rw [stack_heed, stack]

theorem advances_drop (h : InStep t m s F g) (hk : m.hook = some hook) (hd : op.IsDisciplined m)
    (keeps : op.KeepsHook m) (event : op.event? m = some (f.id, .discard))
    (live : (op.before m).frames.get? f.id = some f) (off : f.id ∉ m.stack)
    (stack : (op.before m).stack = m.stack) (after : ∀ m', (op.after m').stack = m'.stack) :
    Advances t m s F g op := by
  have hF : F.after m s op = F := by
    unfold Forest.after
    rw [event]
  have here := h.thread_of_live hd live
  have hpend := h.away _ off
  have hacts : m.Acts (m.step Tracer.deliver s op).machine f.id := h.linked.acts_step hd event
  have htraced : ∀ m' : Machine, (g.pending.get? f.id).isSome → f.id ∉ m'.untraced := by
    intro m' hp
    rw [hpend] at hp
    cases hp
  unfold Advances
  rw [hF]
  cases hu : (op.before m).hears f.id .discard with
  | false =>
    have hstep : m.step Tracer.deliver s op = ⟨op.after (op.before m), s, none⟩ :=
      step_of_unheard hd (keeps.trans hk) event live hu
    rw [hstep] at hacts ⊢
    exact ⟨rfl, g, h.stay hacts ((after _).trans stack) (fun hm => absurd hm off) (htraced _)
      (Tracer.Keeps.refl _ _) rfl h.graph rfl rfl, rfl⟩
  | true =>
    obtain ⟨t', ha, hm, hg⟩ := Tracer.onEvent_discard h.byCode h.graph
      (show ((op.before m).context f .discard).event = .discard from rfl) hpend s.2
    have hstep : m.step Tracer.deliver s op =
        ⟨op.after ((op.before m).heed f.id .discard .proceed), (t', s.2), none⟩ :=
      step_of_heard hd (keeps.trans hk) event live hu ha (fun _ => by simp)
    have hdepth : t'.session.depth m.thread.id = s.1.session.depth m.thread.id := by
      rw [← here]
      exact hm.depth.trans (Int.add_zero _)
    rw [hstep] at hacts ⊢
    refine ⟨rfl, g, h.stay hacts ?_ (fun hm => absurd hm off) (htraced _) hm.keeps hm.faults hg
      rfl hdepth, rfl⟩
    rw [after, stack_heed, stack]

/-- One operation. -/
theorem advances (h : InStep t m s F g) (hk : m.hook = some hook) (hd : op.IsDisciplined m)
    (keeps : op.KeepsHook m) : Advances t m s F g op := by
  cases Op.Turn.of_disciplined h.linked hd with
  | quiet event stack => exact h.advances_quiet hd event stack
  | start f event live back off stack after =>
    exact h.advances_start hk hd keeps event live back off stack after
  | line f f₀ rest event live was moved top stack after =>
    exact h.advances_line hk hd keeps event live was moved top stack after
  | finish f e rest event ends live was top stack after =>
    exact h.advances_finish hk hd keeps event ends live was top stack after
  | drop f event live off stack after =>
    exact h.advances_drop hk hd keeps event live off stack after

end

/-- A whole run. -/
theorem run (h : InStep t m s F g) {hook : HookName} (hk : m.hook = some hook)
    {ops : List (Op FrameId)} (hd : m.Disciplined Tracer.deliver s ops) :
    (m.run Tracer.deliver s ops).panic = none ∧ ∃ g',
      InStep t (m.run Tracer.deliver s ops).machine (m.run Tracer.deliver s ops).state
        (Forest.grow m s ops F) g' ∧ g'.output = g.output := by
  induction ops generalizing m s F g with
  | nil => exact ⟨rfl, g, h, rfl⟩
  | cons op ops ih =>
    obtain ⟨hop, keeps, hrest⟩ := hd
    obtain ⟨hp, g', h', ho⟩ := h.advances hk hop keeps
    obtain ⟨hr, g'', h'', ho'⟩ := ih h' ((hook_step keeps).trans hk) hrest
    rw [run_of_calm hp]
    exact ⟨hr, g'', h'', ho'.trans ho⟩

end InStep

/-- Before anything has run there is no call and no node. -/
theorem Tracer.IsOutfit.inStep {t : Tracer} {c : TracerConfig} {codes : List CodeId}
    {custom : List CustomFormat} {sink : Sink} (h : t.IsOutfit c codes custom sink)
    (formats : ∀ f ∈ custom, ∀ v, ∃ text, f.format v = .ok text) {output : Option Path}
    (collects : c.callGraph = some output) {w : Surroundings}
    (writable : ∀ path, output = some path → w.Accepts path) {m : Machine} (fresh : m.IsFresh) :
    InStep t m (t, w) {} { output } := by
  have hs := h.session
  have hcounted : t.config.overflows = false := by
    rw [h.config]
    exact TracerConfig.overflows_of_compact (by simp [TracerConfig.expands, collects])
  refine ⟨fresh.linked, ⟨h.observed, by rw [hs]⟩, rfl, hcounted, rfl, ?_, h.faults, ?_, writable,
    Forest.isNested_empty, ?_, fun _ _ => rfl, ?_, ?_, ?_, .nil⟩
  · refine Renderer.isTotal_of_custom ?_
    rw [h.custom]
    exact formats
  · rw [h.graph, collects]
    rfl
  · rw [fresh.stack]
    rfl
  · intro id rest f hsuf
    rw [fresh.stack] at hsuf
    simp at hsuf
  · intro id hp
    cases hp
  · dsimp only
    rw [hs]
    rfl

/-- Node `p` is the last one before node `i` that stands one level above it. -/
def CallNode.IsParent (nodes : List CallNode) (p i : Nat) : Prop :=
  p < i ∧ ∃ n above, nodes[i]? = some n ∧ nodes[p]? = some above ∧ above.depth = n.depth - 1 ∧
    ∀ j other, p < j → j < i → nodes[j]? = some other → other.depth ≠ n.depth - 1

theorem InStep.isParent {t : Tracer} {m : Machine} {s : Tracer × Surroundings} {F : Forest}
    {g : CallGraph} (h : InStep t m s F g) {i p : Nat} {outer : List Nat}
    (around : F.around? i = some (p :: outer)) : CallNode.IsParent g.nodes p i := by
  have hlen := h.nodes.length_eq
  have hnode : ∀ (j : Nat) (n : CallNode), g.nodes[j]? = some n →
      ∃ rest, F.around? j = some rest ∧ n.depth = (rest.length : Int) := by
    intro j n hn
    obtain ⟨hj, he⟩ := List.getElem?_eq_some_iff.mp hn
    have hj' : j < F.calls.length := hlen ▸ hj
    refine ⟨F.calls[j].enclosing, by rw [Forest.around?, List.getElem?_eq_getElem hj']; rfl, ?_⟩
    rw [← he]
    exact (h.nodes.get hj' hj).depth
  have hexists : ∀ (j : Nat) (rest : List Nat), F.around? j = some rest →
      ∃ n, g.nodes[j]? = some n ∧ n.depth = (rest.length : Int) := by
    intro j rest hj
    have hlt : j < g.nodes.length := hlen ▸ Forest.around?_lt hj
    obtain ⟨rest', hr, hd⟩ := hnode j _ (List.getElem?_eq_getElem hlt)
    rw [hj] at hr
    cases hr
    exact ⟨_, List.getElem?_eq_getElem hlt, hd⟩
  obtain ⟨hlt, hp, hbetween⟩ := h.nested.parent i p outer around
  obtain ⟨n, hn, hnd⟩ := hexists i _ around
  obtain ⟨above, ha, had⟩ := hexists p _ hp
  refine ⟨hlt, n, above, hn, ha, ?_, ?_⟩
  · rw [had, hnd, List.length_cons]
    omega
  · intro j other hpj hji hj
    obtain ⟨rest, hr, hd⟩ := hnode j other hj
    have hl := hbetween j rest hpj hji hr
    rw [hd, hnd, List.length_cons]
    omega

/-- A tracer of target codes that collects a call graph, on a new machine, through a run that keeps
to the stack: at the end of the run, and so at every point of it, the nodes tell the calls that were
shown, in their order; the open nodes are those of the running activations; each node stands below
the node of the innermost call around its own; and nothing has failed. -/
theorem collected_graph_tells_forest {c : TracerConfig} {disk : Disk} {codes : List CodeId}
    {custom : List CustomFormat} {sources : SourceCache} {sink : Sink} {output : Option Path}
    {t : Tracer} {w : Surroundings} {m : Machine} {hook : HookName} {ops : List (Op FrameId)}
    (setup : Tracer.outfit c disk codes custom sources sink = .ok t)
    (region : c.observed = none) (collects : c.callGraph = some output)
    (formats : ∀ f ∈ custom, ∀ v, ∃ text, f.format v = .ok text)
    (writable : ∀ path, output = some path → w.Accepts path)
    (fresh : m.IsFresh) (installed : m.hook = some hook)
    (disciplined : m.Disciplined Tracer.deliver (t, w) ops) :
    let r := m.run Tracer.deliver (t, w) ops
    let F := Forest.grow m (t, w) ops {}
    r.panic = none ∧ r.state.1.faults = [] ∧ ∃ g, r.state.1.graph = some g ∧
      g.output = output ∧ List.Forall₂ t.Tells F.calls g.nodes ∧
      F.active = r.machine.stack.map g.pending.get? ∧
      (∀ i, some i ∈ F.active ↔ F.IsOpen i) ∧
      ∀ i call p, F.calls[i]? = some call → call.enclosing.head? = some p →
        CallNode.IsParent g.nodes p i := by
  have hout := Tracer.isOutfit_of_outfit setup region
  have h₀ := hout.inStep formats collects writable fresh
  obtain ⟨hp, g, h, ho⟩ := h₀.run installed disciplined
  refine ⟨hp, h.faults, g, h.graph, ho, h.nodes, h.active, ?_, ?_⟩
  · intro i
    rw [← h.nested.isOpen, Forest.running, List.mem_filterMap]
    simp
  · intro i call p hc hencl
    obtain ⟨outer, he⟩ := List.head?_eq_some_iff.mp hencl
    have ha : (Forest.grow m (t, w) ops {}).around? i = some (p :: outer) := by
      rw [Forest.around?, hc, Option.map_some, he]
    exact h.isParent ha

def generatorRun : List (Op FrameId) :=
  let main : Code := ⟨"main", ⟨"/p.py"⟩, 1⟩
  let generator : Code := ⟨"generator", ⟨"/p.py"⟩, 5⟩
  let other : Code := ⟨"other", ⟨"/p.py"⟩, 9⟩
  [.call main [("x", .int 1)], .line ⟨0, 0⟩ 2, .call generator [], .line ⟨0, 1⟩ 6,
    .yieldValue ⟨0, 1⟩ .none, .call other [], .resume ⟨0, 1⟩, .raise ⟨0, 1⟩ ⟨"KeyError", "k"⟩,
    .unwind ⟨0, 2⟩, .ret ⟨0, 0⟩ (.str "done")]

theorem collected_graph_tells_forest_of_generator :
    let c : TracerConfig := { depth := 3, loopLimit := some 1, callGraph := some none }
    let codes : List CodeId := [⟨"/p.py", "main", 1⟩]
    let t : Tracer := { config := c, session := { targetCodes := codes }, graph := some {} }
    let m : Machine := { hook := some "trace" }
    Tracer.outfit c {} codes [] {} .standardError = .ok t ∧ m.IsFresh ∧
      m.Disciplined Tracer.deliver (t, {}) generatorRun ∧
      let r := m.run Tracer.deliver (t, {}) generatorRun
      let F := Forest.grow m (t, {}) generatorRun {}
      r.panic = none ∧ r.state.1.faults = [] ∧ ∃ g, r.state.1.graph = some g ∧ g.output = none ∧
        List.Forall₂ t.Tells F.calls g.nodes ∧ F.active = r.machine.stack.map g.pending.get? ∧
        (∀ i, some i ∈ F.active ↔ F.IsOpen i) ∧
        ∀ i call p, F.calls[i]? = some call → call.enclosing.head? = some p →
          CallNode.IsParent g.nodes p i := by
  intro c codes t m
  have setup : Tracer.outfit c {} codes [] {} .standardError = .ok t := rfl
  have fresh : m.IsFresh := ⟨rfl, rfl, rfl, rfl⟩
  have disciplined : m.Disciplined Tracer.deliver (t, {}) generatorRun := by decide +kernel
  refine ⟨setup, fresh, disciplined, ?_⟩
  refine collected_graph_tells_forest setup rfl rfl ?_ ?_ fresh rfl disciplined
  · intro f hf
    cases hf
  · intro path hp
    cases hp

/-- Its calls: the generator twice, the second time below the other function. -/
example :
    let t : Tracer :=
      { config := { depth := 3 }, session := { targetCodes := [⟨"/p.py", "main", 1⟩] } }
    (Forest.grow { hook := some "trace" } (t, {}) generatorRun {}).calls.map Call.enclosing =
      [[], [0], [0], [2, 0]] := by decide +kernel

end SelectiveTrace
