import SelectiveTrace.Proofs.CallGraph.Records

/-! A run under a tracer that observes a region and collects a call graph. Where the calls, the lines
and the ends of the visits happen settles which nodes there are, which of them are closed, and
whether anything fails. -/
namespace SelectiveTrace
open Machine

def Visit.IsSound (v : Visit) : Prop :=
  (v.entered = true → v.met = true) ∧ (v.met = true → v.entered = true ∨ v.ran = true)

theorem Visit.IsSound.pass {v : Visit} (h : v.IsSound) (inside heard : Bool) :
    (v.pass inside heard).IsSound := by
  obtain ⟨hmet, hran⟩ := h
  unfold IsSound Visit.pass
  simp only [Bool.or_eq_true, Bool.and_eq_true]
  refine ⟨fun he => Or.inl (hmet he), ?_⟩
  rintro (hm | ⟨hi, -⟩)
  · exact (hran hm).imp_right Or.inl
  · exact Or.inr (Or.inr hi)

/-- The visit of a frame that runs on top of `rest`. The frame is attached if it was met inside the
region, and it is given up only if none of its events are shown. -/
structure Visit.Runs (r : Region) (m : Machine) (t : Tracer) (id : FrameId) (rest : List FrameId)
    (v : Visit) : Prop where
  running : v.left? = none
  stays : v.dropped = false
  met : v.met = true ↔ t.Attaches id
  handed : v.met = false → v.opened = t.handsOn r (Tracer.levels t.config) (m.framesAt rest)
  given : id ∈ m.untraced → v.met = false ∧ v.opened = false

def Visit.IsCurrent (r : Region) (m : Machine) (t : Tracer) (id : FrameId) (rest : List FrameId)
    (vs : List Visit) : Prop :=
  ∃ v ended, vs = v :: ended ∧ v.Runs r m t id rest ∧ ∀ u ∈ ended, u.left? ≠ none

structure InTouch (t : Tracer) (r : Region) (m : Machine) (s : Tracer × Surroundings)
    (V : List Visit) (g : CallGraph) : Prop where
  linked : m.Linked
  spelled : m.IsSpelled
  byRegion : s.1.ByRegion r
  config : s.1.config = t.config
  total : s.1.renderer.IsTotal
  graph : s.1.graph = some g
  accepts : ∀ path, g.output = some path → s.2.Accepts path
  attached : ∀ id, s.1.Attaches id → id ∈ m.stack
  current : ∀ id rest, id :: rest <:+ m.stack →
    Visit.IsCurrent r m s.1 id rest (Visit.of id V)
  ended : ∀ id, id ∉ m.stack → ∀ v ∈ Visit.of id V, v.left? ≠ none
  sound : ∀ v ∈ V, v.IsSound
  records : Visit.Records t V g s.1.faults

/-- Below the acting frame tracing is handed on as before. -/
theorem Machine.Acts.handsOn {m m' : Machine} {a : FrameId} (acts : m.Acts m' a) (h : m.Linked)
    {t t' : Tracer} {r : Region} (besides : t.Besides t' a) {rest : List FrameId} (off : a ∉ rest) :
    t'.handsOn r (Tracer.levels t'.config) (m'.framesAt rest) =
      t.handsOn r (Tracer.levels t.config) (m.framesAt rest) := by
  have hne : ∀ j ∈ rest, j ≠ a := fun j hj he => off (he ▸ hj)
  have hframes : m'.framesAt rest = m.framesAt rest :=
    framesAt_congr fun j hj => (acts.spares j (hne j hj)).standing
  rw [hframes, besides.config]
  exact besides.handsOn (fun f hf => hne f.id (h.mem_framesAt hf)) _

namespace Visit
variable {r : Region} {m m' : Machine} {t t' : Tracer} {a id : FrameId} {rest : List FrameId}

/-- Another frame acts, above this one. -/
theorem Runs.spared {v : Visit} (hv : v.Runs r m t id rest) (h : m.Linked) (acts : m.Acts m' a)
    (besides : t.Besides t' a) (off : a ∉ id :: rest) : v.Runs r m' t' id rest := by
  obtain ⟨hid, hrest⟩ := not_or.mp fun ho => off (List.mem_cons.mpr ho)
  have hne : id ≠ a := Ne.symm hid
  refine ⟨hv.running, hv.stays, ?_, ?_, ?_⟩
  · exact hv.met.trans (besides.session.attached id hne).symm
  · rw [acts.handsOn h besides hrest]
    exact hv.handed
  · exact fun hu => hv.given ((acts.spares id hne).untraced hu)

theorem IsCurrent.spared {vs : List Visit} (hv : IsCurrent r m t id rest vs) (h : m.Linked)
    (acts : m.Acts m' a) (besides : t.Besides t' a) (off : a ∉ id :: rest) :
    IsCurrent r m' t' id rest vs := by
  obtain ⟨v, ended, hvs, hruns, hended⟩ := hv
  exact ⟨v, ended, hvs, hruns.spared h acts besides off, hended⟩

end Visit

namespace InTouch
variable {t : Tracer} {r : Region} {m m' : Machine} {s s' : Tracer × Surroundings}
  {V V' : List Visit} {g g' : CallGraph} {a : FrameId} {rest : List FrameId}

/-- A frame has acted on top of `rest`, and it runs there still or is gone from the stack. -/
theorem acted (h : InTouch t r m s V g) (acts : m.Acts m' a) (spelled : m'.IsSpelled)
    (besides : s.1.Besides s'.1 a) (graph : s'.1.graph = some g')
    (accepts : ∀ path, g'.output = some path → s'.2.Accepts path) (off : a ∉ rest)
    (was : m.stack = rest ∨ m.stack = a :: rest)
    (others : ∀ j, j ≠ a → Visit.of j V' = Visit.of j V) (sound : ∀ v ∈ V', v.IsSound)
    (stack : m'.stack = a :: rest ∧ Visit.IsCurrent r m' s'.1 a rest (Visit.of a V') ∨
      m'.stack = rest ∧ ¬ s'.1.Attaches a ∧ ∀ v ∈ Visit.of a V', v.left? ≠ none)
    (records : Visit.Records t V' g' s'.1.faults) : InTouch t r m' s' V' g' := by
  have hbelow : rest <:+ m.stack := by
    rcases was with was | was
    · exact was ▸ List.suffix_rfl
    · exact was ▸ List.suffix_cons a rest
  have hmem : ∀ j, j ≠ a → (j ∈ m.stack ↔ j ∈ rest) := by
    intro j hj
    rcases was with was | was
    · rw [was]
    · rw [was, List.mem_cons]
      exact or_iff_right hj
  have hmem' : ∀ j, j ≠ a → (j ∈ m'.stack ↔ j ∈ rest) := by
    intro j hj
    rcases stack with ⟨hs, -⟩ | ⟨hs, -⟩
    · rw [hs, List.mem_cons]
      exact or_iff_right hj
    · rw [hs]
  have hspared : ∀ id under, id :: under <:+ rest →
      Visit.IsCurrent r m' s'.1 id under (Visit.of id V') := by
    intro id under hs
    have ha : a ∉ id :: under := fun hm => off (hs.mem hm)
    have hne : id ≠ a := fun he => ha (he ▸ List.mem_cons_self)
    rw [others id hne]
    exact (h.current id under (hs.trans hbelow)).spared h.linked acts besides ha
  refine ⟨acts.linked, spelled, besides.byRegion h.byRegion, besides.config.trans h.config,
    besides.renderer ▸ h.total, graph, accepts, ?_, ?_, ?_, sound, records⟩
  · intro id hid
    by_cases he : id = a
    · subst he
      rcases stack with ⟨hs, -⟩ | ⟨-, hno, -⟩
      · rw [hs]
        exact List.mem_cons_self
      · exact absurd hid hno
    · have hin := h.attached id ((besides.session.attached id he).mp hid)
      exact (hmem' id he).mpr ((hmem id he).mp hin)
  · intro id under hs
    rcases stack with ⟨hst, hcurrent⟩ | ⟨hst, -⟩
    · rw [hst, List.suffix_cons_iff] at hs
      rcases hs with hs | hs
      · obtain ⟨rfl, rfl⟩ := List.cons.inj hs
        exact hcurrent
      · exact hspared id under hs
    · exact hspared id under (hst ▸ hs)
  · intro id hid
    by_cases he : id = a
    · subst he
      rcases stack with ⟨hs, -⟩ | ⟨-, -, hended⟩
      · exact absurd (hs ▸ List.mem_cons_self) hid
      · exact hended
    · rw [others id he]
      exact h.ended id fun hin => hid ((hmem' id he).mpr ((hmem id he).mp hin))

def KeepsTouch (t : Tracer) (r : Region) (m : Machine) (s : Tracer × Surroundings)
    (V : List Visit) (g : CallGraph) (op : Op FrameId) : Prop :=
  (m.step Tracer.deliver s op).panic = none ∧ ∃ g',
    InTouch t r (m.step Tracer.deliver s op).machine (m.step Tracer.deliver s op).state
      (Visit.after r m s op V) g' ∧ g'.output = g.output

section
variable {op : Op FrameId} {hook : HookName} {f : Frame} {e : Event}

theorem displayPath (h : InTouch t r m s V g) (file : Path) :
    s.1.displayPath file = t.displayPath file := by
  unfold Tracer.displayPath
  rw [h.config]

/-- The verdict on an event of the frame that runs on top of `rest`. -/
theorem judges (h : InTouch t r m s V g) (hd : op.IsDisciplined m) (spelled : op.IsSpelled)
    (event : op.event? m = some (f.id, e)) (running : e.isDiscard = false)
    (live : (op.before m).frames.get? f.id = some f) (below : rest <:+ (op.before m).stack)
    (back : f.back = rest.head?) (off : f.id ∉ rest) :
    s.1.Judges r ((op.before m).context f e) (m.framesAt rest)
      (s.1.decide s.2 ((op.before m).context f e)).1
      (s.1.decide s.2 ((op.before m).context f e)).2 := by
  have habs : f.file.isAbsolute = true :=
    (h.spelled.before spelled) f.id f.place (standing_of_get? live)
  rw [← framesAt_before event off]
  exact h.byRegion.judges (h.linked.before hd) (h.spelled.before spelled) rfl habs running below back

theorem quiet (h : InTouch t r m s V g) (hd : op.IsDisciplined m) (spelled : op.IsSpelled)
    (event : op.event? m = none) (stack : (op.before m).stack = m.stack) :
    KeepsTouch t r m s V g op := by
  have hn := h.linked.nextId_not_mem
  have hacts := h.linked.acts_quiet hd event m.nextId
  have hV : Visit.after r m s op V = V := by
    unfold Visit.after
    rw [event]
  unfold KeepsTouch
  rw [step_of_quiet hd event, hV]
  refine ⟨rfl, g, ?_, rfl⟩
  refine h.acted hacts (h.spelled.before spelled) (Tracer.Besides.refl _ _) h.graph h.accepts hn
    (Or.inl rfl) (fun _ _ => rfl) h.sound (Or.inr ⟨stack, ?_, h.ended _ hn⟩) h.records
  exact fun ha => hn (h.attached _ ha)

theorem start (h : InTouch t r m s V g) (hk : m.hook = some hook) (hd : op.IsDisciplined m)
    (spelled : op.IsSpelled) (keeps : op.KeepsHook m) (event : op.event? m = some (f.id, .call))
    (live : (op.before m).frames.get? f.id = some f) (back : f.back = m.stack.head?)
    (off : f.id ∉ m.stack) (stack : (op.before m).stack = f.id :: m.stack)
    (after : ∀ m', op.after m' = m') : KeepsTouch t r m s V g op := by
  let v : Visit :=
    { frame := f.id, file := f.file, entered := r.surrounds f
      handed := s.1.handsOn r (Tracer.levels s.1.config) (m.framesAt m.stack) }
  have hV : Visit.after r m s op V = v :: V := by
    unfold Visit.after
    rw [event]
    dsimp only
    rw [live]
  have hj := h.judges hd spelled event rfl live (stack ▸ List.suffix_cons f.id m.stack) back off
  have hno : ¬ s.1.Attaches f.id := fun ha => off (h.attached _ ha)
  have hattends : s.1.Attends r ((op.before m).context f .call) ↔ v.entered = true := by
    unfold Tracer.Attends
    exact ⟨fun ha => (ha.resolve_left hno).1, fun hs => Or.inr ⟨hs, rfl⟩⟩
  have hshow : (s.1.decide s.2 ((op.before m).context f .call)).1.isShow = v.opened := by
    unfold Visit.opened
    cases hv : v.entered with
    | true => exact (hj.attending (hattends.mpr hv) rfl).trans hv
    | false =>
      have hother : ¬ s.1.Attends r ((op.before m).context f .call) := by
        rw [hattends, hv]
        simp
      exact hj.handedOn hother rfl
  obtain ⟨a, t', g', ha, hp, hskip, hb, hatt, hf, hg, hshown⟩ :=
    Tracer.onEvent_enter (TracerConfig.overflows_of_compact h.byRegion.compact) h.total h.graph rfl
      hj hshow
  have hstep : m.step Tracer.deliver s op =
      ⟨op.after ((op.before m).heed f.id .call a), (t', s.2), none⟩ :=
    step_of_heard hd (keeps.trans hk) event live rfl ha hp
  have hacts : m.Acts (m.step Tracer.deliver s op).machine f.id := h.linked.acts_step hd event
  have hspelled : (m.step Tracer.deliver s op).machine.IsSpelled := h.spelled.step spelled
  have hout : g'.output = g.output := by
    cases ho : v.opened with
    | true =>
      rw [ho] at hshown
      obtain ⟨d, line, starting, rfl⟩ := hshown
      rfl
    | false =>
      rw [ho] at hshown
      exact congrArg CallGraph.output hshown
  have hrecords : Visit.Records t (v :: V) g' t'.faults := by
    rw [hf]
    refine h.records.enter rfl rfl ?_
    rw [h.displayPath] at hshown
    exact hshown
  have hruns : v.Runs r (m.step Tracer.deliver s op).machine t' f.id m.stack := by
    have hmet : t'.Attaches f.id ↔ v.entered = true := by
      refine hatt.trans (hj.attached.trans ?_)
      rw [hattends]
      exact and_iff_left (Or.inr rfl)
    refine ⟨rfl, rfl, hmet.symm, ?_, ?_⟩
    · intro hmet
      have hmet' : v.entered = false := hmet
      rw [hacts.handsOn h.linked hb off, Visit.opened, hmet']
      rfl
    · intro hu
      rw [hstep, after] at hu
      cases a with
      | skipFrame =>
        obtain ⟨hother, hhands⟩ := hj.skipped (hskip rfl)
        have hent : v.entered = false := by
          rw [hattends] at hother
          simpa using hother
        refine ⟨hent, ?_⟩
        unfold Visit.opened
        rw [hent]
        exact hhands
      | proceed => simp [heed, Event.isCall, mem_without] at hu
      | panicked text => exact absurd rfl (hp text)
  unfold KeepsTouch
  rw [hV]
  rw [hstep, after] at hacts hspelled hruns ⊢
  refine ⟨rfl, g', ?_, hout⟩
  refine h.acted hacts hspelled hb hg ?_ off (Or.inl rfl)
    (fun j hj => Visit.of_cons_of_ne hj.symm V) ?_ (Or.inl ⟨?_, v, Visit.of f.id V, ?_, hruns, ?_⟩)
    hrecords
  · rw [hout]
    exact h.accepts
  · exact List.forall_mem_cons.mpr ⟨⟨fun he => he, fun he => Or.inl he⟩, h.sound⟩
  · rw [stack_heed, stack]
  · exact Visit.of_cons_self v V
  · exact h.ended f.id off

/-- A line of the innermost frame: the frame is met if it is heard inside the region. -/
theorem passes (h : InTouch t r m s V g) (hk : m.hook = some hook) (hd : op.IsDisciplined m)
    (spelled : op.IsSpelled) (keeps : op.KeepsHook m) (event : op.event? m = some (f.id, .line))
    (live : (op.before m).frames.get? f.id = some f) (back : f.back = rest.head?)
    (top : m.stack = f.id :: rest) (stack : (op.before m).stack = m.stack) {v : Visit}
    (runs : v.Runs r m s.1 f.id rest) :
    ∃ m' t', let v' := v.pass (r.surrounds f) ((op.before m).hears f.id .line)
      m.step Tracer.deliver s op = ⟨op.after m', (t', s.2), none⟩ ∧ m'.stack = m.stack ∧
      s.1.Besides t' f.id ∧ t'.faults = s.1.faults ∧ t'.graph = some g ∧
      (v'.met = true ↔ t'.Attaches f.id) ∧
      (f.id ∈ m'.untraced → v'.met = false ∧ v'.opened = false) := by
  have off : f.id ∉ rest := h.linked.not_mem_rest top
  have hbelow : rest <:+ (op.before m).stack := by
    rw [stack, top]
    exact List.suffix_cons _ _
  have hj := h.judges hd spelled event rfl live hbelow back off
  cases hu : (op.before m).hears f.id .line with
  | false =>
    have hstep : m.step Tracer.deliver s op = ⟨op.after (op.before m), s, none⟩ :=
      step_of_unheard hd (keeps.trans hk) event live hu
    have hmet : (v.pass (r.surrounds f) false).met = v.met := by simp [Visit.pass]
    refine ⟨op.before m, s.1, hstep, stack, Tracer.Besides.refl _ _, rfl, h.graph, ?_, ?_⟩
    · rw [hmet]
      exact runs.met
    · intro hun
      rw [hmet]
      exact runs.given (Op.untraced_before hun)
  | true =>
    obtain ⟨a, t', ha, hp, hskip, hb, hatt, hf, hg⟩ := Tracer.onEvent_pass
      (TracerConfig.overflows_of_compact h.byRegion.compact) h.total h.graph rfl hj
    have hstep : m.step Tracer.deliver s op =
        ⟨op.after ((op.before m).heed f.id .line a), (t', s.2), none⟩ :=
      step_of_heard hd (keeps.trans hk) event live hu ha hp
    have hattends : s.1.Attends r ((op.before m).context f .line) ↔
        (v.pass (r.surrounds f) true).met = true := by
      unfold Tracer.Attends Visit.pass
      simp only [Bool.and_true, Bool.or_eq_true]
      exact or_congr runs.met.symm (and_iff_left rfl)
    refine ⟨_, t', hstep, by rw [stack_heed, stack], hb, hf, hg, ?_, ?_⟩
    · rw [← hattends]
      exact ((hatt.trans hj.attached).trans (and_iff_left (Or.inr rfl))).symm
    · intro hun
      cases a with
      | skipFrame =>
        obtain ⟨hother, hhands⟩ := hj.skipped (hskip rfl)
        have hno : (v.pass (r.surrounds f) true).met = false := by
          rw [hattends] at hother
          simpa using hother
        have hwas : v.met = false := (Bool.or_eq_false_iff.mp hno).1
        exact ⟨hno, (runs.handed hwas).trans hhands⟩
      | proceed =>
        -- what was heard had not been given up
        have hgiven : f.id ∈ (op.before m).untraced := hun
        unfold hears at hu
        simp [Event.isCall, hgiven] at hu
      | panicked text => exact absurd rfl (hp text)

theorem line (h : InTouch t r m s V g) (hk : m.hook = some hook) (hd : op.IsDisciplined m)
    (spelled : op.IsSpelled) (keeps : op.KeepsHook m) (event : op.event? m = some (f.id, .line))
    (live : (op.before m).frames.get? f.id = some f) (back : f.back = rest.head?)
    (top : m.stack = f.id :: rest) (stack : (op.before m).stack = m.stack)
    (after : ∀ m', op.after m' = m') : KeepsTouch t r m s V g op := by
  have off : f.id ∉ rest := h.linked.not_mem_rest top
  obtain ⟨v, vs, hvs, hruns, hended⟩ := h.current f.id rest (top ▸ List.suffix_rfl)
  obtain ⟨m', t', hstep, hstack, hb, hf, hg, hmet, hgiven⟩ :=
    h.passes hk hd spelled keeps event live back top stack hruns
  let change : Visit → Visit := (·.pass (r.surrounds f) ((op.before m).hears f.id .line))
  have hchange : Visit.SparesCall change := Visit.sparesCall_pass _ _
  have hV : Visit.after r m s op V = Visit.amend f.id change V := by
    unfold Visit.after
    rw [event]
    dsimp only
    rw [live]
  have hacts : m.Acts (m.step Tracer.deliver s op).machine f.id := h.linked.acts_step hd event
  have hspelled : (m.step Tracer.deliver s op).machine.IsSpelled := h.spelled.step spelled
  have hrecords : Visit.Records t (Visit.amend f.id change V) g t'.faults :=
    hf ▸ h.records.pass hvs hruns.running _ _
  rw [hstep, after] at hacts hspelled
  unfold KeepsTouch
  rw [hV, hstep, after]
  refine ⟨rfl, g, ?_, rfl⟩
  refine h.acted hacts hspelled hb hg h.accepts off (Or.inr top)
    (fun j hj => Visit.of_amend_of_ne hchange hj V)
    (Visit.forall_amend h.sound fun v _ _ hv => hv.pass _ _)
    (Or.inl ⟨hstack.trans top, change v, vs, Visit.of_amend hchange hvs, ?_, hended⟩) hrecords
  refine ⟨hruns.running, hruns.stays, hmet, ?_, hgiven⟩
  intro hno
  have hwas : v.met = false := (Bool.or_eq_false_iff.mp hno).1
  rw [hacts.handsOn h.linked hb off, hchange.opened]
  exact hruns.handed hwas

/-- The end of the innermost frame: it is shown as the visit tells, and the frame is detached. -/
theorem leaves (h : InTouch t r m s V g) (hk : m.hook = some hook) (hd : op.IsDisciplined m)
    (spelled : op.IsSpelled) (keeps : op.KeepsHook m) (event : op.event? m = some (f.id, e))
    (ends : op.Ends f e) (live : (op.before m).frames.get? f.id = some f)
    (back : f.back = rest.head?) (top : m.stack = f.id :: rest)
    (stack : (op.before m).stack = m.stack) {v : Visit} (runs : v.Runs r m s.1 f.id rest) :
    ∃ m' t' w' g' es, m.step Tracer.deliver s op = ⟨op.after m', (t', w'), none⟩ ∧
      m'.stack = m.stack ∧ s.1.Besides t' f.id ∧ ¬ t'.Attaches f.id ∧ t'.graph = some g' ∧
      t'.faults = s.1.faults ++ es ∧ g'.output = g.output ∧
      (∀ path, g.output = some path → w'.Accepts path) ∧
      if (v.leave (r.surrounds f)).shut then g.Shuts f.id g' es else g' = g ∧ es = [] := by
  have off : f.id ∉ rest := h.linked.not_mem_rest top
  have hbelow : rest <:+ (op.before m).stack := by
    rw [stack, top]
    exact List.suffix_cons _ _
  have hterm : e.isTerminal = true ∧ e.isDiscard = false ∧ e.isLine = false := by
    cases ends <;> exact ⟨rfl, rfl, rfl⟩
  have hshut : (v.leave (r.surrounds f)).shut =
      if v.met then r.surrounds f else v.opened := rfl
  cases hu : (op.before m).hears f.id e with
  | false =>
    have hstep : m.step Tracer.deliver s op = ⟨op.after (op.before m), s, none⟩ :=
      step_of_unheard hd (keeps.trans hk) event live hu
    obtain ⟨hmet, hopened⟩ := runs.given (mem_untraced_of_unheard hu).2
    refine ⟨op.before m, s.1, s.2, g, [], hstep, stack, Tracer.Besides.refl _ _, ?_, h.graph,
      (List.append_nil _).symm, rfl, h.accepts, ?_⟩
    · rw [← runs.met, hmet]
      simp
    · rw [hshut, hmet, hopened]
      exact ⟨rfl, rfl⟩
  | true =>
    have hj := h.judges hd spelled event hterm.2.1 live hbelow back off
    have hattends : s.1.Attends r ((op.before m).context f e) ↔ v.met = true := by
      unfold Tracer.Attends
      rw [runs.met]
      refine or_iff_left ?_
      rintro ⟨-, ht⟩
      have ht' : e.isTerminal = false := ht
      rw [hterm.1] at ht'
      cases ht'
    have hshow : (s.1.decide s.2 ((op.before m).context f e)).1.isShow =
        (v.leave (r.surrounds f)).shut := by
      rw [hshut]
      cases hm : v.met with
      | true => exact hj.attending (hattends.mpr hm) hterm.2.2
      | false =>
        have hother : ¬ s.1.Attends r ((op.before m).context f e) := by
          rw [hattends, hm]
          simp
        exact (hj.handedOn hother hterm.2.2).trans (runs.handed hm).symm
    have hends : op.Ends ((op.before m).context f e).frame e := ends
    obtain ⟨a, t', w', g', es, ha, hp, hb, hno, hg, hf, hout, hw, hshown⟩ :=
      h.byRegion.onEvent_leave h.total h.graph hends rfl h.accepts hj hshow
    have hstep : m.step Tracer.deliver s op =
        ⟨op.after ((op.before m).heed f.id e a), (t', w'), none⟩ :=
      step_of_heard hd (keeps.trans hk) event live hu ha hp
    exact ⟨_, t', w', g', es, hstep, by rw [stack_heed, stack], hb, hno, hg, hf, hout, hw, hshown⟩

theorem finish (h : InTouch t r m s V g) (hk : m.hook = some hook) (hd : op.IsDisciplined m)
    (spelled : op.IsSpelled) (keeps : op.KeepsHook m) (event : op.event? m = some (f.id, e))
    (ends : op.Ends f e) (live : (op.before m).frames.get? f.id = some f)
    (back : f.back = rest.head?) (top : m.stack = f.id :: rest)
    (stack : (op.before m).stack = m.stack)
    (after : ∀ m', m'.stack = m.stack → (op.after m').stack = rest) :
    KeepsTouch t r m s V g op := by
  have off : f.id ∉ rest := h.linked.not_mem_rest top
  obtain ⟨v, vs, hvs, hruns, hended⟩ := h.current f.id rest (top ▸ List.suffix_rfl)
  obtain ⟨m', t', w', g', es, hstep, hstack, hb, hno, hg, hf, hout, hw, hshown⟩ :=
    h.leaves hk hd spelled keeps event ends live back top stack hruns
  let change : Visit → Visit := (·.leave (r.surrounds f))
  have hchange : Visit.SparesCall change := Visit.sparesCall_leave _
  have hV : Visit.after r m s op V = Visit.amend f.id change V := by
    unfold Visit.after
    rw [event]
    dsimp only
    rw [live]
    cases ends <;> rfl
  have hacts : m.Acts (m.step Tracer.deliver s op).machine f.id := h.linked.acts_step hd event
  have hspelled : (m.step Tracer.deliver s op).machine.IsSpelled := h.spelled.step spelled
  have hrecords : Visit.Records t (Visit.amend f.id change V) g' t'.faults :=
    hf ▸ h.records.leave hvs hruns.running hruns.stays hshown
  rw [hstep] at hacts hspelled
  unfold KeepsTouch
  rw [hV, hstep]
  refine ⟨rfl, g', ?_, hout⟩
  refine h.acted hacts hspelled hb hg (hout ▸ hw) off (Or.inr top)
    (fun j hj => Visit.of_amend_of_ne hchange hj V)
    (Visit.forall_amend h.sound fun v _ _ hv => hv) (Or.inr ⟨after m' hstack, hno, ?_⟩) hrecords
  rw [Visit.of_amend hchange hvs]
  refine List.forall_mem_cons.mpr ⟨?_, hended⟩
  simp [change, Visit.leave]

theorem drop (h : InTouch t r m s V g) (hk : m.hook = some hook) (hd : op.IsDisciplined m)
    (spelled : op.IsSpelled) (keeps : op.KeepsHook m) (event : op.event? m = some (f.id, .discard))
    (live : (op.before m).frames.get? f.id = some f) (off : f.id ∉ m.stack)
    (stack : (op.before m).stack = m.stack) (after : ∀ m', (op.after m').stack = m'.stack) :
    KeepsTouch t r m s V g op := by
  have hacts : m.Acts (m.step Tracer.deliver s op).machine f.id := h.linked.acts_step hd event
  have hspelled : (m.step Tracer.deliver s op).machine.IsSpelled := h.spelled.step spelled
  have hV : Visit.after r m s op V =
      Visit.amend f.id (·.drop ((op.before m).hears f.id .discard)) V := by
    unfold Visit.after
    rw [event]
    dsimp only
    rw [live]
  unfold KeepsTouch
  rw [hV]
  cases hu : (op.before m).hears f.id .discard with
  | false =>
    have hstep : m.step Tracer.deliver s op = ⟨op.after (op.before m), s, none⟩ :=
      step_of_unheard hd (keeps.trans hk) event live hu
    rw [hstep] at hacts hspelled ⊢
    rw [Visit.amend_drop_false]
    refine ⟨rfl, g, ?_, rfl⟩
    exact h.acted hacts hspelled (Tracer.Besides.refl _ _) h.graph h.accepts off (Or.inl rfl)
      (fun _ _ => rfl) h.sound
      (Or.inr ⟨(after _).trans stack, fun ha => off (h.attached _ ha), h.ended _ off⟩) h.records
  | true =>
    obtain ⟨t', g', ha, hb, hno, hf, hg, hout, hshown⟩ :=
      Tracer.onEvent_drop h.graph
        (show ((op.before m).context f .discard).event = .discard from rfl) s.2
    have hstep : m.step Tracer.deliver s op =
        ⟨op.after ((op.before m).heed f.id .discard .proceed), (t', s.2), none⟩ :=
      step_of_heard hd (keeps.trans hk) event live hu ha (fun _ => by simp)
    have hchange : Visit.SparesCall (·.drop true) := Visit.sparesCall_drop _
    have hrecords : Visit.Records t (Visit.amend f.id (·.drop true) V) g' t'.faults :=
      hf ▸ h.records.drop hshown
    rw [hstep] at hacts hspelled ⊢
    refine ⟨rfl, g', ?_, hout⟩
    refine h.acted hacts hspelled hb hg (hout ▸ h.accepts) off (Or.inl rfl)
      (fun j hj => Visit.of_amend_of_ne hchange hj V)
      (Visit.forall_amend h.sound fun v _ _ hv => hv) (Or.inr ⟨?_, hno, ?_⟩) hrecords
    · rw [after, stack_heed, stack]
    · have hended := h.ended f.id off
      cases hvs : Visit.of f.id V with
      | nil =>
        rw [Visit.amend_of_nil hvs, hvs]
        exact fun v hv => absurd hv List.not_mem_nil
      | cons v vs =>
        rw [hvs] at hended
        rw [Visit.of_amend hchange hvs]
        exact List.forall_mem_cons.mpr (List.forall_mem_cons.mp hended)

/-- One operation. -/
theorem step (h : InTouch t r m s V g) (hk : m.hook = some hook) (hd : op.IsDisciplined m)
    (spelled : op.IsSpelled) (keeps : op.KeepsHook m) : KeepsTouch t r m s V g op := by
  cases Op.Turn.of_disciplined h.linked hd with
  | quiet event stack => exact h.quiet hd spelled event stack
  | start f event live back off stack after =>
    exact h.start hk hd spelled keeps event live back off stack after
  | line f f₀ rest event live was moved top stack after =>
    have hback : f.place.back = f₀.back := by rw [moved]
    exact h.line hk hd spelled keeps event live (hback.trans (h.linked.back_of_top top was)) top
      stack after
  | finish f e rest event ends live was top stack after =>
    have hback : f.place.back = rest.head? := h.linked.back_of_top top was
    exact h.finish hk hd spelled keeps event ends live hback top stack after
  | drop f event live off stack after =>
    exact h.drop hk hd spelled keeps event live off stack after

end

/-- A whole run. -/
theorem run (h : InTouch t r m s V g) {hook : HookName} (hk : m.hook = some hook)
    {ops : List (Op FrameId)} (hd : m.Disciplined Tracer.deliver s ops)
    (spelled : ∀ op ∈ ops, op.IsSpelled) :
    (m.run Tracer.deliver s ops).panic = none ∧ ∃ g',
      InTouch t r (m.run Tracer.deliver s ops).machine (m.run Tracer.deliver s ops).state
        (Visit.during r m s ops V) g' ∧ g'.output = g.output := by
  induction ops generalizing m s V g with
  | nil => exact ⟨rfl, g, h, rfl⟩
  | cons op ops ih =>
    obtain ⟨hop, keeps, hrest⟩ := hd
    obtain ⟨hsp, hspelled⟩ := List.forall_mem_cons.mp spelled
    obtain ⟨hp, g', h', ho⟩ := h.step hk hop hsp keeps
    obtain ⟨hr, g'', h'', ho'⟩ := ih h' ((hook_step keeps).trans hk) hrest hspelled
    rw [run_of_calm hp]
    exact ⟨hr, g'', h'', ho'.trans ho⟩

end InTouch
end SelectiveTrace
