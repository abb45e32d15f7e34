import SelectiveTrace.Proofs.Tracer.Distance

/-! The lines that a tracer of target codes writes along a run. The distance of a frame from its
nearest target tells which of its events are written, also of a frame that the hook has given up. At
the one depth to which no level can be added it tells so of targets alone. -/
namespace SelectiveTrace
open Machine

namespace Tracer

def account (t : Tracer) (ctx : Context) (expanded : Bool) (x : Showing) : List String :=
  x.lines (t.descend ctx) ctx expanded ++
    t.resultLines ctx (indentation ((t.descend ctx).session.depth ctx.frame.thread.id)) x.result

def follow (t : Tracer) (w : Surroundings) (ctx : Context) : Verdict → Tracer × Surroundings
  | .show_ expanded => ((t.render w ctx expanded).1, (t.render w ctx expanded).2.1)
  | .skip | .ignore => (t, w)
  | .overflow => (t.fault (.handling ctx.event.name overflowText), w)

def linesBy (t : Tracer) (ctx : Context) (x : Showing) : Verdict → List String
  | .show_ expanded => t.account ctx expanded x
  | .skip | .ignore | .overflow => []

def omission (t : Tracer) (ctx : Context) (x : Showing) : String :=
  indentation ((t.descend ctx).session.depth ctx.frame.thread.id) ++ x.thread ++
    "    ... (function body omitted)"

theorem account_of_call (t : Tracer) {ctx : Context} (h : ctx.event = .call) (x : Showing) :
    t.account ctx true x = t.account ctx false x ++ [t.omission ctx x] := by
  simp [account, omission, Showing.lines, variableLines, eventLines, resultLines, h, Event.isCall]

theorem render_of_text {t : Tracer} (ht : t.ByCode) (h : t.renderer.IsTotal) (hg : t.graph = none)
    (w : Surroundings) (ctx : Context) (expanded : Bool) :
    ∃ (x : Showing) (t' : Tracer) (w' : Surroundings), t.resultText ctx = .ok x.result ∧
      t.render w ctx expanded = (t', w', none) ∧ t.Keeps t' ctx.frame.id ∧ t'.graph = none ∧
      (t'.sink, w') = t.feed w (t.account ctx expanded x) := by
  obtain ⟨x, u, w', hres, he, hr⟩ := render_eq h w ctx expanded
  have hd : (t.descend ctx).graph = none ∧ (t.descend ctx).config = t.config ∧
      (t.descend ctx).sink = t.sink := by
    unfold descend
    split <;> exact ⟨hg, rfl, rfl⟩
  have hu : u.graph = none := he.alike.graph.trans hd.1
  have hk := (keeps_descend t ctx).trans (he.alike.keeps ctx.frame.id)
  have hend := (hk.byCode ht).keeps_ended ctx
  have hw := emits_write (u.ended ctx) w' (u.resultLines ctx
    (indentation ((t.descend ctx).session.depth ctx.frame.thread.id)) x.result)
  have hended : (u.ended ctx).graph = u.graph ∧ (u.ended ctx).config = u.config ∧
      (u.ended ctx).sink = u.sink := by
    unfold ended
    split <;> exact ⟨rfl, rfl, rfl⟩
  have hlines : u.resultLines ctx
        (indentation ((t.descend ctx).session.depth ctx.frame.thread.id)) x.result =
      t.resultLines ctx
        (indentation ((t.descend ctx).session.depth ctx.frame.thread.id)) x.result := by
    unfold resultLines
    rw [hk.renderer]
  dsimp only at hr
  rw [noteGraph, hu] at hr
  dsimp only at hr
  rw [conclude_eq] at hr
  refine ⟨x, _, _, hres, hr, (hk.trans hend).trans (hw.alike.keeps _), ?_, ?_⟩
  · exact hw.alike.graph.trans (hended.1.trans hu)
  · have hfirst : ((u.ended ctx).sink, w') =
        t.feed w (x.lines (t.descend ctx) ctx expanded) := by
      rw [hended.2.2, he.output]
      unfold feed
      rw [hd.1, hg, hd.2.1, hd.2.2]
    rw [hw.output, hlines]
    exact feed_append hfirst ((hended.1.trans hu).trans hg.symm) (hended.2.1.trans hk.config) _

/-- What an event does to a tracer that decides without counting. -/
theorem onEvent_of_text {t : Tracer} (ht : t.ByCode) (h : t.renderer.IsTotal)
    (hg : t.graph = none) {w : Surroundings} {ctx : Context} (hd : ctx.event.isDiscard = false)
    {v : Verdict} (hv : t.decide w ctx = (v, t)) :
    ∃ (a : Answer) (x : Showing) (t' : Tracer) (w' : Surroundings),
      t.onEvent ctx w = (a, t', w') ∧ (∀ text, a ≠ .panicked text) ∧
      (a = .skipFrame → v = .skip) ∧ t.Keeps t' ctx.frame.id ∧ t'.graph = none ∧
      t.resultText ctx = .ok x.result ∧ (t', w') = t.follow w ctx v ∧
      (t'.sink, w') = t.feed w (t.linesBy ctx x v) := by
  obtain ⟨result, hres⟩ := resultText_total h ctx
  have hv₁ : (t.decide w ctx).1 = v := by rw [hv]
  have hv₂ : (t.decide w ctx).2 = t := by rw [hv]
  cases v with
  | show_ expanded =>
    obtain ⟨x, t', w', hres', hr, hk, hg', ho⟩ := render_of_text ht h hg w ctx expanded
    refine ⟨.proceed, x, t', w', onEvent_of_show hd hv₁ (hv₂.symm ▸ hr), fun _ => by simp, ?_, hk,
      hg', hres', ?_, ho⟩
    · intro ha
      cases ha
    · rw [follow, hr]
  | skip =>
    refine ⟨.skipFrame, ⟨"", ⟨[], []⟩, ("", 0), result⟩, t, w, ?_, fun _ => by simp, fun _ => rfl,
      Keeps.refl _ _, hg, hres, rfl, (feed_nil t w).symm⟩
    rw [onEvent_of_skip hd hv₁, hv₂]
  | ignore =>
    refine ⟨.proceed, ⟨"", ⟨[], []⟩, ("", 0), result⟩, t, w, ?_, fun _ => by simp, ?_,
      Keeps.refl _ _, hg, hres, rfl, (feed_nil t w).symm⟩
    · rw [onEvent_of_ignore hd hv₁, hv₂]
    · intro ha
      cases ha
  | overflow =>
    refine ⟨.proceed, ⟨"", ⟨[], []⟩, ("", 0), result⟩,
      t.fault (.handling ctx.event.name overflowText), w, ?_, fun _ => by simp, ?_,
      ⟨rfl, rfl, rfl, Session.Keeps.refl _ _⟩, hg, hres, rfl, (feed_nil t w).symm⟩
    · rw [onEvent_of_overflow hd hv₁, hv₂]
    · intro ha
      cases ha

theorem Writes.of_keeps {t t' : Tracer} {c : TracerConfig} {codes : List CodeId}
    (h : t.Writes c codes) {id : FrameId} (hk : t.Keeps t' id) (hg : t'.graph = none) :
    t'.Writes c codes := by
  refine ⟨hk.byCode h.byCode, hk.config.trans h.config, ?_, hk.renderer ▸ h.total, hg, h.expands,
    h.unlimited, h.positive⟩
  rw [hk.session.codes]
  exact h.codes

theorem Writes.onEvent_discard {t : Tracer} {c : TracerConfig} {codes : List CodeId}
    (h : t.Writes c codes) {ctx : Context} (he : ctx.event = .discard) (w : Surroundings) :
    ∃ t', t.onEvent ctx w = (.proceed, t', w) ∧ t'.Writes c codes := by
  have hd : t.dropFrame ctx.frame.id =
      t.onSession fun s => (s.evict ctx.frame.id).detach ctx.frame.id := by
    unfold dropFrame onSession
    rw [h.graph]
  refine ⟨t.dropFrame ctx.frame.id, ?_, ?_⟩
  · unfold onEvent
    rw [he]
    rfl
  · rw [hd]
    refine ⟨⟨h.byCode.observed, ?_⟩, h.config, h.codes, h.total, h.graph, h.expands, h.unlimited,
      h.positive⟩
    simp [onSession, Session.detach, Session.evict, h.byCode.frames]

end Tracer

def Beyond (c : TracerConfig) (codes : List CodeId) (frames : List Frame) : Prop :=
  ∀ e, settledAt c (nearest codes frames) e = .skip

theorem beyond_of_skip {c : TracerConfig} {codes : List CodeId} {frames : List Frame} {e : Event}
    (h : settledAt c (nearest codes frames) e = .skip) : Beyond c codes frames := by
  intro e'
  unfold settledAt verdictAt at h ⊢
  split at h
  · cases h
  next hcounted =>
    rw [if_neg hcounted]
    split at h
    · cases h
    next hn =>
      split at h
      · split at h <;> cases h
      next hd => rw [if_neg hn, if_neg hd]

/-- The hook has given up no running frame but those of which nothing is shown. -/
structure InView (c : TracerConfig) (codes : List CodeId) (m : Machine)
    (s : Tracer × Surroundings) : Prop where
  linked : m.Linked
  writes : s.1.Writes c codes
  passed : ∀ id rest f, id :: rest <:+ m.stack → m.standing id = some f → id ∈ m.untraced →
    Beyond c codes (f :: m.framesAt rest)

namespace InView
variable {c : TracerConfig} {codes : List CodeId} {m m' : Machine} {s : Tracer × Surroundings}
  {f : Frame} {e : Event} {op : Op FrameId} {hook : HookName} {rest : List FrameId}

/-- Below the acting frame nothing changes. -/
theorem passed_of_not_mem (h : InView c codes m s) {a id : FrameId} (acts : m.Acts m' a)
    (hs : id :: rest <:+ m.stack) (ha : a ∉ id :: rest) (hf : m'.standing id = some f)
    (hu : id ∈ m'.untraced) : Beyond c codes (f :: m'.framesAt rest) := by
  have hne : ∀ j ∈ id :: rest, j ≠ a := fun j hj he => ha (he ▸ hj)
  have hr : m'.framesAt rest = m.framesAt rest :=
    framesAt_congr fun j hj => (acts.spares j (hne j (List.mem_cons_of_mem _ hj))).standing
  have hid := acts.spares id (hne id List.mem_cons_self)
  rw [hr]
  rw [hid.standing] at hf
  exact h.passed id rest f hs hf (hid.untraced hu)

/-- The event of the frame that runs on top of `rest`. Given up or not, its lines are those that the
distance calls for. -/
theorem event (h : InView c codes m s) (hk : m.hook = some hook) (hd : op.IsDisciplined m)
    (keeps : op.KeepsHook m) (event : op.event? m = some (f.id, e)) (running : e.isDiscard = false)
    (live : (op.before m).frames.get? f.id = some f)
    (stack : (op.before m).stack = f.id :: rest) (back : f.back = rest.head?)
    (known : f.id ∈ m.untraced → e.isCall = false → Beyond c codes (f :: m.framesAt rest)) :
    ∃ (x : Showing) (t' : Tracer) (w' : Surroundings) (m' : Machine),
      let ctx := (op.before m).context f e
      let v := settledAt c (nearest codes (f :: m.framesAt rest)) e
      m.step Tracer.deliver s op = ⟨op.after m', (t', w'), none⟩ ∧
      m'.stack = f.id :: rest ∧ m'.standing f.id = some f.place ∧
      (f.id ∈ m'.untraced → Beyond c codes (f :: m.framesAt rest)) ∧ t'.Writes c codes ∧
      s.1.resultText ctx = .ok x.result ∧ (t', w') = s.1.follow s.2 ctx v ∧
      (t'.sink, w') = s.1.feed s.2 (s.1.linesBy ctx x v) := by
  have hlinked := h.linked.before hd
  have hsuf : rest <:+ (op.before m).stack := stack ▸ List.suffix_cons f.id rest
  have off : f.id ∉ rest := hlinked.not_mem_rest stack
  have hw := h.writes
  have hv := hw.decide_eq hlinked s.2 ((op.before m).context f e) rfl hsuf back
  rw [show ((op.before m).context f e).frame = f from rfl,
    show ((op.before m).context f e).event = e from rfl, framesAt_before event off] at hv
  obtain ⟨a, x, t', w', ha, hp, hskip, hkeeps, hg, hres, hfollow, hlines⟩ :=
    Tracer.onEvent_of_text hw.byCode hw.total hw.graph running hv
  cases hu : (op.before m).hears f.id e with
  | false =>
    obtain ⟨hcall, hun⟩ := mem_untraced_of_unheard hu
    have hbeyond := known hun hcall
    have hstep : m.step Tracer.deliver s op = ⟨op.after (op.before m), s, none⟩ :=
      step_of_unheard hd (keeps.trans hk) event live hu
    refine ⟨x, s.1, s.2, op.before m, hstep, stack, standing_of_get? live, fun _ => hbeyond, hw,
      hres, ?_, ?_⟩
    · rw [hbeyond e]
      rfl
    · rw [hbeyond e]
      exact (Tracer.feed_nil _ _).symm
  | true =>
    have hstep : m.step Tracer.deliver s op =
        ⟨op.after ((op.before m).heed f.id e a), (t', w'), none⟩ :=
      step_of_heard hd (keeps.trans hk) event live hu ha hp
    refine ⟨x, t', w', _, hstep, ?_, standing_heed live, ?_, hw.of_keeps hkeeps hg, hres, hfollow,
      hlines⟩
    · rw [stack_heed, stack]
    · intro hmem
      cases a with
      | skipFrame => exact beyond_of_skip (hskip rfl)
      | proceed =>
        cases hc : e.isCall with
        | true => simp [heed, hc, mem_without] at hmem
        | false =>
          rw [heed, hc] at hmem
          exact known (Op.untraced_before hmem) hc
      | panicked text => exact absurd rfl (hp text)

theorem quiet (h : InView c codes m s) (hd : op.IsDisciplined m) (event : op.event? m = none)
    (stack : (op.before m).stack = m.stack) : InView c codes (op.before m) s := by
  have hn := h.linked.nextId_not_mem
  have hacts := h.linked.acts_quiet hd event m.nextId
  refine ⟨hacts.linked, h.writes, ?_⟩
  intro id rest f hs hf hu
  rw [stack] at hs
  exact h.passed_of_not_mem hacts hs (fun hm => hn (hs.mem hm)) hf hu

/-- The acting frame stays on top, or is gone from the stack. -/
theorem acted (h : InView c codes m s) {s' : Tracer × Surroundings} (acts : m.Acts m' f.id)
    (writes : s'.1.Writes c codes) (below : rest <:+ m.stack) (off : f.id ∉ rest)
    (stack : m'.stack = rest ∨ m'.stack = f.id :: rest ∧ m'.standing f.id = some f.place ∧
      (f.id ∈ m'.untraced → Beyond c codes (f :: m.framesAt rest))) : InView c codes m' s' := by
  refine ⟨acts.linked, writes, ?_⟩
  intro id under g hs hg hu
  have hbelow : id :: under <:+ rest → Beyond c codes (g :: m'.framesAt under) := fun hr =>
    h.passed_of_not_mem acts (hr.trans below) (fun hm => off (hr.mem hm)) hg hu
  rcases stack with hstack | ⟨hstack, hstanding, hbeyond⟩
  · exact hbelow (hstack ▸ hs)
  · rw [hstack, List.suffix_cons_iff] at hs
    rcases hs with hs | hs
    · obtain ⟨rfl, rfl⟩ := List.cons.inj hs
      rw [hstanding] at hg
      cases hg
      have hr : m'.framesAt under = m.framesAt under :=
        framesAt_congr fun j hj => (acts.spares j fun he => off (he ▸ hj)).standing
      rw [hr]
      intro e'
      rw [@nearest_congr codes f f.place rfl]
      exact hbeyond hu e'
    · exact hbelow hs

end InView

/-- An event of the operation writes what the distance of its frame calls for. -/
def TellsByDistance (c : TracerConfig) (codes : List CodeId) (m : Machine)
    (s : Tracer × Surroundings) (op : Op FrameId) : Prop :=
  ∀ id e, op.event? m = some (id, e) → e.isDiscard = false →
    ∃ (f : Frame) (d : ℕ∞) (x : Showing),
      let ctx := (op.before m).context f e
      let s' := (m.step Tracer.deliver s op).state
      (op.before m).frames.get? id = some f ∧ Distance codes (op.before m).frames f d ∧
      s.1.resultText ctx = .ok x.result ∧ s' = s.1.follow s.2 ctx (settledAt c d e) ∧
      (s'.1.sink, s'.2) = s.1.feed s.2 (s.1.linesBy ctx x (settledAt c d e)) ∧
      (e = .call → s.1.account ctx true x = s.1.account ctx false x ++ [s.1.omission ctx x])

namespace InView
variable {c : TracerConfig} {codes : List CodeId} {m m' : Machine} {s : Tracer × Surroundings}
  {f : Frame} {e : Event} {op : Op FrameId} {hook : HookName} {rest : List FrameId}

/-- The event of the innermost frame, and what is in view after it. -/
theorem told (h : InView c codes m s) (hk : m.hook = some hook) (hd : op.IsDisciplined m)
    (keeps : op.KeepsHook m) (event : op.event? m = some (f.id, e)) (running : e.isDiscard = false)
    (live : (op.before m).frames.get? f.id = some f)
    (stack : (op.before m).stack = f.id :: rest) (back : f.back = rest.head?)
    (below : rest <:+ m.stack)
    (known : f.id ∈ m.untraced → e.isCall = false → Beyond c codes (f :: m.framesAt rest))
    (after : (∀ m', op.after m' = m') ∨
      ∀ m', m'.stack = f.id :: rest → (op.after m').stack = rest) :
    (m.step Tracer.deliver s op).panic = none ∧
      InView c codes (m.step Tracer.deliver s op).machine (m.step Tracer.deliver s op).state ∧
      TellsByDistance c codes m s op := by
  have hacts : m.Acts (m.step Tracer.deliver s op).machine f.id := h.linked.acts_step hd event
  have hlinked := h.linked.before hd
  have off : f.id ∉ rest := hlinked.not_mem_rest stack
  have hdist := hlinked.distance codes (stack ▸ List.suffix_cons f.id rest) back
  rw [framesAt_before event off] at hdist
  obtain ⟨x, t', w', m', hstep, hstack, hstanding, hbeyond, hwrites, hres, hfollow, hlines⟩ :=
    h.event hk hd keeps event running live stack back known
  have hout : (m.step Tracer.deliver s op).state = (t', w') := by rw [hstep]
  refine ⟨by rw [hstep], ?_, ?_⟩
  · refine h.acted hacts (hout ▸ hwrites) below off ?_
    rw [hstep]
    rcases after with hafter | hafter
    · rw [hafter]
      exact Or.inr ⟨hstack, hstanding, hbeyond⟩
    · exact Or.inl (hafter m' hstack)
  · intro id e' he _
    rw [event] at he
    obtain ⟨rfl, rfl⟩ := Prod.mk.inj (Option.some.inj he)
    refine ⟨f, _, x, live, hdist, hres, hout.trans hfollow, ?_, ?_⟩
    · rw [hout]
      exact hlines
    · exact fun hcall => Tracer.account_of_call s.1 hcall x

/-- One operation. -/
theorem step (h : InView c codes m s) (hk : m.hook = some hook) (hd : op.IsDisciplined m)
    (keeps : op.KeepsHook m) :
    (m.step Tracer.deliver s op).panic = none ∧
      InView c codes (m.step Tracer.deliver s op).machine (m.step Tracer.deliver s op).state ∧
      TellsByDistance c codes m s op := by
  have htop : ∀ (f : Frame) (rest : List FrameId), m.stack = f.id :: rest →
      ∀ f₀, m.standing f.id = some f₀ → f.code = f₀.code → f.id ∈ m.untraced →
        Beyond c codes (f :: m.framesAt rest) := by
    intro f rest top f₀ was code hu e
    rw [nearest_congr code]
    exact h.passed f.id rest f₀ (top ▸ List.suffix_rfl) was hu e
  cases Op.Turn.of_disciplined h.linked hd with
  | quiet event stack =>
    rw [step_of_quiet hd event]
    refine ⟨rfl, h.quiet hd event stack, ?_⟩
    intro id e he
    rw [event] at he
    cases he
  | start f event live back off stack after =>
    refine h.told hk hd keeps event rfl live stack back List.suffix_rfl ?_ (Or.inl after)
    intro _ hc
    cases hc
  | line f f₀ rest event live was moved top stack after =>
    have hback := h.linked.back_of_top top was
    have hcode : f.place.code = f₀.code := by rw [moved]
    have hb : f.place.back = f₀.back := by rw [moved]
    exact h.told hk hd keeps event rfl live (stack.trans top) (hb.trans hback)
      (top ▸ List.suffix_cons _ _) (fun hu _ => htop f rest top f₀ was hcode hu) (Or.inl after)
  | finish f e rest event ends live was top stack after =>
    have hback := h.linked.back_of_top top was
    have hrun : e.isDiscard = false := by
      cases ends <;> rfl
    exact h.told hk hd keeps event hrun live (stack.trans top) hback (top ▸ List.suffix_cons _ _)
      (fun hu _ => htop f rest top f.place was rfl hu)
      (Or.inr fun m' hm => after m' (hm.trans top.symm))
  | drop f event live off stack after =>
    have hacts : m.Acts (m.step Tracer.deliver s op).machine f.id := h.linked.acts_step hd event
    have htells : TellsByDistance c codes m s op := by
      intro id e he hr
      rw [event] at he
      obtain ⟨-, rfl⟩ := Prod.mk.inj (Option.some.inj he)
      cases hr
    cases hu : (op.before m).hears f.id .discard with
    | false =>
      have hstep : m.step Tracer.deliver s op = ⟨op.after (op.before m), s, none⟩ :=
        step_of_unheard hd (keeps.trans hk) event live hu
      rw [hstep] at hacts ⊢
      exact ⟨rfl, h.acted hacts h.writes List.suffix_rfl off (Or.inl ((after _).trans stack)),
        htells⟩
    | true =>
      obtain ⟨t', ha, hwrites⟩ := h.writes.onEvent_discard
        (show ((op.before m).context f .discard).event = .discard from rfl) s.2
      have hstep : m.step Tracer.deliver s op =
          ⟨op.after ((op.before m).heed f.id .discard .proceed), (t', s.2), none⟩ :=
        step_of_heard hd (keeps.trans hk) event live hu ha (fun _ => by simp)
      rw [hstep] at hacts ⊢
      refine ⟨rfl, h.acted hacts hwrites List.suffix_rfl off (Or.inl ?_), htells⟩
      rw [after, stack_heed, stack]

/-- Every operation of a run. -/
theorem run (h : InView c codes m s) (hk : m.hook = some hook) {ops later : List (Op FrameId)}
    (hd : m.Disciplined Tracer.deliver s (ops ++ op :: later)) :
    let r := m.run Tracer.deliver s ops
    r.panic = none ∧ (r.machine.step Tracer.deliver r.state op).panic = none ∧
      TellsByDistance c codes r.machine r.state op := by
  induction ops generalizing m s with
  | nil =>
    obtain ⟨hop, keeps, -⟩ := hd
    obtain ⟨hp, -, ht⟩ := h.step hk hop keeps
    exact ⟨rfl, hp, ht⟩
  | cons first ops ih =>
    obtain ⟨hop, keeps, hrest⟩ := hd
    obtain ⟨hp, h', -⟩ := h.step hk hop keeps
    rw [run_of_calm hp]
    exact ih h' ((hook_step keeps).trans hk) hrest

end InView

theorem Tracer.depth_pos_of_outfit {c : TracerConfig} {disk : Disk} {codes : List CodeId}
    {custom : List CustomFormat} {sources : SourceCache} {sink : Sink} {t : Tracer}
    (setup : outfit c disk codes custom sources sink = .ok t) : 0 < c.depth := by
  by_cases hd : c.depth < 1
  · have hv : c.validate disk = .error (.config .depthZero) := by
      unfold TracerConfig.validate
      rw [if_pos hd]
      rfl
    unfold outfit ofConfig at setup
    rw [hv] at setup
    cases setup
  · omega

/-- Before anything has run no frame is given up. -/
theorem Tracer.IsOutfit.inView {t : Tracer} {c : TracerConfig} {codes : List CodeId}
    {custom : List CustomFormat} {sink : Sink} (h : t.IsOutfit c codes custom sink)
    (formats : ∀ f ∈ custom, ∀ v, ∃ text, f.format v = .ok text) (text : c.callGraph = none)
    (unlimited : c.hitLimit = none) (positive : 0 < c.depth) {m : Machine} (fresh : m.IsFresh)
    (w : Surroundings) : InView c codes m (t, w) := by
  refine ⟨fresh.linked, ⟨⟨h.observed, by rw [h.session]⟩, h.config, h.codes, ?_, ?_, ?_, unlimited,
    positive⟩, ?_⟩
  · refine Renderer.isTotal_of_custom ?_
    rw [h.custom]
    exact formats
  · rw [h.graph, text]
    rfl
  · simp [TracerConfig.expands, text]
  · intro id rest f hs
    rw [fresh.stack] at hs
    simp at hs

/-- A tracer of target codes that writes text and counts no hits, on a new machine, through a run
that keeps to the stack: what every operation of the run writes is told by the distance of its frame
from the nearest target, whatever the hook has given up before. Where the level to expand makes the
depth too large to count, only the events of targets are written and all others are faults. -/
theorem written_events_by_distance {c : TracerConfig} {disk : Disk} {codes : List CodeId}
    {custom : List CustomFormat} {sources : SourceCache} {sink : Sink} {t : Tracer}
    {w : Surroundings} {m : Machine} {hook : HookName} {ops later : List (Op FrameId)}
    {op : Op FrameId} (setup : Tracer.outfit c disk codes custom sources sink = .ok t)
    (region : c.observed = none) (text : c.callGraph = none) (unlimited : c.hitLimit = none)
    (formats : ∀ f ∈ custom, ∀ v, ∃ text, f.format v = .ok text)
    (fresh : m.IsFresh) (installed : m.hook = some hook)
    (disciplined : m.Disciplined Tracer.deliver (t, w) (ops ++ op :: later)) :
    let r := m.run Tracer.deliver (t, w) ops
    r.panic = none ∧ (r.machine.step Tracer.deliver r.state op).panic = none ∧
      TellsByDistance c codes r.machine r.state op := by
  have hout := Tracer.isOutfit_of_outfit setup region
  have hpos := Tracer.depth_pos_of_outfit setup
  exact (hout.inView formats text unlimited hpos fresh w).run installed disciplined

def nestedCalls : List (Op FrameId) :=
  let target : Code := ⟨"target", ⟨"/p.py"⟩, 1⟩
  let first : Code := ⟨"first", ⟨"/p.py"⟩, 5⟩
  let second : Code := ⟨"second", ⟨"/p.py"⟩, 9⟩
  let third : Code := ⟨"third", ⟨"/p.py"⟩, 13⟩
  [.call target [], .call first [], .call second [], .line ⟨0, 2⟩ 10, .call third [],
    .line ⟨0, 3⟩ 14, .call target []]

theorem written_events_by_distance_of_nested_calls :
    let c : TracerConfig := { depth := 2, depthExpanded := true }
    let codes : List CodeId := [⟨"/p.py", "target", 1⟩]
    let t : Tracer := { config := c, session := { targetCodes := codes }, sink := .lines [] }
    let m : Machine := { hook := some "trace" }
    Tracer.outfit c {} codes [] {} (.lines []) = .ok t ∧ m.IsFresh ∧
      m.Disciplined Tracer.deliver (t, {}) (nestedCalls ++ [.unwind ⟨0, 4⟩]) ∧
      let r := m.run Tracer.deliver (t, {}) nestedCalls
      r.panic = none ∧ (r.machine.step Tracer.deliver r.state (.unwind ⟨0, 4⟩)).panic = none ∧
        TellsByDistance c codes r.machine r.state (.unwind ⟨0, 4⟩) := by
  intro c codes t m
  have setup : Tracer.outfit c {} codes [] {} (.lines []) = .ok t := rfl
  have fresh : m.IsFresh := ⟨rfl, rfl, rfl, rfl⟩
  have disciplined : m.Disciplined Tracer.deliver (t, {}) (nestedCalls ++ [.unwind ⟨0, 4⟩]) := by
    decide +kernel
  refine ⟨setup, fresh, disciplined, ?_⟩
  refine written_events_by_distance setup rfl rfl rfl ?_ fresh rfl disciplined
  intro f hf
  cases hf

/-- The third function is passed over, and the target that it calls is not. -/
example :
    let t : Tracer :=
      { config := { depth := 2, depthExpanded := true }
        session := { targetCodes := [⟨"/p.py", "target", 1⟩] }
        sources := SourceCache.register {} ⟨"/p.py"⟩ "def target():", sink := .lines [] }
    let r := Machine.run Tracer.deliver { hook := some "trace" } (t, {}) nestedCalls
    r.state.1.sink.written =
      ["Source path:... /p.py", "call         1 def target():",
        "    call         5 SOURCE IS UNAVAILABLE", "        call         9 SOURCE IS UNAVAILABLE",
        "            ... (function body omitted)", "            call         1 def target():"] := by
  decide +kernel

def targetAndCallee : List (Op FrameId) :=
  [.call ⟨"f", ⟨"/w/p.py"⟩, 1⟩ [], .line ⟨0, 0⟩ 2, .call ⟨"g", ⟨"/w/p.py"⟩, 4⟩ [], .line ⟨0, 1⟩ 5,
    .ret ⟨0, 1⟩ (.int 1), .ret ⟨0, 0⟩ (.int 1)]

/-- The called function is one link away from the target and the depth is far larger. Nothing of it
is written, and its three events are faults. -/
theorem callee_lost_at_largest_depth :
    let c : TracerConfig := { depth := 2 ^ 64 - 1 }
    let codes : List CodeId := [⟨"/w/p.py", "f", 1⟩]
    let t : Tracer := { config := c, session := { targetCodes := codes }, sink := .lines [] }
    let m : Machine := { hook := some "trace" }
    let called := (m.run Tracer.deliver (t, {}) (targetAndCallee.take 3)).machine
    let s := (m.run Tracer.deliver (t, {}) targetAndCallee).state
    Tracer.outfit c {} codes [] {} (.lines []) = .ok t ∧ m.IsFresh ∧
      m.Disciplined Tracer.deliver (t, {}) targetAndCallee ∧
      (∃ g ∈ called.frames.get? ⟨0, 1⟩, Distance codes called.frames g 1) ∧ 1 < c.depth ∧
      s.1.sink.written =
        ["Source path:... /w/p.py", "call         1 SOURCE IS UNAVAILABLE",
          "line         2 SOURCE IS UNAVAILABLE", "return       2 SOURCE IS UNAVAILABLE",
          "Return value:.. 1"] ∧
      s.1.faults.map (·.message fun _ => 0) = ["call", "line", "return"].map fun name =>
        "Tracer state inconsistency: panic while handling " ++ name ++ " event: " ++
          "attempt to add with overflow" := by
  intro c codes t m called s
  have setup : Tracer.outfit c {} codes [] {} (.lines []) = .ok t := rfl
  have disciplined : m.Disciplined Tracer.deliver (t, {}) targetAndCallee := by decide +kernel
  have near : ∃ g ∈ called.frames.get? ⟨0, 1⟩, Distance codes called.frames g 1 := by
    have links : (called.frames.get? ⟨0, 1⟩).isSome ∧
        ∀ g ∈ called.frames.get? ⟨0, 1⟩, g.code ∉ codes ∧
          ∃ f ∈ g.back.bind called.frames.get?, f.code ∈ codes := by
      decide +kernel
    obtain ⟨g, hg⟩ := Option.isSome_iff_exists.mp links.1
    obtain ⟨passed, f, hf, target⟩ := links.2 g hg
    exact ⟨g, hg, .further passed hf (.here target)⟩
  exact ⟨setup, ⟨rfl, rfl, rfl, rfl⟩, disciplined, near, by decide, by decide +kernel,
    by decide +kernel⟩

end SelectiveTrace
