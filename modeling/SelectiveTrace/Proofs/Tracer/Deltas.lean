import SelectiveTrace.Proofs.Host.WellMade
import SelectiveTrace.Proofs.Host.Fleet
import SelectiveTrace.Proofs.Tracer.Display
import SelectiveTrace.Proofs.Tracer.Upkeep

/-! The variables that an event shows. They have distinct labels, they are told apart from those that the
frame showed last, and whoever notes down all that a frame shows knows each of its variables. -/
namespace SelectiveTrace

namespace Bindings
variable {α : Type}

theorem get?_eq_none {name : String} {bs : List (String × α)} :
    get? name bs = none ↔ name ∉ names bs := by
  rw [get?, Option.map_eq_none_iff, List.find?_eq_none]
  constructor
  · intro h hm
    obtain ⟨b, hb, rfl⟩ := List.mem_map.mp hm
    simpa using h b hb
  · intro h b hb
    have hne : b.1 ≠ name := fun he => h (he ▸ List.mem_map_of_mem hb)
    simpa using hne

theorem mem_of_get? {name : String} {a : α} {bs : List (String × α)} (h : get? name bs = some a) :
    (name, a) ∈ bs := by
  obtain ⟨b, hb, rfl⟩ := Option.map_eq_some_iff.mp h
  have hn := List.find?_some hb
  simp only [decide_eq_true_eq] at hn
  exact hn ▸ List.mem_of_find?_eq_some hb

theorem get?_of_mem {name : String} {a : α} {bs : List (String × α)} (nodup : (names bs).Nodup)
    (h : (name, a) ∈ bs) : get? name bs = some a := by
  induction bs with
  | nil => cases h
  | cons b bs ih =>
    obtain ⟨hb, hn⟩ := List.nodup_cons.mp nodup
    rcases List.mem_cons.mp h with rfl | hm
    · simp [get?]
    · have hne : b.1 ≠ name := fun he => hb (he ▸ List.mem_map_of_mem hm)
      simpa [get?, hne] using ih hn hm

/-- What is bound last, or else before. -/
theorem get?_foldl_set {more : List (String × α)} (nodup : (names more).Nodup)
    (bs : List (String × α)) (name : String) :
    get? name (more.foldl (fun bs b => set b.1 b.2 bs) bs) = (get? name more).or (get? name bs) := by
  induction more generalizing bs with
  | nil => rfl
  | cons b more ih =>
    obtain ⟨hb, hn⟩ := List.nodup_cons.mp nodup
    rw [List.foldl_cons, ih hn]
    by_cases he : b.1 = name
    · subst he
      have hnone : get? b.1 more = none := get?_eq_none.mpr hb
      have hself : get? b.1 (b :: more) = some b.2 := by simp [get?]
      rw [hnone, hself, get?_set_self]
      rfl
    · have hne : name ≠ b.1 := fun h => he h.symm
      rw [get?_set_of_ne _ _ hne]
      simp [get?, he]

end Bindings

/-! The labels of what is shown. -/

theorem Renderer.names_renderAll {r : Renderer} {bindings : List (String × Value)}
    {vars : List (String × String)} (h : r.renderAll bindings = .ok vars) :
    Bindings.names vars = Bindings.names bindings := by
  induction bindings generalizing vars with
  | nil =>
    cases h
    rfl
  | cons b bs ih =>
    unfold Renderer.renderAll at h
    cases ht : r.render b.2 with
    | error e => simp [ht] at h
    | ok text =>
      cases hv : r.renderAll bs with
      | error e => simp [ht, hv, Except.map] at h
      | ok rest =>
        simp only [ht, hv, Except.map, Except.ok.injEq] at h
        have hrest := ih hv
        unfold Bindings.names at hrest ⊢
        rw [← h, List.map_cons, List.map_cons, hrest]

namespace Tracer

theorem nodup_addItems {vars : List (String × String)} (h : (Bindings.names vars).Nodup)
    (items : List (String × String)) : (Bindings.names (addItems vars items)).Nodup :=
  Bindings.nodup_foldl_set h _

theorem nodup_addWatches {t : Tracer} {ctx : Context} {watches : List Watch}
    {vars vars' : List (String × String)} (h : (Bindings.names vars).Nodup)
    (added : t.addWatches ctx watches vars = .ok vars') : (Bindings.names vars').Nodup := by
  induction watches generalizing vars with
  | nil =>
    cases added
    exact h
  | cons watch watches ih =>
    unfold addWatches at added
    cases hi : watch.items ctx.frame.locals ctx.globals t.renderer with
    | error e => simp [hi] at added
    | ok items =>
      rw [hi] at added
      exact ih (nodup_addItems h items) added

/-- No label stands twice among the texts of the locals and of what is watched. -/
theorem nodup_localReprs {t : Tracer} {ctx : Context} {vars : List (String × String)}
    (proper : ctx.frame.locals.IsProper) (shown : t.localReprs ctx = .ok vars) :
    (Bindings.names vars).Nodup := by
  unfold localReprs at shown
  cases hr : t.renderer.renderAll ctx.frame.locals.bindings with
  | error e => simp [hr] at shown
  | ok locals =>
    rw [hr] at shown
    have hl : (Bindings.names locals).Nodup := by
      rw [Renderer.names_renderAll hr]
      exact proper
    exact nodup_addWatches hl shown

end Tracer

namespace VarDiff

/-- The variables are new exactly if their labels were absent, and modified exactly if their labels stood
there with other texts. -/
structure IsExact (d : VarDiff) (old new : List (String × String)) : Prop where
  added : ∀ v, v ∈ d.added ↔ v ∈ new ∧ Bindings.get? v.1 old = none
  modified : ∀ v, v ∈ d.modified ↔
    v ∈ new ∧ ∃ text, Bindings.get? v.1 old = some text ∧ text ≠ v.2
  apart : ∀ label, label ∈ Bindings.names d.added → label ∉ Bindings.names d.modified

theorem isExact_between (old new : List (String × String)) : (between old new).IsExact old new := by
  refine ⟨?_, ?_, ?_⟩
  · intro v
    simp [between]
  · intro v
    cases h : Bindings.get? v.1 old <;> simp [between, h]
  · intro label ha hm
    obtain ⟨v, hv, rfl⟩ := List.mem_map.mp ha
    obtain ⟨u, hu, he⟩ := List.mem_map.mp hm
    have hnone : Bindings.get? v.1 old = none := by simpa using (List.mem_filter.mp hv).2
    have hsome := (List.mem_filter.mp hu).2
    rw [he, hnone] at hsome
    cases hsome

/-- What a reader knows who notes down the new and the modified variables. -/
def read (d : VarDiff) (known : List (String × String)) : List (String × String) :=
  (d.added ++ d.modified).foldl (fun known v => Bindings.set v.1 v.2 known) known

theorem IsExact.names_nodup {d : VarDiff} {old new : List (String × String)} (h : d.IsExact old new)
    (added : d.added.Sublist new) (modified : d.modified.Sublist new)
    (nodup : (Bindings.names new).Nodup) : (Bindings.names (d.added ++ d.modified)).Nodup := by
  unfold Bindings.names
  rw [List.map_append]
  refine List.nodup_append.mpr ⟨nodup.sublist (added.map _), nodup.sublist (modified.map _), ?_⟩
  intro x hx y hy he
  exact h.apart x hx (he ▸ hy)

/-- A reader who knew the old variables knows the new ones. -/
theorem get?_read_between {old new known : List (String × String)} (nodup : (Bindings.names new).Nodup)
    (knew : ∀ label text, Bindings.get? label old = some text → Bindings.get? label known = some text)
    {label text : String} (h : Bindings.get? label new = some text) :
    Bindings.get? label ((between old new).read known) = some text := by
  have hexact := isExact_between old new
  have hn := hexact.names_nodup List.filter_sublist List.filter_sublist nodup
  have hmem := Bindings.mem_of_get? h
  unfold read
  rw [Bindings.get?_foldl_set hn]
  cases hold : Bindings.get? label old with
  | none =>
    have hin : (label, text) ∈ (between old new).added := (hexact.added _).mpr ⟨hmem, hold⟩
    rw [Bindings.get?_of_mem hn (List.mem_append_left _ hin)]
    rfl
  | some was =>
    by_cases he : was = text
    · have hout : label ∉ Bindings.names ((between old new).added ++ (between old new).modified) := by
        intro hin
        obtain ⟨v, hv, rfl⟩ := List.mem_map.mp hin
        rcases List.mem_append.mp hv with ha | hm
        · have hnone := ((hexact.added v).mp ha).2
          rw [hold] at hnone
          cases hnone
        · obtain ⟨hin, was', hwas, hdiff⟩ := (hexact.modified v).mp hm
          have hv₂ : some v.2 = some text := (Bindings.get?_of_mem nodup hin).symm.trans h
          rw [hold] at hwas
          cases hwas
          cases hv₂
          exact hdiff he
      rw [Bindings.get?_eq_none.mpr hout, knew label was hold, he]
      rfl
    · have hin : (label, text) ∈ (between old new).modified :=
        (hexact.modified _).mpr ⟨hmem, was, hold, he⟩
      rw [Bindings.get?_of_mem hn (List.mem_append_right _ hin)]
      rfl

end VarDiff
/-! What a run shows of each frame, event by event, and where it forgets. -/

/-- A frame has shown its variables, or what was kept for it has been dropped. -/
inductive Memo where
  | shown (frame : FrameId) (vars : List (String × String)) (d : VarDiff)
  | dropped (frame : FrameId)
deriving DecidableEq

namespace Memo

def lastShown (log : List Memo) (id : FrameId) : List (String × String) :=
  log.foldl
    (fun last memo =>
      match memo with
      | .shown frame vars _ => if frame = id then vars else last
      | .dropped frame => if frame = id then [] else last)
    []

/-- What a reader knows who has noted down all that the frame has shown, and nothing else. -/
def known (log : List Memo) (id : FrameId) : List (String × String) :=
  log.foldl
    (fun known memo =>
      match memo with
      | .shown frame _ d => if frame = id then d.read known else known
      | .dropped _ => known)
    []

section
variable (log : List Memo) (frame id : FrameId) (vars : List (String × String)) (d : VarDiff)

@[simp] theorem lastShown_shown : lastShown (log ++ [.shown frame vars d]) id =
    if frame = id then vars else lastShown log id := by
  simp [lastShown]

@[simp] theorem lastShown_dropped : lastShown (log ++ [.dropped frame]) id =
    if frame = id then [] else lastShown log id := by
  simp [lastShown]

@[simp] theorem known_shown : known (log ++ [.shown frame vars d]) id =
    if frame = id then d.read (known log id) else known log id := by
  simp [known]

@[simp] theorem known_dropped : known (log ++ [.dropped frame]) id = known log id := by
  simp [known]

end
end Memo

namespace Tracer
open Memo

def leaves (t : Tracer) (w : Surroundings) (ctx : Context) : Bool :=
  ctx.event.isTerminal && t.session.targetFrames.contains ctx.frame.id &&
    t.observed.any fun r => !r.holds w ctx.frame

/-- The shown end of a frame drops what was kept for it, unless the frame was entered and is still to be
left. -/
def drops (t : Tracer) (ctx : Context) : Bool :=
  ctx.event.isTerminal && (t.observed.isSome || !t.session.targetFrames.contains ctx.frame.id)

def memos (t : Tracer) (w : Surroundings) (ctx : Context) : List Memo :=
  let id := ctx.frame.id
  if ctx.event.isDiscard then [.dropped id]
  else
    match t.decide w ctx with
    | (.show_ _, t') =>
      .shown id (t'.texts ctx) (t'.changes ctx) :: if t'.drops ctx then [.dropped id] else []
    | _ => if t.leaves w ctx then [.dropped id] else []

def memosAside (t : Tracer) : Aside → List Memo
  | .exit _ frame => if t.observed.isSome then [] else [.dropped frame]
  | .target _ | .enter _ | .wait _ => []

structure Recalls (t : Tracer) (log : List Memo) : Prop where
  last : ∀ id, t.session.snapshot id = lastShown log id
  known : ∀ id label text, Bindings.get? label (lastShown log id) = some text →
    Bindings.get? label (known log id) = some text

namespace Recalls
variable {t t' : Tracer} {log : List Memo} {w : Surroundings} {ctx : Context}

theorem congr (h : t.Recalls log) (same : t'.session.snapshots = t.session.snapshots) :
    t'.Recalls log := by
  refine ⟨fun id => ?_, h.known⟩
  unfold Session.snapshot
  rw [same]
  exact h.last id

theorem dropped (h : t.Recalls log) {id : FrameId}
    (erased : t'.session.snapshots = t.session.snapshots.erase id) :
    t'.Recalls (log ++ [.dropped id]) := by
  refine ⟨?_, ?_⟩
  · intro j
    rw [lastShown_dropped, Session.snapshot, erased, Table.get?_erase]
    by_cases hj : id = j
    · simp [hj]
    · have hne : j ≠ id := fun he => hj he.symm
      rw [if_neg hne, if_neg hj]
      exact h.last j
  · intro j label text
    rw [lastShown_dropped, known_dropped]
    by_cases hj : id = j
    · simp [hj, Bindings.get?]
    · rw [if_neg hj]
      exact h.known j label text

theorem shown (h : t.Recalls log) {id : FrameId} {vars : List (String × String)}
    (nodup : (Bindings.names vars).Nodup)
    (kept : t'.session.snapshots = t.session.snapshots.insert id vars) :
    t'.Recalls (log ++ [.shown id vars (.between (t.session.snapshot id) vars)]) := by
  refine ⟨?_, ?_⟩
  · intro j
    rw [lastShown_shown, Session.snapshot, kept, Table.get?_insert]
    by_cases hj : id = j
    · simp [hj]
    · have hne : j ≠ id := fun he => hj he.symm
      rw [if_neg hne, if_neg hj]
      exact h.last j
  · intro j label text hl
    rw [lastShown_shown] at hl
    rw [known_shown]
    by_cases hj : id = j
    · subst hj
      rw [if_pos rfl] at hl ⊢
      apply VarDiff.get?_read_between nodup _ hl
      rw [h.last id]
      exact h.known id
    · rw [if_neg hj] at hl ⊢
      exact h.known j label text hl

end Recalls

theorem snapshots_activate (s : Session) (now : Nat) (f : Frame) (isFirst : Bool) :
    (activate s now f isFirst).snapshots = s.snapshots := by
  unfold activate
  cases isFirst <;> rfl

/-- A frame that leaves the region is passed over and forgotten. -/
theorem decide_of_leaves {t : Tracer} {w : Surroundings} {ctx : Context}
    (h : t.leaves w ctx = true) :
    t.decide w ctx = (.ignore, { t with session := deactivate t.session ctx.frame }) := by
  unfold leaves at h
  cases ho : t.observed with
  | none => simp [ho] at h
  | some r =>
    simp only [ho, Option.any_some, Bool.and_eq_true, Bool.not_eq_true'] at h
    obtain ⟨⟨hend, hin⟩, hout⟩ := h
    have hsome : t.session.targetFrames.isEmpty = false := by
      cases hf : t.session.targetFrames with
      | nil => simp [hf] at hin
      | cons id ids => rfl
    simp [decide, gated, ho, gate, hsome, hout, List.contains_iff_mem.mp hin, hend]

/-- No other verdict touches a snapshot. -/
theorem snapshots_decide {t : Tracer} {w : Surroundings} {ctx : Context}
    (h : t.leaves w ctx = false) :
    (t.decide w ctx).2.session.snapshots = t.session.snapshots := by
  have hgated : (t.gated w ctx).2.snapshots = t.session.snapshots := by
    unfold gated
    cases ho : t.observed with
    | none => rfl
    | some r =>
      unfold leaves at h
      rw [ho, Option.any_some] at h
      unfold gate
      dsimp only
      split
      · split
        · rfl
        · split
          · rfl
          · exact snapshots_activate _ _ _ _
      · split
        · split
          · exact snapshots_activate _ _ _ _
          · rfl
        next hout =>
          split
          next hin =>
            rw [hin, eq_false_of_ne_true hout] at h
            have hend : ctx.event.isTerminal = false := by simpa using h
            rw [hend]
            rfl
          · rfl
  unfold decide
  split
  next hg => rw [← hgated, hg]
  next hg =>
    rw [hg] at hgated
    dsimp only at hgated ⊢
    split
    · unfold countHit
      split
      · exact hgated
      · split
        · exact hgated
        · exact hgated
    · exact hgated

/-- What a shown event makes of the snapshots. -/
theorem snapshots_render {t : Tracer} (h : t.renderer.IsTotal) (w : Surroundings) (ctx : Context)
    (expanded : Bool) :
    (t.render w ctx expanded).1.session.snapshots =
      if t.drops ctx then (t.session.snapshots.insert ctx.frame.id (t.texts ctx)).erase ctx.frame.id
      else t.session.snapshots.insert ctx.frame.id (t.texts ctx) := by
  have hs := session_told t w ctx expanded
  have hobserved : (t.told w ctx expanded).observed = t.observed := by rw [told_eq]
  rw [session_render h]
  unfold ended drops
  cases ctx.event.isTerminal with
  | false =>
    simp only [Bool.false_eq_true, if_false, Bool.false_and]
    rw [hs]
  | true =>
    simp only [if_true, Bool.true_and, onSession, release, hobserved]
    rw [hs]
    cases t.observed with
    | some r => simp [Session.detach, Session.evict, Session.adjustDepth, Session.setDepth]
    | none =>
      by_cases hin : ctx.frame.id ∈ t.session.targetFrames <;>
        simp [hin, Session.evict, Session.adjustDepth, Session.setDepth]

namespace Recalls
variable {t t' : Tracer} {log : List Memo} {w : Surroundings} {ctx : Context}

/-- An event that is shown. -/
theorem render (h : t.Recalls log) (total : t.renderer.IsTotal) (proper : ctx.frame.locals.IsProper)
    (w : Surroundings) (expanded : Bool) :
    (t.render w ctx expanded).1.Recalls
      (log ++ .shown ctx.frame.id (t.texts ctx) (t.changes ctx) ::
        if t.drops ctx then [.dropped ctx.frame.id] else []) := by
  have hn := nodup_localReprs proper (texts_eq (mishap?_of_isTotal total ctx))
  have hr := snapshots_render total w ctx expanded
  cases hd : t.drops ctx with
  | false =>
    rw [hd] at hr
    exact h.shown hn hr
  | true =>
    rw [hd] at hr
    -- between the two memos stands a tracer that has noted the variables and has not yet dropped them
    have hmid : Recalls { t with session := (t.session.diff ctx.frame.id (t.texts ctx)).2 }
        (log ++ [.shown ctx.frame.id (t.texts ctx) (t.changes ctx)]) := h.shown hn rfl
    have hend : (t.render w ctx expanded).1.Recalls
        (log ++ [.shown ctx.frame.id (t.texts ctx) (t.changes ctx)] ++ [.dropped ctx.frame.id]) :=
      hmid.dropped hr
    simpa using hend

theorem onEvent (h : t.Recalls log) (total : t.renderer.IsTotal)
    (proper : ctx.frame.locals.IsProper) (w : Surroundings) :
    (t.onEvent ctx w).2.1.Recalls (log ++ t.memos w ctx) := by
  unfold Tracer.onEvent memos
  cases hd : ctx.event.isDiscard with
  | true =>
    have hdrop : (t.dropFrame ctx.frame.id).session.snapshots =
        t.session.snapshots.erase ctx.frame.id := by
      rcases t.dropFrame_cases ctx.frame.id with ⟨hdrop, -⟩ | ⟨g, hdrop, -⟩ <;>
      · rw [hdrop]
        rfl
    exact h.dropped hdrop
  | false =>
    simp only [Bool.false_eq_true, if_false]
    cases hl : t.leaves w ctx with
    | true =>
      rw [decide_of_leaves hl]
      exact h.dropped rfl
    | false =>
      have hsame := snapshots_decide hl
      obtain ⟨s, hs⟩ := t.decide_session w ctx
      have htotal : (t.decide w ctx).2.renderer.IsTotal := by
        rw [hs]
        exact total
      have hdec := h.congr hsame
      cases hv : t.decide w ctx with
      | mk v t' =>
        rw [hv] at htotal hdec
        cases v with
        | skip | ignore => simpa using hdec
        | overflow =>
          have hfault : (t'.fault (.handling ctx.event.name overflowText)).Recalls log := hdec.congr rfl
          simpa using hfault
        | show_ expanded =>
          have hshow := hdec.render htotal proper w expanded
          have hcalm : (t'.render w ctx expanded).2.2 = none := by
            rw [render_told (mishap?_of_isTotal htotal ctx)]
          have hr : t'.render w ctx expanded =
              ((t'.render w ctx expanded).1, (t'.render w ctx expanded).2.1, none) := by
            rw [← hcalm]
          dsimp only
          rw [hr]
          exact hshow

theorem aside (h : t.Recalls log) (w : Surroundings) (a : Aside) :
    (Tracer.aside (t, w) a).1.Recalls (log ++ t.memosAside a) := by
  cases a with
  | target code =>
    have hs : (t.targetCode code).session.snapshots = t.session.snapshots := by
      unfold Tracer.targetCode
      split <;> rfl
    simpa [Tracer.aside, memosAside] using h.congr hs
  | enter frame =>
    have hs : (t.enter w frame).session.snapshots = t.session.snapshots := by
      unfold Tracer.enter
      split <;> rfl
    simpa [Tracer.aside, memosAside] using h.congr hs
  | exit thread frame =>
    unfold Tracer.aside Tracer.exit memosAside
    cases ho : t.observed with
    | some r => simpa using h
    | none =>
      simp only [Option.isSome_none, Bool.false_eq_true, if_false]
      split
      · rw [write_eq]
        exact h.dropped rfl
      · exact h.dropped rfl
  | wait time => simpa [Tracer.aside, memosAside] using h

end Recalls

end Tracer
/-- What happens around a tracer: an operation of one of the machines that it hears, or something aside. -/
inductive Happening (ι : Type) where
  | host (k : ι) (op : Op FrameId)
  | aside (a : Aside)

namespace Happening
variable {ι : Type} [DecidableEq ι]

def step (x : Fleet ι × Tracer × Surroundings) : Happening ι → Fleet ι × Tracer × Surroundings
  | .host k op => Fleet.step Tracer.deliver x (k, op)
  | .aside a => (x.1, Tracer.aside x.2 a)

def run (x : Fleet ι × Tracer × Surroundings) (hs : List (Happening ι)) :
    Fleet ι × Tracer × Surroundings :=
  hs.foldl step x

def memos (x : Fleet ι × Tracer × Surroundings) : Happening ι → List Memo
  | .host k op => ((x.1 k).heardBy? op).toList.flatMap fun heard => x.2.1.memos x.2.2 heard.2
  | .aside a => x.2.1.memosAside a

def log : Fleet ι × Tracer × Surroundings → List (Happening ι) → List Memo
  | _, [] => []
  | x, h :: hs => h.memos x ++ log (h.step x) hs

/-- The machines are well made, every value has a text, and the tracer recalls the log. -/
structure Told (x : Fleet ι × Tracer × Surroundings) (log : List Memo) : Prop where
  wellMade : ∀ k, (x.1 k).WellMade fun _ => True
  total : x.2.1.renderer.IsTotal
  recalls : x.2.1.Recalls log

namespace Told
variable {x : Fleet ι × Tracer × Surroundings} {past : List Memo}

theorem step (h : Told x past) (a : Happening ι) : Told (a.step x) (past ++ a.memos x) := by
  cases a with
  | host k op =>
    have hstate : (Happening.step x (.host k op)).2 =
        Machine.informed Tracer.deliver x.2 ((x.1 k).heardBy? op).toList :=
      Machine.state_step Tracer.deliver (x.1 k) x.2 op
    have hmade : ∀ j, ((Happening.step x (.host k op)).1 j).WellMade fun _ => True := by
      intro j
      by_cases hj : j = k
      · subst hj
        rw [Happening.step, Fleet.step_self]
        exact (h.wellMade j).step Tracer.deliver x.2 fun _ _ => trivial
      · rw [Happening.step, Fleet.step_of_ne x hj]
        exact h.wellMade j
    cases hh : (x.1 k).heardBy? op with
    | none =>
      rw [hh] at hstate
      have hsame : (Happening.step x (.host k op)).2 = x.2 := hstate
      refine ⟨hmade, hsame ▸ h.total, ?_⟩
      rw [hsame, memos, hh]
      simpa using h.recalls
    | some heard =>
      obtain ⟨hook, ctx⟩ := heard
      rw [hh] at hstate
      have hheard : (Happening.step x (.host k op)).2 = (x.2.1.onEvent ctx x.2.2).2 := hstate
      obtain ⟨id, ho, -⟩ := (h.wellMade k).owns_heardBy (fun _ _ => trivial) hh
      refine ⟨hmade, ?_, ?_⟩
      · rw [hheard, (Tracer.onEvent_mishaps x.2.1 ctx x.2.2).2.2.1]
        exact h.total
      · rw [hheard, memos, hh]
        simpa using h.recalls.onEvent h.total ho.locals x.2.2
  | aside a =>
    have hr : (Tracer.aside x.2 a).1.renderer = x.2.1.renderer := Tracer.renderer_aside x.2 a
    exact ⟨h.wellMade, hr ▸ h.total, h.recalls.aside x.2.2 a⟩

theorem run (h : Told x past) (as : List (Happening ι)) :
    Told (Happening.run x as) (past ++ log x as) := by
  induction as generalizing x past with
  | nil => simpa [Happening.run, log] using h
  | cons a as ih =>
    have hrest := ih (h.step a)
    rw [List.append_assoc] at hrest
    exact hrest

end Told

omit [DecidableEq ι] in
theorem told_new {ms : Fleet ι} (fresh : ∀ k, (ms k).IsNew) {custom : List CustomFormat}
    (formats : ∀ f ∈ custom, ∀ v, ∃ text, f.format v = .ok text) {t : Tracer} (new : t.IsNew custom)
    (w : Surroundings) : Told (ms, t, w) [] := by
  refine ⟨fun k => (fresh k).wellMade _, new.isTotal formats, ?_, ?_⟩
  · intro id
    rw [new.session]
    rfl
  · intro id label text h
    cases h

/-- Variables have distinct labels, whatever the locals, the globals, the watches and the renderer. And
whatever happens on new machines around a new tracer: an event that is shown then tells, by its lines and
to the graph, what differs between its variables and those that its frame showed last, if they have not
been dropped since; and a reader who has noted down all that the frame has shown knows them. -/
theorem deltas_tell_every_variable {ms : Fleet ι} (fresh : ∀ k, (ms k).IsNew) {c : TracerConfig}
    {disk : Disk} {codes : List CodeId} {custom : List CustomFormat}
    (formats : ∀ f ∈ custom, ∀ v, ∃ text, f.format v = .ok text) {sources : SourceCache} {sink : Sink}
    {t : Tracer} (setup : Tracer.outfit c disk codes custom sources sink = .ok t) (w : Surroundings)
    (past : List (Happening ι)) :
    (∀ (u : Tracer) (ctx : Context) (vars : List (String × String)), ctx.frame.locals.IsProper →
        u.localReprs ctx = .ok vars → (Bindings.names vars).Nodup) ∧
      ∀ (k : ι) (op : Op FrameId) (hook : HookName) (ctx : Context) (expanded : Bool) (u : Tracer),
        let now := run (ms, t, w) past
        (now.1 k).heardBy? op = some (hook, ctx) → ctx.event.isDiscard = false →
        now.2.1.decide now.2.2 ctx = (.show_ expanded, u) →
        ∃ (vars : List (String × String)) (x : Showing), u.localReprs ctx = .ok vars ∧
          (Bindings.names vars).Nodup ∧ u.Displays now.2.2 ctx expanded x ∧
          x.diff.IsExact (Memo.lastShown (log (ms, t, w) past) ctx.frame.id) vars ∧
          ∀ label text, Bindings.get? label vars = some text →
            Bindings.get? label (x.diff.read (Memo.known (log (ms, t, w) past) ctx.frame.id)) =
              some text := by
  refine ⟨fun u ctx vars proper shown => Tracer.nodup_localReprs proper shown, ?_⟩
  intro k op hook ctx expanded u now heard live shown
  have htold : Told now (log (ms, t, w) past) :=
    (told_new fresh formats (Tracer.isNew_of_outfit setup) w).run past
  obtain ⟨id, ho, -⟩ := (htold.wellMade k).owns_heardBy (fun _ _ => trivial) heard
  obtain ⟨s, hs⟩ := now.2.1.decide_session now.2.2 ctx
  rw [shown] at hs
  dsimp only at hs
  have htotal : u.renderer.IsTotal := by
    rw [hs]
    exact htold.total
  -- what leaves the region is not shown, so the snapshots are those from before the verdict
  have hstays : now.2.1.leaves now.2.2 ctx = false := by
    apply eq_false_of_ne_true
    intro hl
    rw [Tracer.decide_of_leaves hl] at shown
    cases shown
  have hsame := Tracer.snapshots_decide hstays
  rw [shown] at hsame
  dsimp only at hsame
  have hrec : u.Recalls (log (ms, t, w) past) := htold.recalls.congr hsame
  have hvars := Tracer.texts_eq (Tracer.mishap?_of_isTotal htotal ctx)
  have hn := Tracer.nodup_localReprs ho.locals hvars
  have hdiff : (u.showing now.2.2 ctx expanded).diff =
      .between (Memo.lastShown (log (ms, t, w) past) ctx.frame.id) (u.texts ctx) := by
    rw [← hrec.last]
    rfl
  refine ⟨u.texts ctx, u.showing now.2.2 ctx expanded, hvars, hn,
    Tracer.displays_showing htotal now.2.2 ctx expanded, ?_, ?_⟩
  · rw [hdiff]
    exact VarDiff.isExact_between _ _
  · intro label text h
    rw [hdiff]
    exact VarDiff.get?_read_between hn (hrec.known ctx.frame.id) h

def quietChange : List (Happening Unit) :=
  [.host () (.call ⟨"f", ⟨"/p.py"⟩, 1⟩ [("x", .int 1)]), .host () (.line ⟨0, 0⟩ 2),
    .host () (.setLocal ⟨0, 0⟩ "x" (.int 2)), .host () (.line ⟨0, 0⟩ 2), .aside (.wait 5)]

def onceTracer : Tracer :=
  { config := { loopLimit := some 1, watch := ["x"] }
    session := { targetCodes := [⟨"/p.py", "f", 1⟩] }
    renderer := { maxLength := some 100 }
    watches := [.path "x"]
    sink := .lines [] }

theorem deltas_tell_every_variable_after_quiet_change :
    let now := run (fun _ => { hook := some "trace" }, onceTracer, {}) quietChange
    ∃ (ctx : Context) (u : Tracer) (vars : List (String × String)) (x : Showing),
      (now.1 ()).heardBy? (.line ⟨0, 0⟩ 3) = some ("trace", ctx) ∧
      now.2.1.decide now.2.2 ctx = (.show_ false, u) ∧ u.localReprs ctx = .ok vars ∧
      u.Displays now.2.2 ctx false x ∧ x.diff.IsExact [("x", "1")] vars ∧
      Bindings.get? "x" (x.diff.read [("x", "1")]) = some "2" := by
  intro now
  have setup : Tracer.outfit { loopLimit := some 1, watch := ["x"] } {} [⟨"/p.py", "f", 1⟩] [] {}
      (.lines []) = .ok onceTracer := rfl
  have fresh : ∀ k, (fun _ : Unit => ({ hook := some "trace" } : Machine)) k |>.IsNew :=
    fun _ => ⟨⟨rfl, rfl, rfl, rfl⟩, rfl, rfl⟩
  obtain ⟨-, tells⟩ := deltas_tell_every_variable fresh (by simp) setup {} quietChange
  have hshown : ((now.1 ()).heardBy? (.line ⟨0, 0⟩ 3)).any (fun heard =>
      heard.1 = "trace" ∧ heard.2.frame.id = ⟨0, 0⟩ ∧ heard.2.event.isDiscard = false ∧
        (now.2.1.decide now.2.2 heard.2).1 = .show_ false ∧
        Bindings.get? "x" ((now.2.1.decide now.2.2 heard.2).2.texts heard.2) = some "2") = true := by
    decide +kernel
  obtain ⟨⟨hook, ctx⟩, heard, hfacts⟩ := (Option.any_eq_true _ _).mp hshown
  obtain ⟨rfl, hid, live, hshow, htext⟩ := of_decide_eq_true hfacts
  have hdecide : now.2.1.decide now.2.2 ctx = (.show_ false, (now.2.1.decide now.2.2 ctx).2) := by
    rw [← hshow]
  obtain ⟨vars, x, hvars, -, hdisplay, hexact, hknown⟩ :=
    tells () (.line ⟨0, 0⟩ 3) "trace" ctx false _ heard live hdecide
  have hlast : Memo.lastShown (log (fun _ => { hook := some "trace" }, onceTracer, {}) quietChange)
      ⟨0, 0⟩ = [("x", "1")] := by decide +kernel
  have hread : Memo.known (log (fun _ => { hook := some "trace" }, onceTracer, {}) quietChange)
      ⟨0, 0⟩ = [("x", "1")] := by decide +kernel
  rw [hid, hlast] at hexact
  rw [hid, hread] at hknown
  unfold Tracer.texts at htext
  rw [hvars] at htext
  exact ⟨ctx, _, vars, x, heard, hdecide, hvars, hdisplay, hexact, hknown "x" "2" htext⟩

end Happening
end SelectiveTrace
