import SelectiveTrace.Proofs.Host.Bookkeeping

/-! What is true of every frame of a machine, whatever is done on it: it is filed under its own handle,
it runs on the thread of the machine, its file is that of some code, and no name stands twice among its
locals. -/
namespace SelectiveTrace

def Bindings.names {α : Type} (bs : List (String × α)) : List String :=
  bs.map Prod.fst

namespace Bindings
variable {α : Type}

theorem names_set (name : String) (a : α) (bs : List (String × α)) :
    names (set name a bs) = if name ∈ names bs then names bs else names bs ++ [name] := by
  induction bs with
  | nil => simp [names, set]
  | cons b bs ih =>
    unfold names at ih ⊢
    by_cases hb : b.1 = name
    · simp [set, hb]
    · have hne : name ≠ b.1 := fun he => hb he.symm
      by_cases hm : name ∈ bs.map Prod.fst <;> simp_all [set]

theorem nodup_set {bs : List (String × α)} (h : (names bs).Nodup) (name : String) (a : α) :
    (names (set name a bs)).Nodup := by
  rw [names_set]
  by_cases hm : name ∈ names bs
  · simpa [hm] using h
  · rw [if_neg hm]
    refine List.nodup_append.mpr ⟨h, by simp, ?_⟩
    intro x hx y hy he
    rw [List.mem_singleton] at hy
    exact hm (hy ▸ he ▸ hx)

/-- Bindings one after the other. -/
theorem nodup_foldl_set {bs : List (String × α)} (h : (names bs).Nodup) (more : List (String × α)) :
    (names (more.foldl (fun bs b => set b.1 b.2 bs) bs)).Nodup := by
  induction more generalizing bs with
  | nil => exact h
  | cons b more ih => exact ih (nodup_set h b.1 b.2)

end Bindings

namespace Namespace

def IsProper (ns : Namespace) : Prop :=
  (Bindings.names ns.bindings).Nodup

instance (ns : Namespace) : Decidable ns.IsProper :=
  inferInstanceAs (Decidable (Bindings.names ns.bindings).Nodup)

theorem isProper_empty : IsProper {} :=
  List.nodup_nil

theorem IsProper.set {ns : Namespace} (h : ns.IsProper) (name : String) (value : Value) :
    (ns.set name value).IsProper :=
  Bindings.nodup_set h name value

theorem isProper_ofList (bindings : List (String × Value)) : (ofList bindings).IsProper := by
  have hset : ∀ ns : Namespace, ns.IsProper →
      (bindings.foldl (fun ns b => ns.set b.1 b.2) ns).IsProper := by
    induction bindings with
    | nil => exact fun _ h => h
    | cons b bs ih => exact fun ns h => ih _ (h.set b.1 b.2)
  exact hset {} isProper_empty

end Namespace

def Op.code? : Op FrameId → Option Code
  | .enterModule code | .call code _ => some code
  | _ => none

namespace Machine

/-- The frame is the machine's own, under its own handle, and runs code of one of the files. -/
structure Owns (m : Machine) (files : Path → Prop) (id : FrameId) (f : Frame) : Prop where
  known : f.id = id
  machine : id.machine = m.id
  thread : f.thread = m.thread
  file : files f.file
  locals : f.locals.IsProper

structure WellMade (m : Machine) (files : Path → Prop) : Prop where
  frames : ∀ id f, m.frames.get? id = some f → m.Owns files id f
  globals : ∀ file ns, m.globals.get? file = some ns → ns.IsProper

theorem IsNew.wellMade {m : Machine} (h : m.IsNew) (files : Path → Prop) : m.WellMade files := by
  refine ⟨?_, ?_⟩
  · intro id f hf
    rw [h.frames] at hf
    cases hf
  · intro file ns hn
    rw [h.globals] at hn
    cases hn

namespace WellMade
variable {m m' : Machine} {files : Path → Prop}

theorem globalsOf (h : m.WellMade files) (file : Path) : (m.globalsOf file).IsProper := by
  unfold Machine.globalsOf globalsOf?
  cases hg : m.globals.get? file.components with
  | none => exact Namespace.isProper_empty
  | some ns => exact h.globals _ ns hg

/-- No new frames and no new globals. -/
theorem of_fewer (h : m.WellMade files) (id : m'.id = m.id) (thread : m'.thread = m.thread)
    (frames : ∀ j f, m'.frames.get? j = some f → m.frames.get? j = some f)
    (globals : m'.globals = m.globals) : m'.WellMade files := by
  refine ⟨?_, ?_⟩
  · intro j f hf
    have ho := h.frames j f (frames j f hf)
    exact ⟨ho.known, id ▸ ho.machine, thread ▸ ho.thread, ho.file, ho.locals⟩
  · rw [globals]
    exact h.globals

theorem modifyFrame (h : m.WellMade files) (id : FrameId) (g : Frame → Frame)
    (kept : ∀ f, m.Owns files id f → m.Owns files id (g f)) : (m.modifyFrame id g).WellMade files := by
  have heq := modifyFrame_eq m id g
  refine ⟨?_, ?_⟩
  · intro j f hf
    have ho : m.Owns files j f := by
      rw [get?_modifyFrame] at hf
      by_cases hj : j = id
      · subst hj
        rw [if_pos rfl] at hf
        obtain ⟨f₀, hf₀, rfl⟩ := Option.map_eq_some_iff.mp hf
        exact kept f₀ (h.frames j f₀ hf₀)
      · rw [if_neg hj] at hf
        exact h.frames j f hf
    exact ⟨ho.known, by simpa using ho.machine, by simpa using ho.thread, ho.file, ho.locals⟩
  · rw [heq]
    exact h.globals

theorem bindGlobal (h : m.WellMade files) (file : Path) (name : String) (value : Value) :
    (m.bindGlobal file name value).WellMade files := by
  refine ⟨fun id f hf => ?_, ?_⟩
  · have ho := h.frames id f hf
    exact ⟨ho.known, ho.machine, ho.thread, ho.file, ho.locals⟩
  · intro file' ns hn
    by_cases hf : file' = file.components
    · subst hf
      have hset : (m.globalsOf file).set name value = ns := by
        simpa [Machine.bindGlobal] using hn
      exact hset ▸ (h.globalsOf file).set name value
    · rw [Machine.bindGlobal, Table.get?_insert_of_ne _ _ hf] at hn
      exact h.globals file' ns hn

theorem bindLocal (h : m.WellMade files) (id : FrameId) (name : String) (value : Value) :
    (m.bindLocal id name value).WellMade files :=
  h.modifyFrame id _ fun _ ho => ⟨ho.known, ho.machine, ho.thread, ho.file, ho.locals.set name value⟩

theorem setLocal (h : m.WellMade files) (id : FrameId) (name : String) (value : Value) :
    (m.setLocal id name value).WellMade files := by
  have hb := h.bindLocal id name value
  unfold Machine.setLocal
  cases m.frames.get? id with
  | none => exact h
  | some f =>
    dsimp only
    split
    · exact hb.bindGlobal f.file name value
    · exact hb

theorem setGlobal (h : m.WellMade files) (file : Path) (name : String) (value : Value) :
    (m.setGlobal file name value).WellMade files := by
  unfold Machine.setGlobal
  have hm := h.bindGlobal file name value
  generalize m.bindGlobal file name value = m' at hm
  generalize m.modulesOf file = ids
  induction ids generalizing m' with
  | nil => exact hm
  | cons id ids ih => exact ih _ (hm.bindLocal id name value)

theorem pushFrame (h : m.WellMade files) {code : Code} (hc : files code.file) {locals : Namespace}
    (hl : locals.IsProper) : (m.pushFrame code locals).WellMade files := by
  refine ⟨?_, h.globals⟩
  intro id f hf
  rw [get?_pushFrame] at hf
  by_cases hid : id = m.nextId
  · subst hid
    rw [if_pos rfl] at hf
    cases hf
    exact ⟨rfl, rfl, rfl, hc, hl⟩
  · rw [if_neg hid] at hf
    have ho := h.frames id f hf
    exact ⟨ho.known, ho.machine, ho.thread, ho.file, ho.locals⟩

theorem pushModule (h : m.WellMade files) {code : Code} (hc : files code.file) :
    (m.pushModule code).WellMade files := by
  have hg := h.globalsOf code.file
  have hp := h.pushFrame hc hg
  refine ⟨fun id f hf => ?_, ?_⟩
  · have ho := hp.frames id f hf
    exact ⟨ho.known, ho.machine, ho.thread, ho.file, ho.locals⟩
  · intro file ns hn
    by_cases hf : file = code.file.components
    · subst hf
      have hset : m.globalsOf code.file = ns := by simpa [Machine.pushModule] using hn
      exact hset ▸ hg
    · rw [Machine.pushModule, Table.get?_insert_of_ne _ _ hf] at hn
      exact h.globals file ns hn

theorem forget (h : m.WellMade files) (id : FrameId) : (m.forget id).WellMade files := by
  have hfewer : ∀ j f, (m.forget id).frames.get? j = some f → m.frames.get? j = some f := by
    intro j f hf
    rw [Machine.forget, Table.get?_erase] at hf
    by_cases hj : j = id
    · simp [hj] at hf
    · simpa [hj] using hf
  exact h.of_fewer rfl rfl hfewer rfl

theorem wake (h : m.WellMade files) (id : FrameId) : (m.wake id).WellMade files := by
  have hw : Machine.WellMade { m with suspended := without m.suspended id } files :=
    h.of_fewer rfl rfl (fun _ _ hf => hf) rfl
  have hm := hw.modifyFrame id (fun f => { f with back := m.current, lastOpcode := none })
    fun _ ho => ⟨ho.known, ho.machine, ho.thread, ho.file, ho.locals⟩
  exact hm.of_fewer rfl rfl (fun _ _ hf => hf) rfl

theorem before (h : m.WellMade files) {op : Op FrameId}
    (starts : ∀ code, op.code? = some code → files code.file) : (op.before m).WellMade files := by
  cases op with
  | enterModule code => exact h.pushModule (starts code rfl)
  | call code args => exact h.pushFrame (starts code rfl) (Namespace.isProper_ofList args)
  | line id n =>
    exact h.modifyFrame id _ fun _ ho => ⟨ho.known, ho.machine, ho.thread, ho.file, ho.locals⟩
  | setLocal id name value => exact h.setLocal id name value
  | setGlobal file name value => exact h.setGlobal file name value
  | ret id value | unwind id | yieldValue id value =>
    exact h.modifyFrame id _ fun _ ho => ⟨ho.known, ho.machine, ho.thread, ho.file, ho.locals⟩
  | raise id e => exact h
  | resume id => exact h.wake id
  | discard id | traceFrame id | setTrace hook | pushTrace hook | popTrace =>
    exact h.of_fewer rfl rfl (fun _ _ hf => hf) rfl

theorem after (h : m.WellMade files) (op : Op FrameId) : (op.after m).WellMade files := by
  cases op with
  | ret id value | unwind id | raise id e =>
    have hp : Machine.WellMade
        { m with stack := leave m.stack id, suspended := without m.suspended id } files :=
      h.of_fewer rfl rfl (fun _ _ hf => hf) rfl
    exact hp.forget id
  | yieldValue id value => exact h.of_fewer rfl rfl (fun _ _ hf => hf) rfl
  | discard id => exact h.forget id
  | _ => exact h

variable {σ : Type}

theorem dispatch (h : m.WellMade files) (deliver : Deliver σ) (s : σ) (id : FrameId) (e : Event) :
    (m.dispatch deliver s id e).machine.WellMade files := by
  obtain ⟨a, ha⟩ := dispatch_machine deliver m s id e
  rw [ha, heed_eq]
  exact h.of_fewer rfl rfl (fun _ _ hf => hf) rfl

/-- One operation. -/
theorem step (h : m.WellMade files) (deliver : Deliver σ) (s : σ) {op : Op FrameId}
    (starts : ∀ code, op.code? = some code → files code.file) :
    (m.step deliver s op).machine.WellMade files := by
  unfold Machine.step
  split
  · exact h
  · cases op.event? m with
    | none => exact h.before starts
    | some ev =>
      have hd := (h.before starts).dispatch deliver s ev.1 ev.2
      dsimp only
      split
      · exact hd
      · exact hd.after op

end WellMade

theorem id_before (m : Machine) (op : Op FrameId) : (op.before m).id = m.id := by
  cases op with
  | setLocal id name value => rw [Op.before, setLocal_eq]
  | setGlobal file name value => rw [Op.before, setGlobal_eq]
  | line id n => exact id_modifyFrame m id _
  | ret id value | unwind id | yieldValue id value => exact id_modifyFrame m id _
  | resume id => exact id_modifyFrame { m with suspended := without m.suspended id } id _
  | _ => rfl

theorem id_after (m : Machine) (op : Op FrameId) : (op.after m).id = m.id := by
  cases op <;> rfl

theorem id_step {σ : Type} (deliver : Deliver σ) (m : Machine) (s : σ) (op : Op FrameId) :
    (m.step deliver s op).machine.id = m.id := by
  unfold step
  split
  · rfl
  · cases op.event? m with
    | none => exact id_before m op
    | some ev =>
      obtain ⟨a, ha⟩ := dispatch_machine deliver (op.before m) s ev.1 ev.2
      dsimp only
      split
      · rw [ha, heed_eq]
        exact id_before m op
      · rw [id_after, ha, heed_eq]
        exact id_before m op

/-- What an event does to the machine is told by the answer of the hook that hears it. -/
theorem machine_dispatch {σ : Type} (deliver : Deliver σ) (m : Machine) (s : σ) (id : FrameId)
    (e : Event) :
    (m.dispatch deliver s id e).machine =
      ((m.heardOf? id e).elim m fun heard => m.heed id e (deliver heard.1 heard.2 s).1) := by
  unfold dispatch heardOf?
  cases hk : m.hook with
  | none => rfl
  | some hook =>
    cases m.frames.get? id with
    | none => rfl
    | some f =>
      simp only [not_hears]
      cases m.hears id e with
      | false => simp
      | true =>
        cases ha : deliver hook (m.context f e) s with
        | mk a s' =>
          cases a with
          | proceed => cases hc : e.isCall <;> simp [ha, heed, hc, hk]
          | skipFrame => simp [ha, heed, hk]
          | panicked text => simp [ha, heed]

section
variable {σ : Type} {deliver : Deliver σ} {m : Machine} {op : Op FrameId}

/-- An operation that no hook breaks off is carried to its end. -/
theorem machine_step {s : σ} (calm : (m.step deliver s op).panic = none) :
    (m.step deliver s op).machine =
      if op.applies m then
        (op.event? m).elim (op.before m) fun ev =>
          op.after ((op.before m).dispatch deliver s ev.1 ev.2).machine
      else m := by
  unfold step at calm ⊢
  cases hap : op.applies m with
  | false => rfl
  | true =>
    rw [hap] at calm
    cases hev : op.event? m with
    | none => rfl
    | some ev =>
      rw [hev] at calm
      simp only [Bool.not_true, Bool.false_eq_true, if_false] at calm ⊢
      split at calm
      next hs =>
        rw [calm] at hs
        cases hs
      next hs =>
        rw [if_neg hs]
        rfl

/-- Hooks that answer alike what they hear of an operation drive the machine alike. -/
theorem machine_step_congr (calm : ∀ hook ctx s text, (deliver hook ctx s).1 ≠ .panicked text)
    {s s' : σ} (agree : ∀ hook ctx, m.heardBy? op = some (hook, ctx) →
      (deliver hook ctx s').1 = (deliver hook ctx s).1) :
    (m.step deliver s' op).machine = (m.step deliver s op).machine := by
  rw [machine_step (panic_step calm m s' op), machine_step (panic_step calm m s op)]
  unfold heardBy? at agree
  cases hap : op.applies m with
  | false => rfl
  | true =>
    rw [hap] at agree
    cases hev : op.event? m with
    | none => rfl
    | some ev =>
      rw [hev] at agree
      have hd : ((op.before m).dispatch deliver s' ev.1 ev.2).machine =
          ((op.before m).dispatch deliver s ev.1 ev.2).machine := by
        rw [machine_dispatch, machine_dispatch]
        cases hh : (op.before m).heardOf? ev.1 ev.2 with
        | none => rfl
        | some heard =>
          have ha := agree heard.1 heard.2 hh
          simp only [Option.elim_some, ha]
      simp only [if_true, Option.elim_some, hd]

theorem hears_of_heardOf {id : FrameId} {e : Event} {x : HookName × Context}
    (h : m.heardOf? id e = some x) : m.hears id e = true := by
  unfold heardOf? at h
  obtain ⟨hook, -, h⟩ := Option.bind_eq_some_iff.mp h
  obtain ⟨f, -, h⟩ := Option.bind_eq_some_iff.mp h
  split at h
  next hears => exact hears
  next => cases h

theorem untraced_after {id : FrameId} (h : id ∈ (op.after m).untraced) : id ∈ m.untraced := by
  cases op with
  | ret f value | unwind f | raise f e | discard f => exact (mem_without.mp h).1
  | _ => exact h

/-- A frame that is given up after an operation was given up before, and nothing was heard of it, or
the answer to what was heard of it asks for that. -/
theorem mem_untraced_heardBy (calm : ∀ hook ctx s text, (deliver hook ctx s).1 ≠ .panicked text)
    {s : σ} {j : FrameId} (h : j ∈ (m.step deliver s op).machine.untraced) :
    (j ∈ m.untraced ∧ (m.heardBy? op = none ∨ ∀ e, op.event? m ≠ some (j, e))) ∨
      ∃ x e, m.heardBy? op = some x ∧ op.event? m = some (j, e) ∧
        (deliver x.1 x.2 s).1 = .skipFrame := by
  rw [machine_step (panic_step calm m s op)] at h
  unfold heardBy?
  cases ha : op.applies m with
  | false =>
    rw [ha] at h
    exact Or.inl ⟨h, Or.inl rfl⟩
  | true =>
    rw [ha, if_pos rfl] at h
    cases hev : op.event? m with
    | none =>
      rw [hev] at h
      exact Or.inl ⟨Op.untraced_before h, Or.inl rfl⟩
    | some ev =>
      rw [hev] at h
      have hd := untraced_after h
      rw [machine_dispatch] at hd
      rw [if_pos rfl, Option.bind_some]
      cases hx : (op.before m).heardOf? ev.1 ev.2 with
      | none =>
        rw [hx] at hd
        exact Or.inl ⟨Op.untraced_before hd, Or.inl rfl⟩
      | some x =>
        rw [hx, Option.elim_some] at hd
        by_cases hj : j = ev.1
        · subst hj
          exact Or.inr ⟨x, ev.2, rfl, rfl,
            (mem_untraced_of_heard (hears_of_heardOf hx) (calm x.1 x.2 s)).mp hd⟩
        · refine Or.inl ⟨Op.untraced_before ((mem_untraced_heed hj).mp hd), Or.inr ?_⟩
          rintro e he
          cases he
          exact hj rfl

end

namespace WellMade
variable {m : Machine} {files : Path → Prop}

/-- What a hook hears is about a frame of the machine. -/
theorem owns_heardBy (h : m.WellMade files) {op : Op FrameId}
    (starts : ∀ code, op.code? = some code → files code.file) {hook : HookName} {ctx : Context}
    (heard : m.heardBy? op = some (hook, ctx)) :
    ∃ id, (op.before m).Owns files id ctx.frame ∧ ctx.frames = (op.before m).frames := by
  obtain ⟨-, id, f, -, -, live, -, hctx⟩ := heardBy?_cases heard
  rw [hctx]
  exact ⟨id, (h.before starts).frames id f live, rfl⟩

end WellMade
end Machine
end SelectiveTrace
