import SelectiveTrace.Proofs.Host.Continuing
import SelectiveTrace.Proofs.Host.WellMade
import SelectiveTrace.Proofs.Tracer.Attention
import SelectiveTrace.Script.Hook

/-! A hook that runs inside of another one. The frames that were given up are marked on the machine, and
no mark tells which hook asked for it: a frame that the inner hook gives up stays silent when the outer
one is back. A run is set beside the one in which the inner hook goes on after every event. -/
namespace SelectiveTrace

namespace Machine
variable {σ : Type}

def patient (deliver : Deliver σ) (inner : HookName) : Deliver σ := fun hook ctx s =>
  if hook = inner then (.proceed, (deliver hook ctx s).2) else deliver hook ctx s

/-- What a hook other than `inner` hears of an operation. -/
def overheard? (m : Machine) (inner : HookName) (op : Op FrameId) : Option (HookName × Context) :=
  (m.heardBy? op).filter fun h => h.1 ≠ inner

def overheard (deliver : Deliver σ) (inner : HookName) :
    Machine → σ → List (Op FrameId) → List (Option (HookName × Context))
  | _, _, [] => []
  | m, s, op :: ops =>
    let r := m.step deliver s op
    m.overheard? inner op ::
      if r.panic.isSome then [] else overheard deliver inner r.machine r.state ops

def hearer (told : List (HookName × Context)) (id : FrameId) : Option HookName :=
  ((told.filter fun h => h.2.frame.id = id).getLast?).map (·.1)

/-- The event that an operation loses to a hook that is installed: nobody hears it, since the frame was
given up, and it was `inner` who heard of the frame last. -/
def lost? (m : Machine) (inner : HookName) (told : List (HookName × Context)) (op : Op FrameId) :
    Option (HookName × Context) :=
  if (m.heardBy? op).isSome then none
  else (m.attending.heardBy? op).filter fun h =>
    h.1 ≠ inner && hearer told h.2.frame.id = some inner

def lost (deliver : Deliver σ) (inner : HookName) :
    List (HookName × Context) → Machine → σ → List (Op FrameId) → List (HookName × Context)
  | _, _, _, [] => []
  | told, m, s, op :: ops =>
    let r := m.step deliver s op
    (m.lost? inner told op).toList ++
      if r.panic.isSome then []
      else lost deliver inner (told ++ (m.heardBy? op).toList) r.machine r.state ops

/-- The hook `inner` keeps to itself: it lets no failure out, and what it hears makes no difference to the
other hooks. Their states are `Alike` where they cannot be told apart by the others. -/
structure KeepsToItself (deliver : Deliver σ) (inner : HookName) (Alike : σ → σ → Prop) : Prop where
  calm : ∀ {s s'}, Alike s s' → ∀ ctx text, (deliver inner ctx s).1 ≠ .panicked text
  own : ∀ {s s'}, Alike s s' → ∀ ctx, Alike (deliver inner ctx s).2 s'
  own_right : ∀ {s s'}, Alike s s' → ∀ ctx, Alike s (deliver inner ctx s').2
  others : ∀ {s s'}, Alike s s' → ∀ {hook}, hook ≠ inner → ∀ ctx,
    (deliver hook ctx s').1 = (deliver hook ctx s).1 ∧
      Alike (deliver hook ctx s).2 (deliver hook ctx s').2

/-- Two machines that differ in the frames they have given up, and only in those of which `inner` heard
last: they are given up on the first alone. -/
structure Twins (inner : HookName) (told : List (HookName × Context)) (m m' : Machine) : Prop where
  same : m'.attending = m.attending
  marks : ∀ id, id ∈ m'.untraced ↔ id ∈ m.untraced ∧ hearer told id ≠ some inner

variable {deliver : Deliver σ} {inner : HookName} {told : List (HookName × Context)}
  {m m' : Machine} {s s' : σ} {op : Op FrameId}

theorem hearer_append (told : List (HookName × Context)) (h : HookName × Context) (id : FrameId) :
    hearer (told ++ [h]) id = if h.2.frame.id = id then some h.1 else hearer told id := by
  unfold hearer
  rw [List.filter_append]
  by_cases hid : h.2.frame.id = id
  · simp [hid]
  · simp [hid]

/-- A machine hears of an event what it would hear with no frame given up, unless it gave up the frame. -/
theorem heardOf?_eq_filter {id : FrameId} (known : ∀ f, m.frames.get? id = some f → f.id = id)
    (e : Event) :
    m.heardOf? id e = (m.attending.heardOf? id e).filter fun h =>
      m.hears h.2.frame.id h.2.event := by
  have hhook : m.attending.hook = m.hook := rfl
  have hframes : m.attending.frames = m.frames := rfl
  have hcontext : ∀ f, m.attending.context f e = m.context f e := fun _ => rfl
  unfold heardOf?
  rw [hhook, hframes, hears_attending]
  cases m.hook with
  | none => rfl
  | some hook =>
    cases hf : m.frames.get? id with
    | none => rfl
    | some f =>
      have hid : (m.context f e).frame.id = id := known f hf
      have he : (m.context f e).event = e := rfl
      simp only [Option.bind_eq_bind, Option.bind_some, if_true, hcontext, Option.filter_some, hid,
        he]

theorem heardBy?_eq_filter (issued : m.IsIssued) (op : Op FrameId) :
    m.heardBy? op = (m.attending.heardBy? op).filter fun h =>
      (op.before m).hears h.2.frame.id h.2.event := by
  have happlies : op.applies m.attending = op.applies m := by cases op <;> rfl
  have hissued := (continues_before m op).isIssued issued
  unfold heardBy?
  rw [happlies, event?_attending, ← attending_before]
  cases op.applies m with
  | false => rfl
  | true =>
    cases op.event? m with
    | none => rfl
    | some ev => exact heardOf?_eq_filter (fun f hf => (hissued ev.1 f hf).2) ev.2

namespace Twins

theorem isIssued (h : Twins inner told m m') (issued : m.IsIssued) : m'.IsIssued := by
  have hframes : m'.attending.frames = m.attending.frames := congrArg Machine.frames h.same
  have hid : m'.attending.id = m.attending.id := congrArg Machine.id h.same
  have hnext : m'.attending.next = m.attending.next := congrArg Machine.next h.same
  intro j f hf
  have hf' : m'.attending.frames.get? j = some f := hf
  rw [hframes] at hf'
  obtain ⟨hissued, hj⟩ := issued j f hf'
  refine ⟨?_, hj⟩
  have hsame : m'.attending.hasIssued j = m.attending.hasIssued j := by
    unfold hasIssued
    rw [hid, hnext]
  exact hsame.trans hissued

theorem before (h : Twins inner told m m') (op : Op FrameId) :
    Twins inner told (op.before m) (op.before m') := by
  refine ⟨by rw [attending_before, attending_before, h.same], fun id => ?_⟩
  rw [Op.mem_untraced_before, Op.mem_untraced_before, h.marks id]
  tauto

theorem after (h : Twins inner told m m') (op : Op FrameId) :
    Twins inner told (op.after m) (op.after m') := by
  refine ⟨by rw [attending_after, attending_after, h.same], fun id => ?_⟩
  have hmarks := h.marks id
  cases op with
  | ret f value | unwind f | raise f e | discard f =>
    simp only [Op.after, popFrame, forget, mem_without]
    tauto
  | _ => exact hmarks

/-- Both machines are told of an event; only the answer of `inner` sets them apart. -/
theorem heed (h : Twins inner told m m') {hook : HookName} {ctx : Context} {a a' : Answer}
    (heard : m.hears ctx.frame.id ctx.event = true) (heard' : m'.hears ctx.frame.id ctx.event = true)
    (calm : a.failure? = none) (calm' : a'.failure? = none)
    (answers : if hook = inner then a' = .proceed else a' = a) :
    Twins inner (told ++ [(hook, ctx)]) (m.heed ctx.frame.id ctx.event a)
      (m'.heed ctx.frame.id ctx.event a') := by
  have hcalm : ∀ {a : Answer}, a.failure? = none → ∀ text, a ≠ .panicked text := by
    rintro a ha text rfl
    cases ha
  refine ⟨by rw [attending_heed, attending_heed, h.same], fun id => ?_⟩
  rw [hearer_append]
  dsimp only
  by_cases hid : ctx.frame.id = id
  · subst hid
    rw [if_pos rfl, mem_untraced_of_heard heard (hcalm calm),
      mem_untraced_of_heard heard' (hcalm calm')]
    by_cases hhook : hook = inner
    · rw [if_pos hhook] at answers
      simp [answers, hhook]
    · rw [if_neg hhook] at answers
      simp [answers, hhook]
  · rw [if_neg hid, mem_untraced_heed (Ne.symm hid), mem_untraced_heed (Ne.symm hid)]
    exact h.marks id

/-- An operation of which neither machine hears. -/
theorem silent (h : Twins inner told m m') (op : Op FrameId) :
    Twins inner told (if op.applies m then op.after (op.before m) else m)
      (if op.applies m' then op.after (op.before m') else m') := by
  have happlies : op.applies m' = op.applies m := by
    have hsame : op.applies m'.attending = op.applies m.attending := by rw [h.same]
    cases op <;> exact hsame
  rw [happlies]
  split
  · exact (h.before op).after op
  · exact h

/-- What is heard on the first machine is heard on the second. -/
theorem hears (h : Twins inner told m m') {id : FrameId} {e : Event} (heard : m.hears id e = true) :
    m'.hears id e = true := by
  unfold Machine.hears at heard ⊢
  cases hcall : e.isCall with
  | true => rfl
  | false =>
    have hno : id ∉ m.untraced := by simpa [hcall] using heard
    have hno' : id ∉ m'.untraced := fun hmem => hno ((h.marks id).mp hmem).1
    simpa using hno'

/-- What is heard on the second machine alone is about a frame that was given up on the first, after
`inner` had heard of it last. -/
theorem silenced (h : Twins inner told m m') {id : FrameId} {e : Event}
    (unheard : m.hears id e = false) (heard : m'.hears id e = true) :
    e.isCall = false ∧ hearer told id = some inner := by
  unfold Machine.hears at unheard heard
  obtain ⟨hcall, hmem⟩ : e.isCall = false ∧ id ∈ m.untraced := by simpa using unheard
  have hno : id ∉ m'.untraced := by simpa [hcall] using heard
  refine ⟨hcall, ?_⟩
  by_contra hother
  exact hno ((h.marks id).mpr ⟨hmem, hother⟩)

end Twins

section step
variable {Alike : σ → σ → Prop}

theorem patient_of_ne (deliver : Deliver σ) {inner hook : HookName} (ne : hook ≠ inner)
    (ctx : Context) (s : σ) : patient deliver inner hook ctx s = deliver hook ctx s :=
  if_neg ne

theorem patient_self (deliver : Deliver σ) (inner : HookName) (ctx : Context) (s : σ) :
    patient deliver inner inner ctx s = (.proceed, (deliver inner ctx s).2) :=
  if_pos rfl

/-- An operation that both machines are told of. -/
theorem Twins.step_told (h : Twins inner told m m') (issued : m.IsIssued)
    (keeps : KeepsToItself deliver inner Alike) (alike : Alike s s') {x : HookName × Context}
    (heard : m.heardBy? op = some x) (heard' : m'.heardBy? op = some x) :
    let r := m.step deliver s op
    let r' := m'.step (patient deliver inner) s' op
    r'.panic = r.panic ∧ (r.panic = none → Alike r.state r'.state ∧
      Twins inner (told ++ [x]) r.machine r'.machine) := by
  intro r r'
  obtain ⟨hook, ctx⟩ := x
  have hr : r = _ := step_of_told issued heard
  have hr' : r' = _ := step_of_told (h.isIssued issued) heard'
  have hears : (op.before m).hears ctx.frame.id ctx.event = true := by
    rw [heardBy?_eq_filter issued] at heard
    exact (Option.filter_eq_some_iff.mp heard).2
  have hbefore := h.before op
  by_cases hhook : hook = inner
  · subst hhook
    have hcalm : (deliver hook ctx s).1.failure? = none := by
      cases ha : (deliver hook ctx s).1 with
      | panicked text => exact absurd ha (keeps.calm alike ctx text)
      | proceed | skipFrame => rfl
    rw [patient_self] at hr'
    dsimp only at hr hr'
    rw [hcalm] at hr
    refine ⟨?_, fun _ => ?_⟩
    · rw [show r' = _ from hr', show r = _ from hr]
      rfl
    · rw [show r' = _ from hr', show r = _ from hr]
      refine ⟨keeps.own (keeps.own_right alike ctx) ctx, ?_⟩
      exact (hbefore.heed hears (hbefore.hears hears) hcalm rfl (by simp)).after op
  · obtain ⟨hanswer, halike⟩ := keeps.others alike hhook ctx
    rw [patient_of_ne _ hhook] at hr'
    dsimp only at hr hr'
    rw [hanswer] at hr'
    refine ⟨?_, fun hcalm => ?_⟩
    · rw [show r' = _ from hr', show r = _ from hr]
    · rw [show r = _ from hr] at hcalm
      dsimp only at hcalm
      rw [show r' = _ from hr', show r = _ from hr, hcalm]
      refine ⟨halike, ?_⟩
      exact (hbefore.heed hears (hbefore.hears hears) hcalm hcalm (by simp [hhook])).after op

/-- One operation, by which no other hook loses an event. -/
theorem Twins.step (h : Twins inner told m m') (issued : m.IsIssued)
    (keeps : KeepsToItself deliver inner Alike) (alike : Alike s s')
    (kept : m.lost? inner told op = none) :
    let r := m.step deliver s op
    let r' := m'.step (patient deliver inner) s' op
    m'.overheard? inner op = m.overheard? inner op ∧ r'.panic = r.panic ∧
      (r.panic = none → Alike r.state r'.state ∧
        Twins inner (told ++ (m.heardBy? op).toList) r.machine r'.machine) := by
  intro r r'
  have hm := heardBy?_eq_filter issued op
  have hm' := heardBy?_eq_filter (h.isIssued issued) op
  rw [h.same] at hm'
  unfold overheard?
  cases hmeant : m.attending.heardBy? op with
  | none =>
    rw [hmeant] at hm hm'
    have hr : r = _ := step_of_silent hm
    have hr' : r' = _ := step_of_silent hm'
    rw [hr, hr', hm, hm']
    refine ⟨rfl, rfl, fun _ => ⟨alike, ?_⟩⟩
    rw [Option.filter_none, Option.toList_none, List.append_nil]
    exact h.silent op
  | some x =>
    rw [hmeant, Option.filter_some] at hm hm'
    have hbefore := h.before op
    cases hears : (op.before m).hears x.2.frame.id x.2.event with
    | true =>
      rw [hears, if_pos rfl] at hm
      rw [hbefore.hears hears, if_pos rfl] at hm'
      obtain ⟨hpanic, hnext⟩ := h.step_told issued keeps alike hm hm'
      rw [hm, hm', Option.toList_some]
      exact ⟨rfl, hpanic, hnext⟩
    | false =>
      rw [hears, if_neg (by simp)] at hm
      have hr : r = _ := step_of_silent hm
      cases hears' : (op.before m').hears x.2.frame.id x.2.event with
      | false =>
        rw [hears', if_neg (by simp)] at hm'
        have hr' : r' = _ := step_of_silent hm'
        rw [hr, hr', hm, hm']
        refine ⟨rfl, rfl, fun _ => ⟨alike, ?_⟩⟩
        rw [Option.toList_none, List.append_nil]
        exact h.silent op
      | true =>
        -- only the second machine is told, and since nothing is lost it tells `inner`
        rw [hears', if_pos rfl] at hm'
        obtain ⟨hcall, hlast⟩ := hbefore.silenced hears hears'
        have hx : x.1 = inner := by
          unfold lost? at kept
          rw [hm, hmeant] at kept
          simpa [hlast, Option.filter_some] using kept
        obtain ⟨hook, ctx⟩ := x
        subst hx
        have hr' : r' = _ := step_of_told (h.isIssued issued) hm'
        rw [patient_self] at hr'
        dsimp only at hr' hcall
        have hheed : (op.before m').heed ctx.frame.id ctx.event .proceed = op.before m' := by
          unfold Machine.heed
          rw [hcall]
          rfl
        have happlies := (get?_of_heardBy hm').1
        rw [hr, hr', hm, hm', hheed]
        refine ⟨by simp, rfl, fun _ => ⟨keeps.own_right alike ctx, ?_⟩⟩
        have hsilent := h.silent op
        rw [happlies, if_pos rfl] at hsilent
        rw [Option.toList_none, List.append_nil]
        exact hsilent

/-- An event that is lost is heard by the other hook on the second machine. -/
theorem Twins.overheard_of_lost (h : Twins inner told m m') (issued : m.IsIssued)
    {x : HookName × Context} (lost : m.lost? inner told op = some x) :
    m.overheard? inner op = none ∧ m'.overheard? inner op = some x := by
  unfold lost? at lost
  split at lost
  · cases lost
  next silent =>
    have hm : m.heardBy? op = none := by simpa using silent
    obtain ⟨hmeant, hx⟩ := Option.filter_eq_some_iff.mp lost
    obtain ⟨hother, hlast⟩ : x.1 ≠ inner ∧ hearer told x.2.frame.id = some inner := by
      simpa using hx
    have hno : x.2.frame.id ∉ (op.before m').untraced := by
      intro hmem
      exact ((h.before op).marks _).mp hmem |>.2 hlast
    have hears' : (op.before m').hears x.2.frame.id x.2.event = true := by
      simp [Machine.hears, hno]
    have hm' := heardBy?_eq_filter (h.isIssued issued) op
    rw [h.same, hmeant, Option.filter_some, hears', if_pos rfl] at hm'
    unfold overheard?
    rw [hm, hm']
    exact ⟨rfl, by simp [hother]⟩

/-- A whole run on both machines. -/
theorem Twins.run (h : Twins inner told m m') (issued : m.IsIssued)
    (keeps : KeepsToItself deliver inner Alike) (alike : Alike s s') (ops : List (Op FrameId)) :
    let r := m.run deliver s ops
    let r' := m'.run (patient deliver inner) s' ops
    (m'.overheard (patient deliver inner) inner s' ops = m.overheard deliver inner s ops ↔
      lost deliver inner told m s ops = []) ∧
    (lost deliver inner told m s ops = [] → r'.panic = r.panic ∧
      (r.panic = none → Twins inner (told ++ m.heard deliver s ops) r.machine r'.machine)) := by
  induction ops generalizing told m m' s s' with
  | nil => simpa [overheard, lost, heard, Machine.run] using h
  | cons op ops ih =>
    cases hlost : m.lost? inner told op with
    | some x =>
      obtain ⟨hm, hm'⟩ := h.overheard_of_lost issued hlost
      simp [overheard, lost, hm, hm', hlost]
    | none =>
      obtain ⟨hsame, hpanic, hnext⟩ := h.step issued keeps alike hlost
      have hissued := (continues_step deliver m s op).isIssued issued
      simp only [overheard, lost, heard, Machine.run, hlost, hsame, hpanic, Option.toList_none,
        List.nil_append]
      cases hcalm : (m.step deliver s op).panic with
      | some text => simp [hpanic, hcalm]
      | none =>
        obtain ⟨halike, htwins⟩ := hnext hcalm
        obtain ⟨hall, hend⟩ := ih htwins hissued halike
        rw [List.append_assoc] at hend
        simpa using ⟨hall, hend⟩

end step

end Machine

/-- The operations of a body that runs under a hook, which is taken away after it. -/
def Op.block (hook : HookName) (body : List (Op FrameId)) : List (Op FrameId) :=
  .pushTrace hook :: (body ++ [.popTrace])

/-- What an inner hook gives up is given up for all. A body runs under the hook `inner`, and the program
goes on under the hooks from before. Beside this stands the run in which `inner` goes on after every event.
The other hooks hear the same of every operation in both runs exactly if none of them loses an event: if no
event but a call comes to one of them while its frame is given up and `inner` was the last to hear of that
frame. As this holds for whatever part of the program comes later, the runs part at the first event that is
lost. If none is lost in the body, the frames that are given up after it are those of the other run and the
ones that `inner` gave up last. -/
theorem outer_hook_loses_what_inner_gave_up {σ : Type} {deliver : Deliver σ} {inner : HookName}
    {Alike : σ → σ → Prop} {m : Machine} {s s' : σ} (issued : m.IsIssued)
    (keeps : Machine.KeepsToItself deliver inner Alike) (alike : Alike s s')
    (body later : List (Op FrameId)) :
    let deliver' := Machine.patient deliver inner
    let block := Op.block inner body
    let r := m.run deliver s block
    let r' := m.run deliver' s' block
    (m.overheard deliver' inner s' (block ++ later) = m.overheard deliver inner s (block ++ later) ↔
      Machine.lost deliver inner [] m s (block ++ later) = []) ∧
    (Machine.lost deliver inner [] m s block = [] → r'.panic = r.panic ∧ (r.panic = none →
      r'.machine.attending = r.machine.attending ∧ ∀ id, id ∈ r.machine.untraced ↔
        id ∈ r'.machine.untraced ∨ id ∈ r.machine.untraced ∧
          Machine.hearer (m.heard deliver s block) id = some inner)) := by
  intro deliver' block r r'
  have hself : Machine.Twins inner [] m m := ⟨rfl, fun id => by simp [Machine.hearer]⟩
  refine ⟨(hself.run issued keeps alike (block ++ later)).1, fun kept => ?_⟩
  obtain ⟨hpanic, hend⟩ := (hself.run issued keeps alike block).2 kept
  refine ⟨hpanic, fun calm => ⟨(hend calm).same, fun id => ?_⟩⟩
  have hmarks := (hend calm).marks id
  rw [List.nil_append] at hmarks
  rw [hmarks]
  tauto

/-! Hooks that only look on keep to themselves. -/

def Hook.OnlyLooks : Hook → Prop
  | .probe _ => True
  | .recorder r => r.failing = []
  | .tracer _ | .history _ => False

instance : (h : Hook) → Decidable h.OnlyLooks
  | .probe _ => inferInstanceAs (Decidable True)
  | .recorder r => inferInstanceAs (Decidable (r.failing = []))
  | .tracer _ | .history _ => inferInstanceAs (Decidable False)

theorem Hook.OnlyLooks.onEvent {h : Hook} (looks : h.OnlyLooks) (ctx : Context) (w : Surroundings) :
    (∀ text, (h.onEvent ctx w).1 ≠ .panicked text) ∧ (h.onEvent ctx w).2.1.OnlyLooks ∧
      (h.onEvent ctx w).2.2 = w := by
  cases h with
  | tracer t | history t => exact looks.elim
  | probe p =>
    refine ⟨fun text => ?_, trivial, rfl⟩
    unfold Hook.onEvent Probe.onEvent
    dsimp only
    repeat' split
    all_goals simp
  | recorder r =>
    have hfailing : r.failing = [] := looks
    refine ⟨fun text => ?_, looks, rfl⟩
    simp only [Hook.onEvent, Recorder.onEvent, Recorder.answer, hfailing, List.contains_nil,
      Bool.false_eq_true, if_false]
    split <;> simp

namespace Audience

/-- Audiences that the hooks other than `inner` cannot tell apart; `inner` itself only looks on. -/
structure AlikeBut (inner : HookName) (a a' : Audience) : Prop where
  around : a'.around = a.around
  others : ∀ name, name ≠ inner → Bindings.get? name a'.hooks = Bindings.get? name a.hooks
  looks : ∀ h, Bindings.get? inner a.hooks = some h → h.OnlyLooks
  looks_right : ∀ h, Bindings.get? inner a'.hooks = some h → h.OnlyLooks

/-- An audience is left alike by what `inner` hears, where it only looks on. -/
theorem deliver_looks {inner : HookName} {a : Audience}
    (looks : ∀ h, Bindings.get? inner a.hooks = some h → h.OnlyLooks) (ctx : Context) :
    let r := Audience.deliver inner ctx a
    (∀ text, r.1 ≠ .panicked text) ∧ r.2.around = a.around ∧
      (∀ name, name ≠ inner → Bindings.get? name r.2.hooks = Bindings.get? name a.hooks) ∧
      ∀ h, Bindings.get? inner r.2.hooks = some h → h.OnlyLooks := by
  intro r
  have hr : r = Audience.deliver inner ctx a := rfl
  unfold Audience.deliver at hr
  cases hget : Bindings.get? inner a.hooks with
  | none =>
    rw [hget] at hr
    rw [hr]
    exact ⟨by simp, rfl, fun _ _ => rfl, looks⟩
  | some h =>
    obtain ⟨hcalm, hlooks, haround⟩ := (looks h hget).onEvent ctx a.around
    rw [hget] at hr
    rw [hr]
    refine ⟨hcalm, haround, fun name ne => Bindings.get?_set_of_ne _ _ ne, fun h' hh => ?_⟩
    rw [Bindings.get?_set_self] at hh
    cases hh
    exact hlooks

theorem keepsToItself (inner : HookName) :
    Machine.KeepsToItself Audience.deliver inner (AlikeBut inner) where
  calm alike ctx := (deliver_looks alike.looks ctx).1
  own alike ctx := by
    obtain ⟨-, haround, hothers, hlooks⟩ := deliver_looks alike.looks ctx
    exact ⟨alike.around.trans haround.symm,
      fun name ne => (alike.others name ne).trans (hothers name ne).symm, hlooks,
      alike.looks_right⟩
  own_right alike ctx := by
    obtain ⟨-, haround, hothers, hlooks⟩ := deliver_looks alike.looks_right ctx
    exact ⟨haround.trans alike.around, fun name ne => (hothers name ne).trans (alike.others name ne),
      alike.looks, hlooks⟩
  others {a a'} alike {hook} ne ctx := by
    have hinner : inner ≠ hook := Ne.symm ne
    have hget := alike.others hook ne
    unfold Audience.deliver
    rw [hget, alike.around]
    cases Bindings.get? hook a.hooks with
    | none => exact ⟨rfl, alike⟩
    | some h =>
      refine ⟨rfl, rfl, fun name hname => ?_, fun h' hh => ?_, fun h' hh => ?_⟩
      · by_cases hn : name = hook
        · rw [hn, Bindings.get?_set_self, Bindings.get?_set_self]
        · rw [Bindings.get?_set_of_ne _ _ hn, Bindings.get?_set_of_ne _ _ hn]
          exact alike.others name hname
      · rw [Bindings.get?_set_of_ne _ _ hinner] at hh
        exact alike.looks h' hh
      · rw [Bindings.get?_set_of_ne _ _ hinner] at hh
        exact alike.looks_right h' hh

end Audience

def twoRecorders : Machine × Audience :=
  let hooks : Audience :=
    { hooks := [("outer", .recorder {}), ("inner", .recorder { skipped := ["f:line", "g:line"] })] }
  let r := Machine.run Audience.deliver { hook := some "outer" } hooks
    [.call ⟨"f", ⟨"/p.py"⟩, 1⟩ [], .call ⟨"g", ⟨"/p.py"⟩, 6⟩ [], .yieldValue ⟨0, 1⟩ .none]
  (r.machine, r.state)

/-- The inner recorder gives both frames up. The generator is resumed, which makes good for it; what comes
of the function is lost. -/
theorem outer_hook_loses_what_inner_gave_up_of_generator :
    let m := twoRecorders.1
    let a := twoRecorders.2
    let deliver' := Machine.patient Audience.deliver "inner"
    let body : List (Op FrameId) := [.line ⟨0, 0⟩ 2, .resume ⟨0, 1⟩, .line ⟨0, 1⟩ 7,
      .yieldValue ⟨0, 1⟩ .none]
    let later : List (Op FrameId) := [.resume ⟨0, 1⟩, .line ⟨0, 1⟩ 8, .line ⟨0, 0⟩ 3]
    let ops := Op.block "inner" body ++ later
    m.IsIssued ∧ Machine.KeepsToItself Audience.deliver "inner" (Audience.AlikeBut "inner") ∧
      Audience.AlikeBut "inner" a a ∧
      (m.run Audience.deliver a (Op.block "inner" body)).machine.untraced.length = 2 ∧
      (Machine.lost Audience.deliver "inner" [] m a ops).map (fun h => (h.1, h.2.frame.line)) =
        [("outer", 3)] ∧
      m.overheard deliver' "inner" a ops ≠ m.overheard Audience.deliver "inner" a ops := by
  intro m a deliver' body later ops
  have fresh : Machine.IsFresh { hook := some "outer" } := ⟨rfl, rfl, rfl, rfl⟩
  have issued : m.IsIssued := fresh.isIssued.run _ _
  have keeps := Audience.keepsToItself "inner"
  have looks : ∀ h ∈ Bindings.get? "inner" a.hooks, h.OnlyLooks := by decide +kernel
  have alike : Audience.AlikeBut "inner" a a := ⟨rfl, fun _ _ => rfl, looks, looks⟩
  have hlost : (Machine.lost Audience.deliver "inner" [] m a ops).map
      (fun h => (h.1, h.2.frame.line)) = [("outer", 3)] := by decide +kernel
  refine ⟨issued, keeps, alike, by decide +kernel, hlost, fun same => ?_⟩
  have hnone := (outer_hook_loses_what_inner_gave_up issued keeps alike body later).1.mp same
  rw [show Machine.lost Audience.deliver "inner" [] m a ops = [] from hnone] at hlost
  cases hlost

/-- A recorder hears the call of a function. Another one runs inside of it and gives the function up at its
first line; the next line of the function, which still runs, comes to the recorder only where the other one
would have gone on. -/
theorem later_line_is_lost_to_outer_hook :
    let hooks : Audience :=
      { hooks := [("outer", .recorder {}), ("inner", .recorder { skipped := ["f"] })] }
    let m : Machine := { hook := some "outer" }
    let ops : List (Op FrameId) := .call ⟨"f", ⟨"/p.py"⟩, 1⟩ [] ::
      (Op.block "inner" [.line ⟨0, 0⟩ 2] ++ [.line ⟨0, 0⟩ 3])
    let lines (r : Outcome Audience) := r.state.hooks.map fun b =>
      (b.1, b.2.output.map fun o => match o with | .sighting x => x.line | _ => 0)
    let r := m.run Audience.deliver hooks ops
    let r' := m.run (Machine.patient Audience.deliver "inner") hooks ops
    r.machine.hook = some "outer" ∧ r.machine.current = some ⟨0, 0⟩ ∧
      lines r = [("outer", [1]), ("inner", [2])] ∧
      r'.machine.hook = some "outer" ∧ r'.machine.current = some ⟨0, 0⟩ ∧
      lines r' = [("outer", [1, 3]), ("inner", [2])] := by
  decide +kernel

end SelectiveTrace
