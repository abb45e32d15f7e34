import SelectiveTrace.Proofs.Host.Reporting
import SelectiveTrace.Proofs.Host.Continuing

/-! The same program with the files of some frames spelled relative to the current directory. Whatever
the hooks answer, the frames of both runs stand where they stood, and differ in the spelling of files. -/
namespace SelectiveTrace
namespace Path

/-- `q` is the path `p` as it is spelled in the directory `base`. -/
structure Respells (base p q : Path) : Prop where
  rooted : p.isAbsolute = true
  relative : q.isAbsolute = false
  same : (base.join q).same p = true

instance (base p q : Path) : Decidable (Respells base p q) :=
  decidable_of_iff (p.isAbsolute = true ∧ q.isAbsolute = false ∧ (base.join q).same p = true)
    ⟨fun h => ⟨h.1, h.2.1, h.2.2⟩, fun h => ⟨h.rooted, h.relative, h.same⟩⟩

theorem ne_root_of_component? {text : String} {c : Component} (h : component? text = some c) :
    c ≠ .root := by
  unfold component? at h
  split at h <;> cases h <;> exact Component.noConfusion

theorem head?_components (p : Path) : p.components.head? = some .root ↔ p.isAbsolute = true := by
  have hparts : ∀ texts : List String, (texts.filterMap component?).head? ≠ some .root := by
    intro texts h
    obtain ⟨text, -, hc⟩ := List.mem_filterMap.mp (List.mem_of_mem_head? h)
    exact ne_root_of_component? hc rfl
  unfold components
  dsimp only
  split
  next hrooted => simp [hrooted]
  next hrelative =>
    refine iff_of_false ?_ hrelative
    split
    · simp
    · exact hparts _

theorem isAbsolute_of_same {p q : Path} (h : p.same q = true) : p.isAbsolute = q.isAbsolute := by
  have hcomponents : p.components = q.components := of_decide_eq_true h
  rw [Bool.eq_iff_iff, ← head?_components, ← head?_components, hcomponents]

theorem same_of_relative {q r : Path} (relative : q.isAbsolute = false)
    (rooted : r.isAbsolute = true) : q.same r = false := by
  rw [Bool.eq_false_iff]
  intro h
  rw [isAbsolute_of_same h, rooted] at relative
  cases relative

theorem isAbsolute_join {base : Path} (rooted : base.isAbsolute = true) (p : Path) :
    (base.join p).isAbsolute = true := by
  have hprefix : ∀ rest : String, Text.startsWith (base.text ++ rest) "/" = true := by
    intro rest
    have hstart : "/".toList <+: base.text.toList := List.isPrefixOf_iff_prefix.mp rooted
    refine List.isPrefixOf_iff_prefix.mpr (hstart.trans ?_)
    rw [String.toList_append]
    exact List.prefix_append _ _
  unfold join
  split
  · assumption
  · split
    · exact hprefix _
    · exact String.append_assoc ▸ hprefix ("/" ++ p.text)

/-- Two paths that are the same are the same file as a third or are not, both of them. -/
theorem same_congr {p q : Path} (h : p.same q = true) (r : Path) : p.same r = q.same r := by
  have hcomponents : p.components = q.components := of_decide_eq_true h
  unfold same
  rw [hcomponents]

end Path

/-- The same frame, with its file respelled if it is one of those that are `relative`. Its variables may
differ too: the globals of a file are kept under the path as it is spelled. -/
structure Frame.Respells (base : Path) (relative : FrameId → Bool) (f f' : Frame) : Prop where
  id : f'.id = f.id
  line : f'.line = f.line
  back : f'.back = f.back
  thread : f'.thread = f.thread
  file : if relative f.id then Path.Respells base f.file f'.file else f'.file = f.file

structure Context.Respells (base : Path) (relative : FrameId → Bool) (ctx ctx' : Context) : Prop where
  frame : Frame.Respells base relative ctx.frame ctx'.frame
  event : ctx'.event = ctx.event
  frames : ∀ j, Option.Rel (Frame.Respells base relative) (ctx.frames.get? j) (ctx'.frames.get? j)

inductive Op.Respells (base : Path) (relative : Bool) : Op FrameId → Op FrameId → Prop
  | same (op : Op FrameId) (kept : op.isBirth = true → relative = false) :
    Respells base relative op op
  | enterModule (code : Code) (file : Path) (respelled : relative = true)
    (spelling : Path.Respells base code.file file) :
    Respells base relative (.enterModule code) (.enterModule { code with file })
  | call (code : Code) (args : List (String × Value)) (file : Path) (respelled : relative = true)
    (spelling : Path.Respells base code.file file) :
    Respells base relative (.call code args) (.call { code with file } args)
  | setGlobal (file file' : Path) (name : String) (value : Value) :
    Respells base relative (.setGlobal file name value) (.setGlobal file' name value)

def Op.RespellAll (base : Path) (relative : FrameId → Bool) :
    FrameId → List (Op FrameId) → List (Op FrameId) → Prop
  | _, [], [] => True
  | next, op :: ops, op' :: ops' =>
    op.Respells base (relative next) op' ∧
      RespellAll base relative (if op.isBirth then { next with serial := next.serial + 1 } else next)
        ops ops'
  | _, _, _ => False

namespace Op
variable {base : Path} {relative : Bool} {op op' : Op FrameId}

namespace Respells

theorem retraces (h : op.Respells base relative op') (id : FrameId) :
    op'.retraces id = op.retraces id := by
  cases h <;> rfl

theorem event? (h : op.Respells base relative op') (m : Machine) : op'.event? m = op.event? m := by
  cases h <;> rfl

theorem isDisciplined (h : op.Respells base relative op') (m : Machine) :
    op'.IsDisciplined m ↔ op.IsDisciplined m := by
  cases h <;> exact Iff.rfl

theorem after (h : op.Respells base relative op') (m : Machine) : op'.after m = op.after m := by
  cases h <;> rfl

end Respells
end Op

namespace Machine
variable {base : Path} {relative : FrameId → Bool} {m m' : Machine} {op op' : Op FrameId}

/-- A machine without what the frames hold and without the marks on them. -/
def bones (m : Machine) : Machine :=
  { m with frames := {}, globals := {}, moduleFrames := [], untraced := [] }

theorem bones_modifyFrame (m : Machine) (id : FrameId) (g : Frame → Frame) :
    (m.modifyFrame id g).bones = m.bones := by
  rw [modifyFrame_eq]
  rfl

theorem bones_heed (m : Machine) (id : FrameId) (e : Event) (a : Answer) :
    (m.heed id e a).bones = m.bones := by
  rw [heed_eq]
  rfl

/-- What an operation makes of the stack, the suspended frames and the hooks is told by these. -/
theorem bones_before (m : Machine) (op : Op FrameId) :
    (op.before m).bones = (op.before m.bones).bones := by
  cases op with
  | line id n => rw [Op.before, Op.before, moveTo, moveTo, bones_modifyFrame, bones_modifyFrame]; rfl
  | setLocal id name value => rw [Op.before, setLocal_eq]; rfl
  | setGlobal file name value => rw [Op.before, Op.before, setGlobal_eq, setGlobal_eq]; rfl
  | ret id _ | unwind id | yieldValue id _ =>
    rw [Op.before, Op.before, setOpcode, setOpcode, bones_modifyFrame, bones_modifyFrame]
    rfl
  | resume id => rw [Op.before, Op.before, wake, wake, modifyFrame_eq]; rfl
  | _ => rfl

theorem bones_after (m : Machine) (op : Op FrameId) :
    (op.after m).bones = (op.after m.bones).bones := by
  cases op <;> rfl

structure Respells (base : Path) (relative : FrameId → Bool) (m m' : Machine) : Prop where
  bones : m'.bones = m.bones
  frames : ∀ j, Option.Rel (Frame.Respells base relative) (m.standing j) (m'.standing j)

/-- Frames are told apart by where they stand. -/
theorem rel_place {x y : Option Frame} :
    Option.Rel (Frame.Respells base relative) (x.map Frame.place) (y.map Frame.place) ↔
      Option.Rel (Frame.Respells base relative) x y := by
  constructor
  · intro h
    cases x <;> cases y
    · exact .none
    · cases h
    · cases h
    · cases h with
      | some hf => exact .some ⟨hf.id, hf.line, hf.back, hf.thread, hf.file⟩
  · intro h
    cases h with
    | none => exact .none
    | some hf => exact .some ⟨hf.id, hf.line, hf.back, hf.thread, hf.file⟩

namespace Respells

theorem get? (h : Respells base relative m m') (j : FrameId) :
    Option.Rel (Frame.Respells base relative) (m.frames.get? j) (m'.frames.get? j) :=
  rel_place.mp (h.frames j)

theorem get?_ne_none (h : Respells base relative m m') {j : FrameId}
    (live : m.frames.get? j ≠ none) : m'.frames.get? j ≠ none := by
  intro hnone
  have hrel := h.get? j
  rw [hnone] at hrel
  generalize m.frames.get? j = x at hrel live
  cases hrel
  exact live rfl

/-- Whatever is read off the bones of a machine is the same on both. -/
theorem alike (h : Respells base relative m m') {α : Type} (read : Machine → α)
    (shallow : ∀ m : Machine, read m.bones = read m) : read m' = read m := by
  rw [← shallow m', h.bones, shallow m]

theorem nextId (h : Respells base relative m m') : m'.nextId = m.nextId :=
  h.alike Machine.nextId fun _ => rfl

theorem event? (h : Respells base relative m m') (op : Op FrameId) : op.event? m' = op.event? m :=
  h.alike op.event? fun _ => by cases op <;> rfl

theorem isDisciplined (h : Respells base relative m m') (op : Op FrameId) :
    op.IsDisciplined m' = op.IsDisciplined m :=
  h.alike op.IsDisciplined fun _ => by cases op <;> rfl

theorem disciplined {b : Bool} (h : Respells base relative m m') (hop : op.Respells base b op')
    (hd : op.IsDisciplined m) : op'.IsDisciplined m' :=
  (hop.isDisciplined m').mpr (h.isDisciplined op ▸ hd)

theorem same_event {b : Bool} (h : Respells base relative m m') (hop : op.Respells base b op') :
    op'.event? m' = op.event? m :=
  (hop.event? m').trans (h.event? op)

/-- Frames that stand where they stood on both machines. -/
theorem congr {x y : Machine} (h : Respells base relative m m') (bones : y.bones = x.bones)
    (left : ∀ j, x.standing j = m.standing j) (right : ∀ j, y.standing j = m'.standing j) :
    Respells base relative x y :=
  ⟨bones, fun j => left j ▸ right j ▸ h.frames j⟩

theorem modifyFrame (h : Respells base relative m m') (id : FrameId) {g g' : Frame → Frame}
    (change : ∀ {f f'}, Frame.Respells base relative f f' →
      Frame.Respells base relative (g f) (g' f')) (j : FrameId) :
    Option.Rel (Frame.Respells base relative) ((m.modifyFrame id g).standing j)
      ((m'.modifyFrame id g').standing j) := by
  refine rel_place.mpr ?_
  rw [get?_modifyFrame, get?_modifyFrame]
  split
  · generalize hx : m.frames.get? id = x
    generalize hy : m'.frames.get? id = y
    have hrel := h.get? id
    rw [hx, hy] at hrel
    cases hrel with
    | none => exact .none
    | some hf => exact .some (change hf)
  · exact h.get? j

/-- The frame that a call makes. -/
theorem pushFrame (h : Respells base relative m m') {code code' : Code}
    (file : if relative m.nextId then Path.Respells base code.file code'.file
      else code'.file = code.file) (line : code'.firstLine = code.firstLine)
    (locals locals' : Namespace) (j : FrameId) :
    Option.Rel (Frame.Respells base relative) ((m.pushFrame code locals).standing j)
      ((m'.pushFrame code' locals').standing j) := by
  refine rel_place.mpr ?_
  rw [get?_pushFrame, get?_pushFrame, h.nextId]
  split
  · have hback : m'.current = m.current := h.alike Machine.current fun _ => rfl
    have hthread : m'.thread = m.thread := h.alike Machine.thread fun _ => rfl
    exact .some ⟨h.nextId, line, hback, hthread, file⟩
  · exact h.get? j

theorem bones_before (h : Respells base relative m m')
    (hop : op.Respells base (relative m.nextId) op') :
    (op'.before m').bones = (op.before m).bones := by
  rw [Machine.bones_before m' op', h.bones, Machine.bones_before m op]
  cases hop with
  | setGlobal file file' name value => rw [Op.before, Op.before, setGlobal_eq, setGlobal_eq]; rfl
  | same | enterModule | call => rfl

/-- What an operation changes before its event. -/
theorem before (h : Respells base relative m m')
    (hop : op.Respells base (relative m.nextId) op') :
    Respells base relative (op.before m) (op'.before m') := by
  have bones := h.bones_before hop
  have spelled : ∀ (code : Code) (file : Path), relative m.nextId = true →
      Path.Respells base code.file file → let code' : Code := { code with file }
      if relative m.nextId then Path.Respells base code.file code'.file
      else code'.file = code.file := by
    intro code file respelled spelling
    rwa [if_pos respelled]
  cases hop with
  | setGlobal file file' name value =>
    exact h.congr bones (fun j => (spares_setGlobal m file name value j).standing)
      fun j => (spares_setGlobal m' file' name value j).standing
  | enterModule code file respelled spelling =>
    exact ⟨bones, h.pushFrame (spelled code file respelled spelling) rfl _ _⟩
  | call code args file respelled spelling =>
    exact ⟨bones, h.pushFrame (spelled code file respelled spelling) rfl _ _⟩
  | same op kept =>
    have born : ∀ code : Code, op.isBirth = true →
        if relative m.nextId then Path.Respells base code.file code.file
          else code.file = code.file := by
      intro code birth
      rw [kept birth]
      rfl
    cases op with
    | enterModule code => exact ⟨bones, h.pushFrame (born code rfl) rfl _ _⟩
    | call code args => exact ⟨bones, h.pushFrame (born code rfl) rfl _ _⟩
    | line id n =>
      exact ⟨bones, h.modifyFrame id fun hf => ⟨hf.id, rfl, hf.back, hf.thread, hf.file⟩⟩
    | setLocal id name value =>
      exact h.congr bones (fun j => (spares_setLocal m id j name value).standing)
        fun j => (spares_setLocal m' id j name value).standing
    | setGlobal file name value =>
      exact h.congr bones (fun j => (spares_setGlobal m file name value j).standing)
        fun j => (spares_setGlobal m' file name value j).standing
    | ret id _ | unwind id | yieldValue id _ =>
      exact ⟨bones, h.modifyFrame id fun hf => ⟨hf.id, hf.line, hf.back, hf.thread, hf.file⟩⟩
    | resume id =>
      have hm : Respells base relative { m with suspended := without m.suspended id }
          { m' with suspended := without m'.suspended id } :=
        h.congr (h.alike (fun m => Machine.bones { m with suspended := without m.suspended id })
          fun _ => rfl) (fun _ => rfl) fun _ => rfl
      have hback : m'.current = m.current := h.alike Machine.current fun _ => rfl
      exact ⟨bones, hm.modifyFrame id fun hf => ⟨hf.id, hf.line, hback, hf.thread, hf.file⟩⟩
    | raise _ _ | discard _ | traceFrame _ | setTrace _ | pushTrace _ | popTrace =>
      exact h.congr bones (fun _ => rfl) fun _ => rfl

/-- What a hook has answered changes nothing but the marks, on either machine. -/
theorem heed (h : Respells base relative m m') (id : FrameId) (e e' : Event) (a a' : Answer) :
    Respells base relative (m.heed id e a) (m'.heed id e' a') := by
  refine h.congr ?_ (fun j => ?_) fun j => ?_
  · rw [bones_heed, bones_heed, h.bones]
  · rw [heed_eq]
    rfl
  · rw [heed_eq]
    rfl

theorem forget (h : Respells base relative m m') (id : FrameId) :
    Respells base relative (m.forget id) (m'.forget id) := by
  refine ⟨h.bones, fun j => rel_place.mpr ?_⟩
  rw [Machine.forget, Machine.forget, Table.get?_erase, Table.get?_erase]
  split
  · exact .none
  · exact h.get? j

/-- What an operation changes after its event. -/
theorem after (h : Respells base relative m m') (op : Op FrameId) :
    Respells base relative (op.after m) (op.after m') := by
  have bones : (op.after m').bones = (op.after m).bones := by
    rw [bones_after, h.bones, ← bones_after]
  cases op with
  | ret id _ | unwind id | raise id _ =>
    have hleft : Respells base relative
        { m with stack := leave m.stack id, suspended := without m.suspended id }
        { m' with stack := leave m'.stack id, suspended := without m'.suspended id } :=
      h.congr (h.alike (fun m => Machine.bones { m with
        stack := leave m.stack id, suspended := without m.suspended id }) fun _ => rfl)
        (fun _ => rfl) fun _ => rfl
    exact hleft.forget id
  | discard id => exact h.forget id
  | _ => exact h.congr bones (fun _ => rfl) fun _ => rfl

theorem isIssued (h : Respells base relative m m') (issued : m.IsIssued) : m'.IsIssued := by
  intro j f' hf'
  have hrel := h.get? j
  rw [hf'] at hrel
  generalize hx : m.frames.get? j = x at hrel
  cases hrel with
  | some hf =>
    obtain ⟨hj, hid⟩ := issued j _ hx
    refine ⟨?_, hf.id.trans hid⟩
    exact (h.alike (·.hasIssued j) fun _ => rfl).trans hj

/-- What is seen of an event of a frame. -/
theorem context (h : Respells base relative m m') {f f' : Frame}
    (frame : Frame.Respells base relative f f') (e : Event) :
    Context.Respells base relative (m.context f e) (m'.context f' e) :=
  ⟨frame, rfl, h.get?⟩

variable {σ σ' : Type} {deliver : Deliver σ} {deliver' : Deliver σ'} {s : σ} {s' : σ'}

/-- One operation on both machines, whatever hooks hear of it and answer. -/
theorem step (h : Respells base relative m m') (hop : op.Respells base (relative m.nextId) op')
    (hd : op.IsDisciplined m) (calm : (m.step deliver s op).panic = none)
    (calm' : (m'.step deliver' s' op').panic = none) :
    Respells base relative (m.step deliver s op).machine (m'.step deliver' s' op').machine := by
  have hd' := h.disciplined hop hd
  have event := h.same_event hop
  have before := h.before hop
  cases hev : op.event? m with
  | none =>
    rw [step_of_quiet hd hev, step_of_quiet hd' (event.trans hev)]
    exact before
  | some ev =>
    obtain ⟨a, ha⟩ := machine_step_of_event calm hd hev
    obtain ⟨a', ha'⟩ := machine_step_of_event calm' hd' (event.trans hev)
    rw [ha, ha', hop.after]
    exact (before.heed ev.1 ev.2 ev.2 a a').after op

end Respells

/-- Handles are given out one after the other, to the frames that are made. -/
theorem nextId_step {σ : Type} {deliver : Deliver σ} {s : σ} (hd : op.IsDisciplined m)
    (calm : (m.step deliver s op).panic = none) : (m.step deliver s op).machine.nextId =
      if op.isBirth then { m.nextId with serial := m.nextId.serial + 1 } else m.nextId := by
  have hbefore : (op.before m).nextId =
      if op.isBirth then { m.nextId with serial := m.nextId.serial + 1 } else m.nextId := by
    have hbones : (op.before m).bones.nextId = (op.before m.bones).bones.nextId :=
      congrArg Machine.nextId (bones_before m op)
    refine hbones.trans ?_
    cases op <;> rfl
  cases hev : op.event? m with
  | none =>
    rw [step_of_quiet hd hev]
    exact hbefore
  | some ev =>
    obtain ⟨a, ha⟩ := machine_step_of_event calm hd hev
    have hafter : ∀ x : Machine, (op.after x).nextId = x.nextId := fun x => by cases op <;> rfl
    rw [ha, hafter, ← hbefore, heed_eq]
    rfl

end Machine
end SelectiveTrace
