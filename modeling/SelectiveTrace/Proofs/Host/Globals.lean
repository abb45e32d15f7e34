import SelectiveTrace.Proofs.Host.Stale
import SelectiveTrace.Proofs.Host.WellMade

/-! The locals of module frames beside the globals of their files. A module frame starts with a copy of
the globals. What is bound for the whole file reaches the globals and every copy; what is bound through
a module frame reaches the globals and the copy of that frame, and no other. -/
namespace SelectiveTrace

/-- A global that is bound, and the module frame through which it is, if it is through one. -/
structure GlobalBinding where
  via : Option FrameId
  name : String
  value : Value

def GlobalBinding.reaches (b : GlobalBinding) (id : FrameId) : Bool :=
  b.via.all (· = id)

namespace Namespace

def bindAll (ns : Namespace) (bs : List GlobalBinding) : Namespace :=
  bs.foldl (fun ns b => ns.set b.name b.value) ns

theorem bindAll_append (ns : Namespace) (bs bs' : List GlobalBinding) :
    ns.bindAll (bs ++ bs') = (ns.bindAll bs).bindAll bs' :=
  List.foldl_append

theorem set_set (ns : Namespace) (name : String) (v : Value) :
    (ns.set name v).set name v = ns.set name v := by
  have h : ∀ bs : List (String × Value),
      Bindings.set name v (Bindings.set name v bs) = Bindings.set name v bs := by
    intro bs
    induction bs with
    | nil => simp [Bindings.set]
    | cons b bs ih => by_cases hb : b.1 = name <;> simp [Bindings.set, hb, ih]
  simp [set, h]

end Namespace

namespace Op

def binding? (m : Machine) (file : Path) : Op FrameId → Option GlobalBinding
  | .setGlobal file' name value => if file.same file' then some ⟨none, name, value⟩ else none
  | .setLocal id name value =>
    if id ∈ m.modulesOf file then some ⟨some id, name, value⟩ else none
  | _ => none

end Op

namespace Machine
variable {σ : Type} {deliver : Deliver σ} {m m' : Machine} {s : σ} {op : Op FrameId}
  {ops : List (Op FrameId)} {file : Path} {ns : Namespace} {id : FrameId} {f f' : Frame}

def bindings (deliver : Deliver σ) (file : Path) :
    Machine → σ → List (Op FrameId) → List GlobalBinding
  | _, _, [] => []
  | m, s, op :: ops =>
    (op.binding? m file).toList ++
      bindings deliver file (m.step deliver s op).machine (m.step deliver s op).state ops

theorem bindings_concat (deliver : Deliver σ) (file : Path) (m : Machine) (s : σ)
    (ops : List (Op FrameId)) (op : Op FrameId) :
    bindings deliver file m s (ops ++ [op]) =
      bindings deliver file m s ops ++ (op.binding? (m.carryOn deliver s ops).1 file).toList := by
  induction ops generalizing m s with
  | nil => simp [bindings, carryOn]
  | cons o ops ih =>
    rw [List.cons_append, bindings, bindings, ih, List.append_assoc]
    rfl

theorem mem_modulesOf : id ∈ m.modulesOf file ↔
    id ∈ m.moduleFrames ∧ ∃ f, m.frames.get? id = some f ∧ f.file.same file = true := by
  rw [modulesOf, List.mem_filter, Option.any_eq_true]

/-! The globals. -/

theorem globalsOf?_modifyFrame (m : Machine) (id : FrameId) (g : Frame → Frame) (file : Path) :
    (m.modifyFrame id g).globalsOf? file = m.globalsOf? file := by
  rw [modifyFrame_eq]
  rfl

theorem globalsOf?_bindGlobal (m : Machine) (file file' : Path) (name : String) (value : Value) :
    (m.bindGlobal file' name value).globalsOf? file =
      if file.same file' then some ((m.globalsOf file').set name value)
      else m.globalsOf? file := by
  simp only [globalsOf?, bindGlobal, Table.get?_insert, Path.same, decide_eq_true_eq]

theorem globalsOf_of_same (holds : m.globalsOf? file = some ns) {file' : Path}
    (same : file.same file' = true) : m.globalsOf file' = ns := by
  have hsame : file.components = file'.components := by simpa [Path.same] using same
  rw [globalsOf, globalsOf?, ← hsame]
  exact congrArg (·.getD {}) holds

theorem globalsOf?_before (holds : m.globalsOf? file = some ns) (op : Op FrameId) :
    (op.before m).globalsOf? file = some (ns.bindAll (op.binding? m file).toList) := by
  cases op with
  | enterModule code =>
    have hinsert : (m.pushModule code).globalsOf? file =
        if file.same code.file then some (m.globalsOf code.file) else m.globalsOf? file := by
      simp only [globalsOf?, pushModule, Table.get?_insert, Path.same, decide_eq_true_eq]
    refine hinsert.trans ?_
    split
    next same => exact congrArg some (globalsOf_of_same holds same)
    · exact holds
  | setGlobal file' name value =>
    have hfold : ∀ (ids : List FrameId) (m' : Machine),
        (ids.foldl (fun m id => m.bindLocal id name value) m').globalsOf? file =
          m'.globalsOf? file := by
      intro ids
      induction ids with
      | nil => exact fun _ => rfl
      | cons id ids ih => exact fun m' => (ih _).trans (globalsOf?_modifyFrame _ _ _ _)
    rw [Op.before, Machine.setGlobal, hfold, globalsOf?_bindGlobal, Op.binding?]
    split
    next same => exact congrArg (fun ns => some (ns.set name value)) (globalsOf_of_same holds same)
    · exact holds
  | setLocal id name value =>
    rw [Op.before, Machine.setLocal, Op.binding?]
    cases hf : m.frames.get? id with
    | none =>
      have hno : id ∉ m.modulesOf file := by simp [mem_modulesOf, hf]
      rw [if_neg hno]
      exact holds
    | some f =>
      have hiff : id ∈ m.modulesOf file ↔ m.moduleFrames.contains id = true ∧ file.same f.file = true := by
        simp [mem_modulesOf, hf, Path.same, eq_comm]
      have hlocal : (m.bindLocal id name value).globalsOf? file = some ns :=
        (globalsOf?_modifyFrame _ _ _ _).trans holds
      dsimp only
      by_cases hmodule : m.moduleFrames.contains id = true
      · rw [if_pos hmodule, globalsOf?_bindGlobal]
        by_cases same : file.same f.file = true
        · rw [if_pos same, if_pos (hiff.mpr ⟨hmodule, same⟩), globalsOf_of_same hlocal same]
          rfl
        · rw [if_neg same, if_neg fun h => same (hiff.mp h).2]
          exact hlocal
      · rw [if_neg hmodule, if_neg fun h => hmodule (hiff.mp h).1]
        exact hlocal
  | line id n | ret id value | unwind id | yieldValue id value =>
    exact (globalsOf?_modifyFrame _ _ _ _).trans holds
  | resume id => exact (globalsOf?_modifyFrame { m with suspended := _ } _ _ _).trans holds
  | call code args | raise id e | discard id | traceFrame id | setTrace hook | pushTrace hook
  | popTrace => exact holds

theorem globals_after (m : Machine) (op : Op FrameId) : (op.after m).globals = m.globals := by
  cases op <;> rfl

/-- What holds before the event, whatever the hook has given up and whether or not it fails, and is kept
by what follows the event, holds after the operation. -/
theorem step_induct {P : Machine → Prop} (skipped : op.applies m = false → P m)
    (before : P (op.before m)) (untraced : ∀ m' ids, P m' → P { m' with untraced := ids })
    (after : ∀ m', P m' → P (op.after m')) : P (m.step deliver s op).machine := by
  unfold Machine.step
  split
  next happlies => exact skipped (by simpa using happlies)
  · cases op.event? m with
    | none => exact before
    | some ev =>
      obtain ⟨a, ha⟩ := dispatch_machine deliver (op.before m) s ev.1 ev.2
      have hheeded : P ((op.before m).dispatch deliver s ev.1 ev.2).machine := by
        rw [ha, heed_eq]
        exact untraced _ _ before
      dsimp only
      split
      · exact hheeded
      · exact after _ hheeded

/-- An operation that does not apply binds nothing. -/
theorem binding?_of_skipped (skipped : op.applies m = false) (file : Path) :
    op.binding? m file = none := by
  cases op with
  | resume id | discard id => rfl
  | _ => cases skipped

theorem globalsOf?_step (holds : m.globalsOf? file = some ns) :
    (m.step deliver s op).machine.globalsOf? file =
      some (ns.bindAll (op.binding? m file).toList) := by
  refine step_induct (P := fun m' => m'.globalsOf? file = _) ?_ (globalsOf?_before holds op) ?_ ?_
  · intro skipped
    rw [binding?_of_skipped skipped]
    exact holds
  · exact fun _ _ h => h
  · intro m' h
    rw [globalsOf?, globals_after]
    exact h

/-! The locals of module frames. -/

/-- A module frame after an operation: it begins with the globals of its file, or it has got what was
bound for it. -/
inductive ModuleFrame (m : Machine) (op : Op FrameId) (id : FrameId) (f' : Frame) : Prop
  | begun (code : Code) (enters : op = .enterModule code) (new : id = m.nextId)
      (file : f'.file = code.file) (locals : f'.locals = m.globalsOf code.file)
  | kept (f : Frame) (module : id ∈ m.moduleFrames) (live : m.frames.get? id = some f)
      (file : f'.file = f.file)
      (locals : f'.locals =
        f.locals.bindAll ((op.binding? m f.file).toList.filter (·.reaches id)))

def IssuesModules (m : Machine) : Prop :=
  ∀ id ∈ m.moduleFrames, m.hasIssued id = true

theorem IssuesModules.ne_nextId (issued : m.IssuesModules) (module : id ∈ m.moduleFrames) :
    id ≠ m.nextId := by
  rintro rfl
  have hi := issued _ module
  rw [not_hasIssued_nextId] at hi
  cases hi

theorem moduleFrames_modifyFrame (m : Machine) (id : FrameId) (g : Frame → Frame) :
    (m.modifyFrame id g).moduleFrames = m.moduleFrames := by
  rw [modifyFrame_eq]

/-- A change to a frame that leaves its file and its locals. -/
theorem same_of_modifyFrame {j : FrameId} {g : Frame → Frame}
    (live : (m.modifyFrame j g).frames.get? id = some f')
    (same : ∀ f, (g f).file = f.file ∧ (g f).locals = f.locals) :
    ∃ f, m.frames.get? id = some f ∧ f'.file = f.file ∧ f'.locals = f.locals := by
  rw [get?_modifyFrame] at live
  split at live
  next hid =>
    subst hid
    obtain ⟨f, hf, rfl⟩ := Option.map_eq_some_iff.mp live
    exact ⟨f, hf, same f⟩
  · exact ⟨f', live, rfl, rfl⟩

theorem ModuleFrame.of_quiet (quiet : ∀ file, op.binding? m file = none)
    (module : id ∈ m.moduleFrames)
    (live : ∃ f, m.frames.get? id = some f ∧ f'.file = f.file ∧ f'.locals = f.locals) :
    ModuleFrame m op id f' := by
  obtain ⟨f, hf, hfile, hlocals⟩ := live
  exact .kept f module hf hfile (by rw [quiet, hlocals]; rfl)

theorem get?_foldl_bindLocal (m : Machine) (ids : List FrameId) (name : String) (value : Value)
    (id : FrameId) :
    (ids.foldl (fun m id => m.bindLocal id name value) m).frames.get? id =
      if id ∈ ids then
        (m.frames.get? id).map fun f => { f with locals := f.locals.set name value }
      else m.frames.get? id := by
  induction ids generalizing m with
  | nil => simp
  | cons j ids ih =>
    rw [List.foldl_cons, ih, bindLocal, get?_modifyFrame]
    by_cases hj : id = j
    · subst hj
      cases m.frames.get? id <;> by_cases hid : id ∈ ids <;> simp [hid, Namespace.set_set]
    · by_cases hid : id ∈ ids <;> simp [hj, hid]

/-- A local is written in a frame: where the frame is a module's, its globals change with it. -/
theorem moduleFrame_setLocal {j : FrameId} {name : String} {value : Value}
    (module : id ∈ ((Op.setLocal j name value).before m).moduleFrames)
    (live : ((Op.setLocal j name value).before m).frames.get? id = some f') :
    ModuleFrame m (.setLocal j name value) id f' := by
  rw [Op.before, setLocal_eq] at module
  rw [Op.before, Machine.setLocal] at live
  cases hj : m.frames.get? j with
  | none =>
    rw [hj] at live
    refine .kept f' module live rfl ?_
    simp [Op.binding?, mem_modulesOf, hj, Namespace.bindAll]
  | some f =>
    rw [hj] at live
    have hlive : (m.bindLocal j name value).frames.get? id = some f' := by
      dsimp only at live
      split at live <;> exact live
    rw [bindLocal, get?_modifyFrame] at hlive
    split at hlive
    next hid =>
      subst hid
      rw [hj] at hlive
      cases hlive
      refine .kept f module hj rfl ?_
      have hmem : id ∈ m.modulesOf f.file := mem_modulesOf.mpr ⟨module, f, hj, by simp [Path.same]⟩
      simp [Op.binding?, hmem, GlobalBinding.reaches, Namespace.bindAll]
    next hid =>
      refine .kept f' module hlive rfl ?_
      rw [Op.binding?]
      split <;> simp [GlobalBinding.reaches, Ne.symm hid, Namespace.bindAll]

/-- A global is written: every module frame of the file sees it. -/
theorem moduleFrame_setGlobal {file : Path} {name : String} {value : Value}
    (module : id ∈ ((Op.setGlobal file name value : Op FrameId).before m).moduleFrames)
    (live : ((Op.setGlobal file name value : Op FrameId).before m).frames.get? id = some f') :
    ModuleFrame m (.setGlobal file name value) id f' := by
  rw [Op.before, setGlobal_eq] at module
  rw [Op.before, Machine.setGlobal, get?_foldl_bindLocal] at live
  have hmem (f : Frame) (hf : m.frames.get? id = some f) :
      id ∈ m.modulesOf file ↔ f.file.same file = true := by
    simpa [mem_modulesOf, hf] using fun _ => module
  split at live
  next hid =>
    obtain ⟨f, hf, rfl⟩ := Option.map_eq_some_iff.mp live
    refine .kept f module hf rfl ?_
    simp [Op.binding?, (hmem f hf).mp hid, GlobalBinding.reaches, Namespace.bindAll]
  next hid =>
    have hno : ¬ f'.file.same file = true := fun h => hid ((hmem f' live).mpr h)
    refine .kept f' module live rfl ?_
    simp [Op.binding?, hno, Namespace.bindAll]

theorem moduleFrame_before (issued : m.IssuesModules) (op : Op FrameId)
    (module : id ∈ (op.before m).moduleFrames) (live : (op.before m).frames.get? id = some f') :
    ModuleFrame m op id f' := by
  cases op with
  | enterModule code =>
    have hget := get?_pushFrame m code (m.globalsOf code.file) id
    have hlive : (m.pushFrame code (m.globalsOf code.file)).frames.get? id = some f' := live
    rw [hget] at hlive
    split at hlive
    next hid =>
      cases hlive
      exact .begun code rfl hid rfl rfl
    next hid =>
      have hold : id ∈ m.moduleFrames := (List.mem_cons.mp module).resolve_left hid
      exact .of_quiet (fun _ => rfl) hold ⟨f', hlive, rfl, rfl⟩
  | call code args =>
    have hlive : (m.pushFrame code (.ofList args)).frames.get? id = some f' := live
    rw [get?_pushFrame, if_neg (issued.ne_nextId module)] at hlive
    exact .of_quiet (fun _ => rfl) module ⟨f', hlive, rfl, rfl⟩
  | setLocal j name value => exact moduleFrame_setLocal module live
  | setGlobal file name value => exact moduleFrame_setGlobal module live
  | line j n | ret j value | unwind j | yieldValue j value =>
    refine .of_quiet (fun _ => rfl) ?_ (same_of_modifyFrame live fun _ => ⟨rfl, rfl⟩)
    rw [← moduleFrames_modifyFrame m j]
    exact module
  | resume j =>
    have hwake := same_of_modifyFrame (m := { m with suspended := without m.suspended j }) live
      fun _ => ⟨rfl, rfl⟩
    refine .of_quiet (fun _ => rfl) ?_ hwake
    have hmodules := moduleFrames_modifyFrame { m with suspended := without m.suspended j } j
      fun f => { f with back := m.current, lastOpcode := none }
    exact hmodules ▸ module
  | raise j e | discard j | traceFrame j | setTrace hook | pushTrace hook | popTrace =>
    exact .of_quiet (fun _ => rfl) module ⟨f', live, rfl, rfl⟩

/-- What follows an event forgets frames and changes none. -/
theorem frames_after (op : Op FrameId) (module : id ∈ (op.after m).moduleFrames) :
    id ∈ m.moduleFrames ∧ (op.after m).frames.get? id = m.frames.get? id := by
  cases op with
  | ret j value | unwind j | raise j e | discard j =>
    obtain ⟨hm, hne⟩ := mem_without.mp module
    exact ⟨hm, Table.get?_erase_of_ne _ hne⟩
  | _ => exact ⟨module, rfl⟩

theorem moduleFrame_step (issued : m.IssuesModules)
    (module : id ∈ (m.step deliver s op).machine.moduleFrames)
    (live : (m.step deliver s op).machine.frames.get? id = some f') : ModuleFrame m op id f' := by
  revert module live
  refine step_induct
    (P := fun m' => id ∈ m'.moduleFrames → m'.frames.get? id = some f' → ModuleFrame m op id f')
    ?_ (moduleFrame_before issued op) (fun _ _ h => h) ?_
  · intro skipped module live
    exact .of_quiet (binding?_of_skipped skipped) module ⟨f', live, rfl, rfl⟩
  · intro m' h module live
    obtain ⟨hmodule, hget⟩ := frames_after op module
    exact h hmodule (hget ▸ live)

/-! Handles of module frames are never given out again. -/

theorem IssuesModules.congr (issued : m.IssuesModules) (modules : m'.moduleFrames = m.moduleFrames)
    (id : m'.id = m.id) (next : m'.next = m.next) : m'.IssuesModules := by
  intro j hj
  rw [hasIssued_congr id next]
  exact issued j (modules ▸ hj)

theorem IssuesModules.modifyFrame (issued : m.IssuesModules) (id : FrameId) (g : Frame → Frame) :
    (m.modifyFrame id g).IssuesModules :=
  issued.congr (moduleFrames_modifyFrame m id g) (id_modifyFrame m id g) (next_modifyFrame m id g)

theorem hasIssued_pushFrame (m : Machine) (code : Code) (locals : Namespace) (id : FrameId) :
    (m.pushFrame code locals).hasIssued id = true ↔ id = m.nextId ∨ m.hasIssued id = true := by
  obtain ⟨machine, serial⟩ := id
  have hnext : (m.pushFrame code locals).next = m.next + 1 := rfl
  have hid : (m.pushFrame code locals).id = m.id := rfl
  simp only [hasIssued, hnext, hid, nextId, Bool.or_eq_true, decide_eq_true_eq, FrameId.mk.injEq]
  omega

theorem IssuesModules.before (issued : m.IssuesModules) (op : Op FrameId) :
    (op.before m).IssuesModules := by
  cases op with
  | enterModule code =>
    intro j hj
    exact (hasIssued_pushFrame m code (m.globalsOf code.file) j).mpr
      ((List.mem_cons.mp hj).imp_right (issued j))
  | call code args => exact fun j hj => (hasIssued_pushFrame m code _ j).mpr (Or.inr (issued j hj))
  | setLocal id name value =>
    rw [Op.before, setLocal_eq]
    exact issued
  | setGlobal file name value =>
    rw [Op.before, setGlobal_eq]
    exact issued
  | line id n | ret id value | unwind id | yieldValue id value => exact issued.modifyFrame id _
  | resume id =>
    exact IssuesModules.modifyFrame (m := { m with suspended := without m.suspended id }) issued id _
  | raise id e | discard id | traceFrame id | setTrace hook | pushTrace hook | popTrace => exact issued

theorem IssuesModules.step (issued : m.IssuesModules) :
    (m.step deliver s op).machine.IssuesModules := by
  refine step_induct (P := IssuesModules) (fun _ => issued) (issued.before op) (fun _ _ h => h) ?_
  intro m' h id module
  have hissued := h id (frames_after op module).1
  cases op <;> exact hissued

/-! A whole run. -/

theorem carryOn_append (deliver : Deliver σ) (m : Machine) (s : σ) (ops ops' : List (Op FrameId)) :
    m.carryOn deliver s (ops ++ ops') =
      (m.carryOn deliver s ops).1.carryOn deliver (m.carryOn deliver s ops).2 ops' := by
  induction ops generalizing m s with
  | nil => rfl
  | cons op ops ih => exact ih _ _

theorem IssuesModules.carryOn (issued : m.IssuesModules) (ops : List (Op FrameId)) :
    (m.carryOn deliver s ops).1.IssuesModules := by
  induction ops generalizing m s with
  | nil => exact issued
  | cons op ops ih => exact ih issued.step

theorem globalsOf?_enterModule (code : Code) :
    (m.step deliver s (.enterModule code)).machine.globalsOf? code.file =
      some (m.globalsOf code.file) := by
  refine step_induct (P := fun m' => m'.globalsOf? code.file = _) ?_ ?_ (fun _ _ h => h)
    fun _ h => h
  · intro skipped
    cases skipped
  · exact Table.get?_insert_self _ _ _

/-- Where a module frame comes from, and what has become of it and of the globals of its file: it was
entered after `before`, with the globals that the file had then; through `after` the globals have got all
that was bound, and the locals what was bound for them. -/
structure Entered (deliver : Deliver σ) (m : Machine) (s : σ) (before : List (Op FrameId)) (code : Code)
    (after : List (Op FrameId)) (m' : Machine) (id : FrameId) (f : Frame)
    (bound : List GlobalBinding) : Prop where
  new : id = (m.carryOn deliver s before).1.nextId
  file : f.file = code.file
  all : bound = bindings deliver code.file (m.carryOn deliver s (before ++ [.enterModule code])).1
    (m.carryOn deliver s (before ++ [.enterModule code])).2 after
  globals : m'.globalsOf? f.file =
    some (((m.carryOn deliver s before).1.globalsOf f.file).bindAll bound)
  locals : f.locals =
    ((m.carryOn deliver s before).1.globalsOf f.file).bindAll (bound.filter (·.reaches id))

/-- Two module frames of the file are live at once in the course of the run. -/
def Overlaps (deliver : Deliver σ) (m : Machine) (s : σ) (ops : List (Op FrameId)) (file : Path)
    (id j : FrameId) : Prop :=
  ∃ done, done <+: ops ∧ id ∈ (m.carryOn deliver s done).1.modulesOf file ∧
    j ∈ (m.carryOn deliver s done).1.modulesOf file

theorem Overlaps.concat {j : FrameId} (h : Overlaps deliver m s ops file id j) (op : Op FrameId) :
    Overlaps deliver m s (ops ++ [op]) file id j := by
  obtain ⟨done, start, hid, hj⟩ := h
  exact ⟨done, start.trans (List.prefix_append _ _), hid, hj⟩

/-- What passes a live module frame by is bound through another one. -/
theorem reaches_or_other {b : GlobalBinding} (bound : op.binding? m file = some b) :
    b.reaches id = true ∨ ∃ j, j ≠ id ∧ j ∈ m.modulesOf file := by
  cases op with
  | setGlobal file' name value =>
    simp only [Op.binding?, Option.ite_none_right_eq_some] at bound
    obtain ⟨-, hb⟩ := bound
    cases hb
    exact Or.inl rfl
  | setLocal j name value =>
    simp only [Op.binding?, Option.ite_none_right_eq_some] at bound
    obtain ⟨hj, hb⟩ := bound
    cases hb
    by_cases hid : j = id
    · exact Or.inl (by simp [GlobalBinding.reaches, hid])
    · exact Or.inr ⟨j, hid, hj⟩
  | _ => cases bound

theorem entered_of_module (issued : m.IssuesModules) (none : m.moduleFrames = [])
    (module : id ∈ (m.carryOn deliver s ops).1.moduleFrames)
    (live : (m.carryOn deliver s ops).1.frames.get? id = some f) :
    ∃ before code after bound, ops = before ++ .enterModule code :: after ∧
      Entered deliver m s before code after (m.carryOn deliver s ops).1 id f bound ∧
      ∀ b ∈ bound, b.reaches id = true ∨ ∃ j, j ≠ id ∧ Overlaps deliver m s ops f.file id j := by
  induction ops using List.reverseRecOn generalizing f with
  | nil =>
    have hm : id ∈ m.moduleFrames := module
    rw [none] at hm
    cases hm
  | append_singleton ops op ih =>
    have hissued : (m.carryOn deliver s ops).1.IssuesModules := issued.carryOn ops
    rw [carryOn_concat] at module live ⊢
    cases moduleFrame_step hissued module live with
    | begun code enters new file locals =>
      subst enters
      refine ⟨ops, code, [], [], rfl, ⟨new, file, rfl, ?_, ?_⟩, by simp⟩
      · rw [file]
        exact globalsOf?_enterModule code
      · rw [file, locals]
        rfl
    | kept f₀ module live file locals =>
      obtain ⟨before, code, after, bound, hops, h, hforeign⟩ := ih module live
      have hlast : ((m.carryOn deliver s (before ++ [.enterModule code])).1.carryOn deliver
          (m.carryOn deliver s (before ++ [.enterModule code])).2 after).1 =
          (m.carryOn deliver s ops).1 := by
        rw [← carryOn_append, hops, List.append_assoc]
        rfl
      have hbound := bindings_concat deliver code.file
        (m.carryOn deliver s (before ++ [.enterModule code])).1
        (m.carryOn deliver s (before ++ [.enterModule code])).2 after op
      rw [hlast, ← h.all] at hbound
      refine ⟨before, code, after ++ [op], _, by simp [hops],
        ⟨h.new, file.trans h.file, hbound.symm, ?_, ?_⟩, ?_⟩ <;>
        rw [← h.file]
      · rw [file, Namespace.bindAll_append]
        exact globalsOf?_step h.globals
      · rw [file, locals, h.locals, List.filter_append, Namespace.bindAll_append]
      · intro b hb
        rw [file]
        rcases List.mem_append.mp hb with hb | hb
        · exact (hforeign b hb).imp_right fun ⟨j, hj, h⟩ => ⟨j, hj, h.concat op⟩
        · refine (reaches_or_other (Option.mem_toList.mp hb)).imp_right ?_
          rintro ⟨j, hj, hmem⟩
          have hself : id ∈ (m.carryOn deliver s ops).1.modulesOf f₀.file :=
            mem_modulesOf.mpr ⟨module, f₀, live, by simp [Path.same]⟩
          exact ⟨j, hj, ops, List.prefix_append _ _, hself, hmem⟩

/-- Any operations on a new machine, under any hooks. Every live module frame was entered with the globals
of its file; since then the globals have got all that was bound for the file, and the locals what was
bound for the whole file or through this very frame. So they are the globals, the same names in the same
order and with the same values, unless something was bound through another module frame of the file;
and nothing was if no other one has been live beside it. -/
theorem module_locals_are_globals_but_for_other_frames (fresh : m.IsNew)
    (module : id ∈ (m.carryOn deliver s ops).1.moduleFrames)
    (live : (m.carryOn deliver s ops).1.frames.get? id = some f) :
    (∃ before code after bound, ops = before ++ .enterModule code :: after ∧
      Entered deliver m s before code after (m.carryOn deliver s ops).1 id f bound ∧
      ((∀ b ∈ bound, b.reaches id = true) →
        (m.carryOn deliver s ops).1.globalsOf? f.file = some f.locals)) ∧
    ((∀ j, Overlaps deliver m s ops f.file id j → j = id) →
      (m.carryOn deliver s ops).1.globalsOf? f.file = some f.locals) := by
  have hnone := fresh.moduleFrames
  have hissued : m.IssuesModules := by simp [IssuesModules, hnone]
  obtain ⟨before, code, after, bound, hops, h, hforeign⟩ := entered_of_module hissued hnone module live
  have hagree (reached : ∀ b ∈ bound, b.reaches id = true) :
      (m.carryOn deliver s ops).1.globalsOf? f.file = some f.locals := by
    rw [h.globals, h.locals, List.filter_eq_self.mpr reached]
  refine ⟨⟨before, code, after, bound, hops, h, hagree⟩, fun alone => hagree fun b hb => ?_⟩
  refine (hforeign b hb).resolve_right ?_
  rintro ⟨j, hj, overlaps⟩
  exact hj (alone j overlaps)

def nestedModuleOps : List (Op FrameId) :=
  let code : Code := ⟨"<module>", ⟨"/w/p.py"⟩, 1⟩
  [.enterModule code, .enterModule code, .setLocal ⟨0, 0⟩ "x" (.int 1)]

/-- Here a global is bound before, and every event fails in the hook. -/
theorem module_locals_are_globals_but_for_other_frames_of_nested :
    let deliver : Deliver Unit := fun _ _ s => (.panicked "hook failed", s)
    let ops := .setTrace (some "hook") :: .setGlobal ⟨"/w/p.py"⟩ "y" (.int 2) :: nestedModuleOps
    let m' := (carryOn deliver { id := 0 } () ops).1
    IsNew { id := 0 } ∧ ⟨0, 1⟩ ∈ m'.moduleFrames ∧ ∃ f, m'.frames.get? ⟨0, 1⟩ = some f ∧
      ∃ before code after bound, ops = before ++ .enterModule code :: after ∧
        Entered deliver { id := 0 } () before code after m' ⟨0, 1⟩ f bound := by
  intro deliver ops m'
  have hnew : IsNew { id := 0 } := ⟨⟨rfl, rfl, rfl, rfl⟩, rfl, rfl⟩
  have hmodule : (⟨0, 1⟩ : FrameId) ∈ m'.moduleFrames := by decide +kernel
  have hlive : (m'.frames.get? ⟨0, 1⟩).isSome = true := by decide +kernel
  obtain ⟨f, hf⟩ := Option.isSome_iff_exists.mp hlive
  obtain ⟨⟨before, code, after, bound, hops, h, -⟩, -⟩ :=
    module_locals_are_globals_but_for_other_frames hnew hmodule hf
  exact ⟨hnew, hmodule, f, hf, before, code, after, bound, hops, h⟩

/-- The second frame has no such local, although its file has the global. -/
theorem second_module_frame_misses_local :
    let m' := (carryOn (fun _ _ s => (.proceed, s)) { id := 0 } () nestedModuleOps).1
    ⟨0, 1⟩ ∈ m'.moduleFrames ∧
      (m'.frames.get? ⟨0, 1⟩).map (fun f => (f.file, f.locals.contains "x")) =
        some (⟨"/w/p.py"⟩, false) ∧
      (m'.globalsOf? ⟨"/w/p.py"⟩).map (·.contains "x") = some true := by
  decide +kernel

end Machine
end SelectiveTrace
