import Mathlib.Data.List.Chain
import SelectiveTrace.History.Tracer

/-! Reports of histories. A history falls into changes told in full and longest runs of changes that a loop
repeats, in one way only. The report has one block for each of these parts, in their order, and no other. -/
namespace SelectiveTrace.Change
variable {b : Bool} {c : Change} {cs history : List Change}

inductive Part where
  | full (c : Change) (once : c.looped = false)
  | run (cs : List Change) (ne : cs ≠ []) (looped : ∀ c ∈ cs, c.looped = true)

namespace Part

def changes : Part → List Change
  | full c _ => [c]
  | run cs _ _ => cs

def isRun : Part → Bool
  | full .. => false
  | run .. => true

def text : Part → String
  | full c _ => c.block
  | run .. => loopMark

@[simp] theorem changes_full (once : c.looped = false) : (full c once).changes = [c] := rfl

@[simp] theorem isRun_full (once : c.looped = false) : (full c once).isRun = false := rfl

@[simp] theorem changes_run (ne : cs ≠ []) (looped : ∀ c ∈ cs, c.looped = true) :
    (run cs ne looped).changes = cs := rfl

@[simp] theorem isRun_run (ne : cs ≠ []) (looped : ∀ c ∈ cs, c.looped = true) :
    (run cs ne looped).isRun = true := rfl

end Part

/-- The parts make up the history, and their runs are the longest ones: no two stand side by side. -/
structure Divide (parts : List Part) (history : List Change) : Prop where
  whole : parts.flatMap Part.changes = history
  longest : parts.IsChain fun p q => ¬ (p.isRun = true ∧ q.isRun = true)

def rises (b : Bool) (flags : List Bool) : Nat :=
  ((b :: flags).zip flags).count (false, true)

def runs (history : List Change) : Nat :=
  rises false (history.map Change.looped)

theorem rises_cons (b f : Bool) (fs : List Bool) :
    rises b (f :: fs) = (if b = false ∧ f = true then 1 else 0) + rises f fs := by
  cases b <;> cases f <;> simp [rises, Nat.add_comm]

def StartsAnew (b : Bool) (parts : List Part) : Prop :=
  b = true → ∀ q ∈ parts.head?, q.isRun = false

theorem startsAnew_false (parts : List Part) : StartsAnew false parts := by
  intro h
  cases h

theorem startsAnew_nil (b : Bool) : StartsAnew b [] := by
  rintro - q ⟨⟩

theorem startsAnew_full (b : Bool) (once : c.looped = false) (parts : List Part) :
    StartsAnew b (.full c once :: parts) := by
  rintro - q ⟨⟩
  rfl

/-- The parts of a history are those of its rest behind a first one. -/
theorem divide_cons {p : Part} {parts : List Part} :
    Divide (p :: parts) history ↔
      ∃ rest, history = p.changes ++ rest ∧ Divide parts rest ∧ StartsAnew p.isRun parts := by
  constructor
  · rintro ⟨whole, longest⟩
    obtain ⟨hfirst, hrest⟩ := List.isChain_cons.mp longest
    refine ⟨parts.flatMap Part.changes, whole.symm, ⟨rfl, hrest⟩, fun hp q hq => ?_⟩
    simpa [hp] using hfirst q hq
  · rintro ⟨rest, rfl, ⟨rfl, hrest⟩, hanew⟩
    refine ⟨rfl, List.isChain_cons.mpr ⟨fun q hq hboth => ?_, hrest⟩⟩
    have hq' := hanew hboth.1 q hq
    rw [hboth.2] at hq'
    cases hq'

section looped

theorem blocks_cons_looped (hc : c.looped = true) (b : Bool) (cs : List Change) :
    blocks b (c :: cs) = (if b then [] else [loopMark]) ++ blocks true cs := by
  simp [blocks, hc]

theorem blocks_cons_once (hc : c.looped = false) (b : Bool) (cs : List Change) :
    blocks b (c :: cs) = c.block :: blocks false cs := by
  simp [blocks, hc]

/-- A run tells nothing more once its marker stands. -/
theorem blocks_append_looped (looped : ∀ c ∈ cs, c.looped = true) (rest : List Change) :
    blocks true (cs ++ rest) = blocks true rest := by
  induction cs with
  | nil => rfl
  | cons c cs ih =>
    rw [List.forall_mem_cons] at looped
    rw [List.cons_append, blocks_cons_looped looped.1, ih looped.2]
    rfl

theorem rises_append_looped (looped : ∀ c ∈ cs, c.looped = true) (rest : List Change) :
    rises true ((cs ++ rest).map Change.looped) = rises true (rest.map Change.looped) := by
  induction cs with
  | nil => rfl
  | cons c cs ih =>
    rw [List.forall_mem_cons] at looped
    rw [List.cons_append, List.map_cons, looped.1, rises_cons, ih looped.2]
    simp

/-- What is told of changes behind others is not changed by those. -/
theorem blocks_append_congr {xs ys : List Change} (same : ∀ b, blocks b xs = blocks b ys)
    (before : List Change) (b : Bool) : blocks b (before ++ xs) = blocks b (before ++ ys) := by
  induction before generalizing b with
  | nil => exact same b
  | cons c before ih => simp only [List.cons_append, blocks, ih]

end looped

namespace Divide
variable {parts : List Part}

theorem nil (h : Divide [] history) : history = [] :=
  h.whole.symm

/-- One block for each part. -/
theorem blocks_eq (h : Divide parts history) (anew : StartsAnew b parts) :
    blocks b history = parts.map Part.text := by
  induction parts generalizing b history with
  | nil =>
    rw [h.nil]
    rfl
  | cons p parts ih =>
    obtain ⟨rest, rfl, hrest, hanew⟩ := divide_cons.mp h
    cases p with
    | full c once =>
      exact (blocks_cons_once once b rest).trans (congrArg _ (ih hrest (startsAnew_false parts)))
    | run cs ne looped =>
      cases b with
      | true => cases anew rfl _ rfl
      | false =>
        obtain ⟨c, more, rfl⟩ := List.exists_cons_of_ne_nil ne
        rw [List.forall_mem_cons] at looped
        have htail : Change.blocks true (more ++ rest) = parts.map Part.text :=
          (blocks_append_looped looped.2 rest).trans (ih hrest hanew)
        exact (blocks_cons_looped looped.1 false _).trans (congrArg _ htail)

theorem rises_eq (h : Divide parts history) (anew : StartsAnew b parts) :
    rises b (history.map Change.looped) = parts.countP Part.isRun := by
  induction parts generalizing b history with
  | nil =>
    rw [h.nil]
    rfl
  | cons p parts ih =>
    obtain ⟨rest, rfl, hrest, hanew⟩ := divide_cons.mp h
    cases p with
    | full c once =>
      have htail := ih hrest (startsAnew_false parts)
      simp [rises_cons, once, htail]
    | run cs ne looped =>
      cases b with
      | true => cases anew rfl _ rfl
      | false =>
        obtain ⟨c, more, rfl⟩ := List.exists_cons_of_ne_nil ne
        rw [List.forall_mem_cons] at looped
        have htail := (rises_append_looped looped.2 rest).trans (ih hrest hanew)
        simp only [List.map_append] at htail
        rw [List.countP_cons_of_pos rfl]
        simp [rises_cons, looped.1, htail, Nat.add_comm]

/-- Every change that is not looped is a part. -/
theorem countP_eq (h : Divide parts history) :
    history.countP (fun c => !c.looped) = parts.countP fun p => !p.isRun := by
  induction parts generalizing history with
  | nil =>
    rw [h.nil]
    rfl
  | cons p parts ih =>
    obtain ⟨rest, rfl, hrest, -⟩ := divide_cons.mp h
    rw [List.countP_append, ih hrest]
    cases p with
    | full c once => simp [once, Nat.add_comm]
    | run cs ne looped =>
      have hnone : cs.countP (fun c => !c.looped) = 0 := by simpa using looped
      simp [hnone]

end Divide

def grow (c : Change) (parts : List Part) : List Part :=
  if hc : c.looped = true then
    match parts with
    | .run cs _ looped :: parts => .run (c :: cs) (by simp) (by simpa using ⟨hc, looped⟩) :: parts
    | parts => .run [c] (by simp) (by simpa using hc) :: parts
  else .full c (by simpa using hc) :: parts

theorem grow_of_once (once : c.looped = false) (parts : List Part) :
    grow c parts = .full c once :: parts := by
  simp [grow, once]

theorem grow_run (hc : c.looped = true) (ne : cs ≠ []) (looped : ∀ d ∈ cs, d.looped = true)
    (parts : List Part) :
    grow c (.run cs ne looped :: parts) =
      .run (c :: cs) (by simp) (by simpa using ⟨hc, looped⟩) :: parts := by
  simp [grow, hc]

theorem grow_of_anew (hc : c.looped = true) {parts : List Part} (anew : StartsAnew true parts) :
    grow c parts = .run [c] (by simp) (by simpa using hc) :: parts := by
  cases parts with
  | nil => simp [grow, hc]
  | cons p parts =>
    cases p with
    | full d once => simp [grow, hc]
    | run cs ne looped => cases anew rfl _ rfl

def parts (history : List Change) : List Part :=
  history.foldr grow []

theorem divide_grow {ps : List Part} (h : Divide ps history) (c : Change) :
    Divide (grow c ps) (c :: history) := by
  cases hc : c.looped with
  | false =>
    rw [grow_of_once hc]
    exact divide_cons.mpr ⟨history, rfl, h, startsAnew_false ps⟩
  | true =>
    cases ps with
    | nil =>
      rw [grow_of_anew hc (startsAnew_nil true)]
      exact divide_cons.mpr ⟨history, rfl, h, startsAnew_nil true⟩
    | cons p ps =>
      cases p with
      | full d once =>
        rw [grow_of_anew hc (startsAnew_full true once ps)]
        exact divide_cons.mpr ⟨history, rfl, h, startsAnew_full true once ps⟩
      | run cs ne looped =>
        obtain ⟨rest, rfl, hrest, hanew⟩ := divide_cons.mp h
        rw [grow_run hc]
        exact divide_cons.mpr ⟨rest, rfl, hrest, hanew⟩

theorem divide_parts (history : List Change) : Divide (parts history) history := by
  induction history with
  | nil => exact ⟨rfl, .nil⟩
  | cons c history ih => exact divide_grow ih c

/-- A run grows change by change. -/
theorem foldr_grow_run {ps : List Part} (anew : StartsAnew true ps) (ne : cs ≠ [])
    (looped : ∀ c ∈ cs, c.looped = true) : cs.foldr grow ps = .run cs ne looped :: ps := by
  induction cs with
  | nil => exact absurd rfl ne
  | cons c cs ih =>
    have hall := List.forall_mem_cons.mp looped
    cases cs with
    | nil => exact grow_of_anew hall.1 anew
    | cons d cs => rw [List.foldr_cons, ih (by simp) hall.2, grow_run hall.1]

/-- A history has no other parts. -/
theorem Divide.eq_parts {ps : List Part} (h : Divide ps history) : ps = parts history := by
  induction ps generalizing history with
  | nil =>
    rw [h.nil]
    rfl
  | cons p ps ih =>
    obtain ⟨rest, rfl, hrest, hanew⟩ := divide_cons.mp h
    rw [parts, List.foldr_append, ← parts, ← ih hrest]
    cases p with
    | full c once => exact (grow_of_once once ps).symm
    | run cs ne looped => exact (foldr_grow_run hanew ne looped).symm

end Change

namespace VariableTracer
open Change

/-- Whatever the history of a tracer is, it falls into parts in one way: changes told in full, and longest
runs of looped ones. The report joins one block for each part in order, the whole change or the loop marker,
so it has as many as there are changes that are not looped and runs that start. One more looped change
beside another one does not show. -/
theorem report_collapses_runs (t : VariableTracer) :
    (∃ parts, Divide parts t.history ∧ (∀ others, Divide others t.history → others = parts) ∧
      t.report = "\n".intercalate (parts.map Part.text) ∧
      parts.length = t.history.countP (fun c => !c.looped) + runs t.history) ∧
    ∀ before c after, t.history = before ++ c :: after → c.looped = true →
      ∀ d : Change, d.looped = true →
        { t with history := before ++ c :: d :: after }.report = t.report ∧
        { t with history := before ++ d :: c :: after }.report = t.report := by
  refine ⟨⟨parts t.history, divide_parts t.history, fun others h => h.eq_parts, ?_, ?_⟩, ?_⟩
  · have hblocks := (divide_parts t.history).blocks_eq (startsAnew_false _)
    exact congrArg "\n".intercalate hblocks
  · have hruns := (divide_parts t.history).rises_eq (startsAnew_false _)
    have hsplit := List.length_eq_countP_add_countP Part.isRun (l := parts t.history)
    rw [(divide_parts t.history).countP_eq, runs, hruns, hsplit, Nat.add_comm]
    simp
  · intro before c after hhistory hc d hd
    have hbeside : ∀ x y : Change, x.looped = true → y.looped = true → ∀ b,
        blocks b (x :: y :: after) = blocks b (c :: after) := by
      intro x y hx hy b
      rw [blocks_cons_looped hx, blocks_cons_looped hy, blocks_cons_looped hc]
      rfl
    refine ⟨?_, ?_⟩
    · rw [report, report, hhistory]
      exact congrArg "\n".intercalate (blocks_append_congr (hbeside c d hc hd) before false)
    · rw [report, report, hhistory]
      exact congrArg "\n".intercalate (blocks_append_congr (hbeside d c hd hc) before false)

def changeOf (value : String) (looped : Bool) : Change :=
  ⟨⟨"/p.py"⟩, .single 3, value, "x = x + 1", looped⟩

/-- Runs stand at the start and at the end, and a longer one grows. -/
theorem report_collapses_runs_of_outer_runs :
    let l := changeOf "[Value] 1" true
    let c := changeOf "[Value] 2" false
    let t : VariableTracer :=
      { entry := ⟨"/p.py"⟩, file := none, name := "x", scope := none, loopLimit := 1
        resolver := ⟨fun _ _ w => (.ok none, w)⟩, history := [l, l, c, c, l] }
    t.history = [l] ++ l :: [c, c, l] ∧ l.looped = true ∧ runs t.history = 2 ∧
      t.report = "\n".intercalate [loopMark, c.block, c.block, loopMark] ∧
      { t with history := [l] ++ l :: l :: [c, c, l] }.report = t.report := by
  intro l c t
  have hgrown := (report_collapses_runs t).2 [l] l [c, c, l] rfl rfl l rfl
  exact ⟨rfl, rfl, by decide, rfl, hgrown.1⟩

end VariableTracer
end SelectiveTrace
