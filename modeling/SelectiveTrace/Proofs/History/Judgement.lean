import SelectiveTrace.Proofs.Script.Abreast

/-! What is judged of a variable by one run of a program, against the history that the scoped tracer
takes of the same run. -/
namespace SelectiveTrace

theorem VariableRequest.of_location {r : VariableRequest} {w : Surroundings} {file : Path} {line : Nat}
    (h : r.location w = .ok (some (file, line))) : r.file = some file ∧ r.line = some line := by
  unfold location at h
  split at h
  next file' line' hf hl =>
    split at h
    · cases h
    · split at h
      · cases h
      · cases h
        exact ⟨hf, hl⟩
  · cases h

namespace VariableTracer

def inScope (r : VariableRequest) (resolver : Resolver) (limit : Nat) (scope : LineSpan) :
    VariableTracer :=
  { entry := r.entry, file := r.file, name := r.name, scope := some scope, loopLimit := limit, resolver }

theorem ofRequest_of_method {r : VariableRequest} {resolver : Resolver} {limit : Nat}
    {w w' : Surroundings} {file : Path} {line : Nat} {scope : LineSpan}
    (located : r.location w = .ok (some (file, line)))
    (inMethod : resolver.ask (.belongingMethod line) file w = (.ok (some scope), w')) :
    ofRequest r false resolver limit w = (.ok (inScope r resolver limit scope), w') := by
  unfold ofRequest scopeOf
  rw [located]
  dsimp only
  rw [inMethod]
  rfl

end VariableTracer

/-- The probe and the tracer of one request agree before the first event. -/
theorem agree_initially {r : VariableRequest} {resolver : Resolver} {w : Surroundings}
    {file : Path} {line : Nat} (located : r.location w = .ok (some (file, line)))
    (answers : resolver.IsTotal) (limit : Nat) (scope : LineSpan) (dropped : Prop) :
    Agree { entry := r.entry, file, name := r.name, scope }
      (VariableTracer.inScope r resolver limit scope) dropped := by
  have hwatched : (VariableTracer.inScope r resolver limit scope).watched = file := by
    unfold VariableTracer.watched VariableTracer.inScope
    rw [(VariableRequest.of_location located).1]
    rfl
  exact ⟨answers, rfl, hwatched, rfl, rfl, rfl, rfl, by simp [VariableTracer.inScope],
    Or.inr (by simp [VariableTracer.inScope])⟩

namespace Program
variable {program : Program}

/-- Runs that start abreast of each other, in whatever surroundings. -/
theorem abreast_restart (s : Scene) (v w : Surroundings) {p : Probe} {t : VariableTracer}
    (h : Agree p t (Recorder.SawDrop {})) :
    Scene.Abreast (s.restart hookName (.recorder {})) ((s.setAround v).restart hookName (.probe p))
      ((s.setAround w).restart hookName (.history t)) :=
  ⟨rfl, rfl, {}, p, t, rfl, rfl, rfl, ⟨rfl, rfl⟩, h⟩

/-- A run under the recorder that ends tells how the runs under the probe and the tracer end. -/
theorem runUnder_abreast {s s₀ : Scene} {v w : Surroundings} {p : Probe} {t : VariableTracer}
    {failure : Option Raised} {seen : Recorder} (h : Agree p t (Recorder.SawDrop {}))
    (ends : program.runUnder (.recorder {}) s = .ok (failure, .recorder seen, s₀)) :
    ∃ p' s₁ t' s₂, program.runUnder (.probe p) (s.setAround v) = .ok (failure, .probe p', s₁) ∧
      program.runUnder (.history t) (s.setAround w) = .ok (failure, .history t', s₂) ∧
      Agree p' t' seen.SawDrop := by
  obtain ⟨exit, a, b, c, ha, hb, hc, habreast⟩ :=
    (Scene.inStep_runAll program).under hookName (abreast_restart s v w h)
  obtain ⟨r, p', t', ht⟩ := habreast.attends
  unfold runUnder at ends ⊢
  rw [ha] at ends
  rw [hb, hc]
  dsimp only at ends ⊢
  rw [ht.recorder] at ends
  rw [ht.probe, ht.tracer]
  have hseen : ∀ hook : Hook, (Bindings.get? hookName [(hookName, hook)]).getD hook = hook := by
    simp [Bindings.get?]
  cases exit with
  | panicked text => cases ends
  | done =>
    cases ends
    exact ⟨p', b, t', c, rfl, rfl, ht.agree⟩
  | failed e =>
    cases ends
    exact ⟨p', b, t', c, rfl, rfl, ht.agree⟩

/-- A variable whose line lies in a method is judged to be local if and only if the scoped tracer, on
a fresh machine and in surroundings in which the request is as valid, ends the same run with something
in its history. A run is any program, with whatever frames, threads and hooks of its own, that
ends; a recorder that goes along with everything sees no generator dropped in it. -/
theorem judged_local_iff_history {r : VariableRequest} {resolver : Resolver} (limit : Nat)
    {s s₀ : Scene} {v v' w : Surroundings} {file : Path} {line : Nat} {scope : LineSpan}
    {failure : Option Raised} {seen : Recorder}
    (located : r.location s.around = .ok (some (file, line)))
    (inMethod : resolver.ask (.belongingMethod line) file s.around = (.ok (some scope), v))
    (located' : r.location v' = .ok (some (file, line)))
    (inMethod' : resolver.ask (.belongingMethod line) file v' = (.ok (some scope), w))
    (answers : resolver.IsTotal)
    (ends : program.runUnder (.recorder {}) s = .ok (failure, .recorder seen, s₀))
    (keepsGenerators : ∀ x ∈ seen.sightings, x.event ≠ Event.discard.name) :
    ∃ isGlobal s₁ t t' s₂, program.judgeGlobal r resolver s = .ok (isGlobal, s₁) ∧
      VariableTracer.ofRequest r false resolver limit v' = (.ok t, w) ∧ t.scope = some scope ∧
      program.runUnder (.history t) (s.setAround w) = .ok (failure, .history t', s₂) ∧
      (isGlobal = false ↔ t'.history ≠ []) := by
  have hagree := agree_initially located answers limit scope (Recorder.SawDrop {})
  obtain ⟨p', s₁, t', s₂, hprobe, htracer, hend⟩ :=
    runUnder_abreast (v := v) (w := w) hagree ends
  refine ⟨p'.isGlobal, s₁, _, t', s₂, ?_, VariableTracer.ofRequest_of_method located' inMethod', rfl,
    htracer, ?_⟩
  · have hask : ask resolver (.belongingMethod line) file s = .ok (some scope, s.setAround v) := by
      unfold ask
      rw [inMethod]
    unfold judgeGlobal
    rw [located]
    simp only [hask, bind, Except.bind, hprobe]
    rfl
  · refine hend.verdict.resolve_left ?_
    rintro ⟨x, hx, hd⟩
    exact keepsGenerators x hx hd

def secondTry : Program :=
  let f : Code := ⟨"f", ⟨"/p.py"⟩, 1⟩
  [.act (.host (some "a") (.call f [])), .act (.host none (.line "a" 2)),
    .act (.host none (.raise "a" ⟨"ValueError", "no"⟩)),
    .thread "worker" none [.trace hookName
      [.act (.host (some "b") (.call f [])), .act (.host none (.line "b" 2)),
        .act (.host none (.setLocal "b" "x" (.int 1))), .act (.host none (.line "b" 3)),
        .act (.host none (.ret "b" (.int 1)))]],
    .act (.fail ⟨"KeyError", ""⟩)]

def secondTryScene : Scene :=
  { audience := { around := { disk := {
      entries := (⟨[]⟩ : Table _ _).insert ["p.py"]
        (.file "def f():\n    x = g()\n    return x\n".toUTF8) } } } }

theorem secondTry_recorded :
    (match secondTry.runUnder (.recorder {}) secondTryScene with
      | .ok (some e, .recorder seen, _) => e = ⟨"KeyError", ""⟩ && seen.sightings.length = 7 &&
        seen.sightings.all (·.event ≠ Event.discard.name)
      | _ => false) = true := by
  unfold runUnder secondTry
  simp only [SelectiveTrace.runUnder, runAll, Step.run]
  decide +kernel

theorem judged_local_by_second_try :
    let r : VariableRequest :=
      { entry := ⟨"/p.py"⟩, name := "x", file := some ⟨"/p.py"⟩, line := some 2 }
    let resolver : Resolver := .tabled [] [(⟨"/p.py"⟩, [("2", ⟨1, 3⟩)])] [] false
    let s := secondTryScene
    let w := s.around
    r.location w = .ok (some (⟨"/p.py"⟩, 2)) ∧
      resolver.ask (.belongingMethod 2) ⟨"/p.py"⟩ w = (.ok (some ⟨1, 3⟩), w) ∧ resolver.IsTotal ∧
      (∃ seen s₀, secondTry.runUnder (.recorder {}) s =
          .ok (some ⟨"KeyError", ""⟩, .recorder seen, s₀) ∧
        seen.sightings.length = 7 ∧ ∀ x ∈ seen.sightings, x.event ≠ Event.discard.name) ∧
      ∃ s₁ t t' s₂, secondTry.judgeGlobal r resolver s = .ok (false, s₁) ∧
        VariableTracer.ofRequest r false resolver 4 w = (.ok t, w) ∧
        secondTry.runUnder (.history t) (s.setAround w) =
          .ok (some ⟨"KeyError", ""⟩, .history t', s₂) ∧ t'.history ≠ [] := by
  intro r resolver s w
  have located : r.location w = .ok (some (⟨"/p.py"⟩, 2)) := by
    have h : (r.location w).toOption = some (some (⟨"/p.py"⟩, 2)) := by decide +kernel
    cases hl : r.location w with
    | error e =>
      rw [hl] at h
      cases h
    | ok location =>
      rw [hl] at h
      exact congrArg Except.ok (Option.some.inj h)
  have found : Resolver.Ranges.find? [(⟨"/p.py"⟩, [("2", ⟨1, 3⟩)])] ⟨"/p.py"⟩
      (ScopeQuery.belongingMethod 2).param = some ⟨1, 3⟩ := by decide +kernel
  have inMethod : resolver.ask (.belongingMethod 2) ⟨"/p.py"⟩ w = (.ok (some ⟨1, 3⟩), w) := by
    simp only [resolver, Resolver.tabled, found]
  have answers : resolver.IsTotal := by
    intro query file w
    cases query <;> exact ⟨_, w, rfl⟩
  have ends : ∃ seen s₀, secondTry.runUnder (.recorder {}) s =
      .ok (some ⟨"KeyError", ""⟩, .recorder seen, s₀) ∧ seen.sightings.length = 7 ∧
        ∀ x ∈ seen.sightings, x.event ≠ Event.discard.name := by
    have h := secondTry_recorded
    split at h
    next e seen s₀ hrun =>
      simp only [Bool.and_eq_true, decide_eq_true_eq, List.all_eq_true] at h
      obtain ⟨⟨rfl, hlen⟩, hall⟩ := h
      exact ⟨seen, s₀, hrun, hlen, hall⟩
    next => cases h
  refine ⟨located, inMethod, answers, ends, ?_⟩
  obtain ⟨seen, s₀, hrun, -, keeps⟩ := ends
  obtain ⟨isGlobal, s₁, t, t', s₂, hjudged, hmade, -, htraced, hiff⟩ :=
    judged_local_iff_history 4 located inMethod located inMethod answers hrun keeps
  have hlocal : (secondTry.judgeGlobal r resolver s).toOption.map (·.1) = some false := by
    unfold judgeGlobal ask
    rw [located]
    dsimp only
    rw [inMethod]
    unfold runUnder secondTry
    simp only [SelectiveTrace.runUnder, runAll, Step.run]
    decide +kernel
  rw [hjudged] at hlocal
  cases hlocal
  exact ⟨s₁, t, t', s₂, hjudged, hmade, htraced, hiff.mp rfl⟩

end Program
end SelectiveTrace
