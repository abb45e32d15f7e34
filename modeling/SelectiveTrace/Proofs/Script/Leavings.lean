import Mathlib.Data.List.Induction
import SelectiveTrace.Proofs.Script.Tended

/-! What a block leaves with its tracer. The end of a block takes the frame, its variables and its clock
away, but not its hits: the frame keeps those that were counted since it was released the last time,
and while it is attached no end of it releases it. -/
namespace SelectiveTrace
namespace Move
variable {s : Scene} {name : HookName} {t : Tracer} {c : TracerConfig} {f : FrameId}
  {moves : List Move} {move : Move}

def LeavesHits (name : HookName) (f : FrameId) (s : Scene) (moves : List Move) : Prop :=
  ∃ done hit later, moves = done ++ hit :: later ∧ hit.counts name f (after s done) = true ∧
    ∀ mid next, mid ++ [next] <+: later →
      next.forgets name f (after s (done ++ hit :: mid)) = false

theorem not_leavesHits_nil : ¬ LeavesHits name f s [] := by
  rintro ⟨done, hit, later, hm, -⟩
  simp at hm

theorem leavesHits_concat : LeavesHits name f s (moves ++ [move]) ↔
    move.counts name f (after s moves) = true ∨
      LeavesHits name f s moves ∧ move.forgets name f (after s moves) = false := by
  constructor
  · rintro ⟨done, hit, later, hm, counted, kept⟩
    cases later using List.reverseRecOn with
    | nil =>
      obtain ⟨rfl, hit⟩ := List.append_inj' hm rfl
      obtain rfl := List.singleton_inj.mp hit
      exact .inl counted
    | append_singleton later last =>
      rw [← List.cons_append, ← List.append_assoc] at hm
      obtain ⟨rfl, hlast⟩ := List.append_inj' hm rfl
      obtain rfl := List.singleton_inj.mp hlast
      refine .inr ⟨⟨done, hit, later, rfl, counted, fun mid next hnext => ?_⟩, ?_⟩
      · exact kept mid next (hnext.trans (List.prefix_append later _))
      · exact kept later move List.prefix_rfl
  · rintro (counted | ⟨⟨done, hit, later, rfl, counted, kept⟩, last⟩)
    · refine ⟨moves, move, [], rfl, counted, fun mid next hnext => ?_⟩
      simp at hnext
    · refine ⟨done, hit, later ++ [move], by simp, counted, fun mid next hnext => ?_⟩
      rcases List.prefix_concat_iff.mp hnext with hnext | hnext
      · obtain ⟨rfl, hlast⟩ := List.append_inj' hnext rfl
        obtain rfl := List.singleton_inj.mp hlast
        exact last
      · exact kept mid next hnext

/-- The hits that are kept for a frame are those that moves have left. -/
theorem lineHits_after (known : s.tracer? name = some t) (fit : t.IsFit c)
    (fresh : t.session.lineHits.contains f = false) (moves : List Move) :
    ∃ t', (after s moves).tracer? name = some t' ∧ t'.IsFit c ∧
      (t'.session.lineHits.contains f = true ↔ LeavesHits name f s moves) := by
  induction moves using List.reverseRecOn with
  | nil =>
    refine ⟨t, known, fit, ?_⟩
    rw [fresh]
    exact iff_of_false Bool.false_ne_true not_leavesHits_nil
  | append_singleton moves move ih =>
    obtain ⟨u, hu, hfit, hhits⟩ := ih
    refine ⟨move.change (after s moves) name u, ?_, isFit_change hfit _ name move, ?_⟩
    · rw [after_append]
      exact tracer?_apply hu move
    · rw [lineHits_change hu hfit move, leavesHits_concat, ← hhits]
      simp

theorem isSome_hitLimit_of_counts (known : s.tracer? name = some t) (fit : t.IsFit c)
    (counted : move.counts name f s = true) : c.hitLimit.isSome = true := by
  cases move with
  | operate op =>
    rw [counts, known] at counted
    simp only [Option.any_some, Option.any_eq_true, Bool.and_eq_true] at counted
    obtain ⟨ctx, -, -, hit⟩ := counted
    unfold Tracer.counts at hit
    rw [fit.config] at hit
    simp only [Bool.and_eq_true] at hit
    exact hit.1.1
  | _ => cases counted

end Move

open Move

/-- A tracer without a region, whose renderers do not fail, and a frame that it keeps nothing for. After a
block on that frame, whatever the block encloses and however it ends, the frame is not attached and has
no variables and no clock; hits are kept for it just if the block has left some, which takes a limit. -/
theorem block_leaves_hits_only {s : Scene} {name : HookName} {t : Tracer} {f : FrameId}
    (enabled : s.isDisabled = false) (known : s.tracer? name = some t) (region : t.observed = none)
    (total : t.renderer.IsTotal) (current : s.machine.current = some f)
    (fresh : ¬ t.session.Remembers f) (body : Program) :
    ∃ t', ((Step.snoop name body).run s).2.tracer? name = some t' ∧
      f ∉ t'.session.targetFrames ∧ t'.session.snapshots.contains f = false ∧
      t'.session.timers.contains f = false ∧
      (t'.session.lineHits.contains f = true ↔
        LeavesHits name f s.stand ((Step.snoop name body).moves s)) ∧
      (t.config.hitLimit = none → ¬ t'.session.Remembers f) := by
  have fit : t.IsFit t.config := ⟨rfl, region, total⟩
  have hnohits : t.session.lineHits.contains f = false := by
    unfold Session.Remembers at fresh
    simp only [not_or, Bool.not_eq_true] at fresh
    exact fresh.2.2.1
  have hmoves := Step.moves_snoop name body enabled current
  generalize begin_ name f :: movesUnder name body (s.beginBlock name) = before at hmoves
  have hstand := Step.stand_run (Step.snoop name body) s
  obtain ⟨t', hknown, hfit, hhits⟩ := lineHits_after (s := s.stand) (f := f) known fit hnohits
    ((Step.snoop name body).moves s)
  -- the last move is the end of the block
  obtain ⟨u, hu, hufit⟩ := isFit_after (s := s.stand) known fit before
  have hend : t'.session = ((u.session.detach f).dropSnapshot f).dropTimer f := by
    have hlast := tracer?_apply hu (.exit name f)
    rw [hmoves, after_append] at hknown
    rw [Option.some.inj (hknown.symm.trans hlast), change, if_pos rfl]
    exact congrArg (·.1.session) (Tracer.exit_eq hufit.observed _ _ f)
  have hframes : f ∉ t'.session.targetFrames := by
    rw [hend]
    exact fun h => (Session.mem_detach.mp h).2 rfl
  have hsnapshot : t'.session.snapshots.contains f = false := by
    rw [hend]
    simp [Session.dropTimer, Session.dropSnapshot, Table.contains_erase]
  have htimer : t'.session.timers.contains f = false := by
    rw [hend]
    simp [Session.dropTimer, Table.contains_erase]
  refine ⟨t', ?_, hframes, hsnapshot, htimer, hhits, fun unlimited remembers => ?_⟩
  · rw [← hstand] at hknown
    exact hknown
  · rcases remembers with h | h | h | h
    · exact hframes h
    · rw [hsnapshot] at h
      cases h
    · obtain ⟨done, hit, later, -, counted, -⟩ := hhits.mp h
      obtain ⟨v, hv, hvfit⟩ := isFit_after (s := s.stand) known fit done
      have hlimit := isSome_hitLimit_of_counts hv hvfit counted
      rw [unlimited] at hlimit
      cases hlimit
    · rw [htimer] at h
      cases h

theorem block_leaves_hits_only_of_panic :
    let s := Scene.ofRunning { loopLimit := some 2 }
    let block := Step.snoop "T" [.act (.host none (.line "a" 2)), .act (.panic "boom")]
    (block.run s).1 = .panicked "boom" ∧ ∃ t', (block.run s).2.tracer? "T" = some t' ∧
      ⟨0, 0⟩ ∉ t'.session.targetFrames ∧ t'.session.snapshots.contains ⟨0, 0⟩ = false ∧
      t'.session.timers.contains ⟨0, 0⟩ = false ∧
      t'.session.lineHits.contains ⟨0, 0⟩ = true ∧
      LeavesHits "T" ⟨0, 0⟩ s.stand (block.moves s) := by
  intro s block
  have total : Renderer.IsTotal {} := Renderer.isTotal_of_custom (by simp)
  have fresh : ¬ ({} : Session).Remembers ⟨0, 0⟩ := by decide +kernel
  have hpanic : (block.run s).1 = .panicked "boom" := by
    unfold block
    simp only [runAll, Step.run, runUnder]
    decide +kernel
  have hleft : ((block.run s).2.tracer? "T").any (·.session.lineHits.contains ⟨0, 0⟩) = true := by
    unfold block
    simp only [runAll, Step.run, runUnder]
    decide +kernel
  obtain ⟨t', hknown, hframes, hsnapshot, htimer, hhits, -⟩ :=
    @block_leaves_hits_only s "T" _ ⟨0, 0⟩ rfl rfl rfl total rfl fresh
      [.act (.host none (.line "a" 2)), .act (.panic "boom")]
  rw [show (block.run s).2.tracer? "T" = some t' from hknown, Option.any_some] at hleft
  exact ⟨hpanic, t', hknown, hframes, hsnapshot, htimer, hleft, hhits.mp hleft⟩

/-- A block on a frame that nothing was kept for, with a limit on hits; one line of the frame is shown,
and the block ends. The frame keeps its hits. -/
theorem hits_outlive_block :
    let s := Scene.ofRunning { loopLimit := some 2 }
    let block := (Step.snoop "T" [.act (.host none (.line "a" 2))]).run s
    s.isDisabled = false ∧ s.machine.current = some ⟨0, 0⟩ ∧
      (∃ t, s.tracer? "T" = some t ∧ t.observed = none ∧ t.renderer.IsTotal ∧
        t.session.targetCodes = [] ∧ ¬ t.session.Remembers ⟨0, 0⟩) ∧
      block.1 = .done ∧ ∃ t', block.2.tracer? "T" = some t' ∧
        t'.session.lineHits.contains ⟨0, 0⟩ = true := by
  intro s block
  have total : Renderer.IsTotal {} := Renderer.isTotal_of_custom (by simp)
  refine ⟨rfl, rfl, ⟨_, rfl, rfl, total, rfl, by decide +kernel⟩, ?_, ?_⟩
  · unfold block
    simp only [runAll, Step.run, runUnder]
    decide +kernel
  · have hleft : (block.2.tracer? "T").any (·.session.lineHits.contains ⟨0, 0⟩) = true := by
      unfold block
      simp only [runAll, Step.run, runUnder]
      decide +kernel
    exact (Option.any_eq_true _ _).mp hleft

end SelectiveTrace
