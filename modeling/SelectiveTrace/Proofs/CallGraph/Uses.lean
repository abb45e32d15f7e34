import Mathlib.Data.List.Induction
import SelectiveTrace.Proofs.CallGraph.Telling

/-! Call graphs under any use: calls are noted and ended for any frames and in any order, for a frame
whose call has not ended as well as for one that was never noted. A node is told by the use that opened
it and by the first end of its frame that follows, unless the frame is noted once more before. -/
namespace SelectiveTrace

inductive CallUse where
  | opens (frame : FrameId) (depth : Int) (line path : String) (starting : Option String)
  | returns (frame : FrameId) (line value : String)
  | breaksOff (frame : FrameId)

namespace CallUse

def frame : CallUse → FrameId
  | .opens f .. | .returns f .. | .breaksOff f => f

def opened? : CallUse → Option FrameId
  | .opens f .. => some f
  | .returns .. | .breaksOff _ => none

def ending? : CallUse → Option (List String)
  | .opens .. => none
  | .returns _ line value => some ["Return ... " ++ line, "Return value:.. " ++ value]
  | .breaksOff _ => some ["Call ended by exception"]

def opened (us : List CallUse) : List FrameId :=
  us.filterMap opened?

/-- Node `i` is the one opened last for the frame. -/
def IsLatest (us : List CallUse) (f : FrameId) (i : Nat) : Prop :=
  (opened us)[i]? = some f ∧ ∀ j, i < j → (opened us)[j]? ≠ some f

end CallUse

namespace CallGraph

def use (g : CallGraph) : CallUse → Except Error CallGraph
  | .opens f depth line path starting => .ok (g.openCall f depth line path starting)
  | .returns f line value => g.closeReturn f line value
  | .breaksOff f => g.closeException f

def afterUse (g : CallGraph) (u : CallUse) : CallGraph :=
  match g.use u with
  | .ok g' => g'
  | .error _ => g

def ofUses (output : Option Path) (us : List CallUse) : CallGraph :=
  us.foldl afterUse { output }

end CallGraph

namespace CallUse
open CallGraph

/-- The use, made after some others, ends the call of node `i`. -/
structure Ends (output : Option Path) (us : List CallUse) (u : CallUse) (i : Nat) : Prop where
  ending : u.ending?.isSome = true
  succeeds : ((ofUses output us).use u).isOk = true
  latest : IsLatest us u.frame i

def HasEnded (output : Option Path) (us : List CallUse) (i : Nat) : Prop :=
  ∃ before u, before ++ [u] <+: us ∧ Ends output before u i

variable {output : Option Path} {us : List CallUse} {u : CallUse} {f f' : FrameId} {i j : Nat}
  {lines : List String}

theorem opened_concat_of_opens (h : u.opened? = some f) :
    opened (us ++ [u]) = opened us ++ [f] := by
  simp [opened, h]

theorem opened_concat_of_ending (h : u.opened? = none) : opened (us ++ [u]) = opened us := by
  simp [opened, h]

theorem opened?_of_ending (h : u.ending? = some lines) : u.opened? = none := by
  cases u with
  | opens => cases h
  | returns | breaksOff => rfl

namespace IsLatest

theorem lt (h : IsLatest us f i) : i < (opened us).length :=
  (List.getElem?_eq_some_iff.mp h.1).1

/-- A frame has one latest node. -/
theorem unique (h : IsLatest us f i) (h' : IsLatest us f j) : i = j := by
  rcases Nat.lt_trichotomy i j with hlt | heq | hlt
  · exact absurd h'.1 (h.2 j hlt)
  · exact heq
  · exact absurd h.1 (h'.2 i hlt)

/-- A node is opened for one frame. -/
theorem frame_unique (h : IsLatest us f i) (h' : IsLatest us f' i) : f = f' :=
  Option.some.inj (h.1.symm.trans h'.1)

/-- The node that a use opens is the latest of its frame; the others keep theirs. -/
theorem opens_iff (h : u.opened? = some f') :
    IsLatest (us ++ [u]) f i ↔ if f = f' then i = (opened us).length else IsLatest us f i := by
  have hget : ∀ j, (opened us ++ [f'])[j]? = some f ↔
      (opened us)[j]? = some f ∨ j = (opened us).length ∧ f' = f := by
    intro j
    rw [List.getElem?_append]
    split
    next hj => simp [Nat.ne_of_lt hj]
    next hj =>
      have hnone : (opened us)[j]? = none := List.getElem?_eq_none_iff.mpr (by omega)
      simp only [hnone, reduceCtorEq, false_or, List.getElem?_singleton]
      split <;> simp <;> omega
  unfold IsLatest
  rw [opened_concat_of_opens h]
  simp only [ne_eq, hget]
  split
  next hf =>
    subst hf
    constructor
    · rintro ⟨hi, hlast⟩
      by_contra hne
      have hlt : i < (opened us).length := by
        rcases hi with hi | hi
        · exact (List.getElem?_eq_some_iff.mp hi).1
        · exact absurd hi.1 hne
      exact hlast _ hlt (Or.inr ⟨rfl, rfl⟩)
    · rintro rfl
      refine ⟨Or.inr ⟨rfl, rfl⟩, fun j hj => ?_⟩
      rintro (hold | hnew)
      · have := (List.getElem?_eq_some_iff.mp hold).1
        omega
      · omega
  next hf =>
    simp [Ne.symm hf]

theorem ending_iff (h : u.ending? = some lines) : IsLatest (us ++ [u]) f i ↔ IsLatest us f i := by
  unfold IsLatest
  rw [opened_concat_of_ending (opened?_of_ending h)]

end IsLatest

theorem length_opened_le {before : List CallUse} (h : before <+: us) :
    (opened before).length ≤ (opened us).length :=
  (h.filterMap opened?).length_le

theorem HasEnded.lt (h : HasEnded output us i) : i < (opened us).length := by
  obtain ⟨before, u, hstart, hends⟩ := h
  exact Nat.lt_of_lt_of_le hends.latest.lt
    (length_opened_le ((List.prefix_append before [u]).trans hstart))

theorem HasEnded.mono {later : List CallUse} (h : HasEnded output us i) :
    HasEnded output (us ++ later) i := by
  obtain ⟨before, u, hstart, hends⟩ := h
  exact ⟨before, u, hstart.trans (List.prefix_append us later), hends⟩

theorem hasEnded_concat :
    HasEnded output (us ++ [u]) i ↔ HasEnded output us i ∨ Ends output us u i := by
  constructor
  · rintro ⟨before, v, hstart, hends⟩
    rcases List.prefix_concat_iff.mp hstart with heq | hstart
    · obtain ⟨rfl, hv⟩ := List.append_inj' heq rfl
      cases hv
      exact Or.inr hends
    · exact Or.inl ⟨before, v, hstart, hends⟩
  · rintro (h | h)
    · exact h.mono
    · exact ⟨us, u, List.prefix_refl _, h⟩

end CallUse

namespace CallNode

inductive IsOpening : List String → Prop
  | bare (line path : String) : IsOpening ["Call ... " ++ line, "Source path:... " ++ path]
  | started (line path vars : String) :
    IsOpening ["Call ... " ++ line, "Source path:... " ++ path, "Starting var:.. " ++ vars]

/-- The lines that follow them, where the call runs and where it has ended. -/
inductive IsEnding : List String → Prop
  | running : IsEnding []
  | returned (line value : String) : IsEnding ["Return ... " ++ line, "Return value:.. " ++ value]
  | brokenOff : IsEnding ["Call ended by exception"]

def IsGrammatical (n : CallNode) : Prop :=
  ∃ first last, IsOpening first ∧ IsEnding last ∧ n.content = first ++ last

theorem opening_eq (line path : String) (starting : Option String) :
    opening line path starting = ("Call ... " ++ line) :: ("Source path:... " ++ path) ::
      (starting.map ("Starting var:.. " ++ ·)).toList := rfl

theorem isOpening_opening (line path : String) (starting : Option String) :
    IsOpening (opening line path starting) := by
  rw [opening_eq]
  cases starting with
  | none => exact .bare line path
  | some vars => exact .started line path vars

theorem isEnding_of_ending {u : CallUse} {lines : List String} (h : u.ending? = some lines) :
    IsEnding lines := by
  cases u with
  | opens => cases h
  | returns f line value =>
    cases h
    exact .returned line value
  | breaksOff f =>
    cases h
    exact .brokenOff

/-- A node with anything behind its first lines is closed. -/
theorem IsEnding.eq_nil_or_isClosed {last : List String} (h : IsEnding last) (n : CallNode) :
    last = [] ∨ (n.add last).isClosed = true := by
  have hvalue : ∀ value, isClosing ("Return value:.. " ++ value) = true := isClosing_value
  have hbroken : isClosing "Call ended by exception" = true := by simp [isClosing, CallNode.brokenOff]
  cases h with
  | running => exact Or.inl rfl
  | returned line value => exact Or.inr (by simp [isClosed, CallNode.add, hvalue])
  | brokenOff => exact Or.inr (by simp [isClosed, CallNode.add, hbroken])

theorem isClosed_add {u : CallUse} {lines : List String} (h : u.ending? = some lines)
    (n : CallNode) : (n.add lines).isClosed = true := by
  refine ((isEnding_of_ending h).eq_nil_or_isClosed n).resolve_left ?_
  rintro rfl
  cases u <;> cases h

/-- An open node gets one ending. -/
theorem IsGrammatical.add {n : CallNode} (h : n.IsGrammatical) (running : n.isClosed = false)
    {lines : List String} (ending : IsEnding lines) : (n.add lines).IsGrammatical := by
  obtain ⟨first, last, hfirst, hlast, hcontent⟩ := h
  have hn : (CallNode.mk n.depth first).add last = n := by
    rw [CallNode.add, ← hcontent]
  rcases hlast.eq_nil_or_isClosed ⟨n.depth, first⟩ with rfl | hclosed
  · exact ⟨first, lines, hfirst, ending, by rw [CallNode.add, hcontent, List.append_nil]⟩
  · rw [hn, running] at hclosed
    cases hclosed

end CallNode

namespace CallGraph
open CallUse
variable {output : Option Path} {us : List CallUse} {u : CallUse} {g : CallGraph} {f : FrameId}
  {i : Nat} {lines : List String}

theorem ofUses_concat (output : Option Path) (us : List CallUse) (u : CallUse) :
    ofUses output (us ++ [u]) = (ofUses output us).afterUse u := by
  simp [ofUses]

theorem use_of_ending (h : u.ending? = some lines) : g.use u = g.close u.frame lines := by
  cases u with
  | opens => cases h
  | returns f line value =>
    cases h
    rfl
  | breaksOff f =>
    cases h
    rfl

structure Keeps (output : Option Path) (us : List CallUse) (g : CallGraph) : Prop where
  length : g.nodes.length = (opened us).length
  pending : ∀ f i, g.pending.get? f = some i ↔ IsLatest us f i ∧ ¬ HasEnded output us i
  closed : ∀ i n, g.nodes[i]? = some n → (n.isClosed = true ↔ HasEnded output us i)
  grammar : ∀ n ∈ g.nodes, n.IsGrammatical

namespace Keeps

theorem new (output : Option Path) : Keeps output [] { output } := by
  refine ⟨rfl, ?_, ?_, ?_⟩
  · intro f i
    simp [IsLatest, opened, Table.get?]
  · intro i n h
    cases h
  · intro n h
    cases h

/-- A frame that stands open has a node, which is not closed. -/
theorem running (h : Keeps output us g) (hp : g.pending.get? f = some i) :
    ∃ n, g.nodes[i]? = some n ∧ n.isClosed = false := by
  obtain ⟨hlatest, hno⟩ := (h.pending f i).mp hp
  have hlt : i < g.nodes.length := h.length ▸ hlatest.lt
  refine ⟨g.nodes[i], List.getElem?_eq_getElem hlt, ?_⟩
  rw [← Bool.not_eq_true]
  exact fun hc => hno ((h.closed i _ (List.getElem?_eq_getElem hlt)).mp hc)

/-- A use ends a call where the frame stands open and nowhere else. -/
theorem ends_iff (h : Keeps output us (ofUses output us)) (ending : u.ending? = some lines) :
    Ends output us u i ↔ (ofUses output us).pending.get? u.frame = some i := by
  constructor
  · rintro ⟨-, succeeds, latest⟩
    rw [use_of_ending ending, close] at succeeds
    cases hp : (ofUses output us).pending.get? u.frame with
    | none =>
      rw [hp] at succeeds
      cases succeeds
    | some j => rw [latest.unique ((h.pending _ j).mp hp).1]
  · intro hp
    refine ⟨by rw [ending]; rfl, ?_, ((h.pending _ i).mp hp).1⟩
    rw [use_of_ending ending, close, hp]
    rfl

/-- A call is noted. -/
theorem opens (h : Keeps output us (ofUses output us)) (depth : Int) (line path : String)
    (starting : Option String) :
    Keeps output (us ++ [.opens f depth line path starting])
      ((ofUses output us).openCall f depth line path starting) := by
  have hopened : (CallUse.opens f depth line path starting).opened? = some f := rfl
  have hended : ∀ j, HasEnded output (us ++ [.opens f depth line path starting]) j ↔
      HasEnded output us j := by
    intro j
    rw [hasEnded_concat]
    refine or_iff_left fun hends => ?_
    cases hends.ending
  refine ⟨?_, ?_, ?_, ?_⟩
  · rw [length_nodes_openCall, h.length, opened_concat_of_opens hopened, List.length_append]
    rfl
  · intro f' j
    rw [IsLatest.opens_iff hopened, hended]
    simp only [openCall, Table.get?_insert]
    split
    next =>
      rw [Option.some.injEq, h.length, eq_comm]
      refine (and_iff_left_of_imp ?_).symm
      rintro rfl hold
      exact absurd hold.lt (Nat.lt_irrefl _)
    next => exact h.pending f' j
  · intro j n hn
    rw [hended]
    by_cases hj : j < (ofUses output us).nodes.length
    · exact h.closed j n ((List.getElem?_append_left hj).symm.trans hn)
    · rw [openCall, List.getElem?_append_right (by omega), List.getElem?_singleton] at hn
      split at hn
      next =>
        cases hn
        rw [CallNode.isClosed_opening]
        refine iff_of_false (by simp) fun hold => hj ?_
        rw [h.length]
        exact hold.lt
      next => cases hn
  · intro n hn
    rcases List.mem_append.mp hn with hn | hn
    · exact h.grammar n hn
    · rw [List.mem_singleton.mp hn]
      exact ⟨_, [], CallNode.isOpening_opening line path starting, .running,
        (List.append_nil _).symm⟩

/-- A call ends. -/
theorem ends (h : Keeps output us (ofUses output us)) (ending : u.ending? = some lines)
    (hp : (ofUses output us).pending.get? u.frame = some i) :
    Keeps output (us ++ [u])
      { ofUses output us with
        nodes := (ofUses output us).nodes.modify i (·.add lines)
        pending := (ofUses output us).pending.erase u.frame } := by
  have hlatest := ((h.pending _ i).mp hp).1
  have hended : ∀ j, HasEnded output (us ++ [u]) j ↔ HasEnded output us j ∨ j = i := by
    intro j
    rw [hasEnded_concat, h.ends_iff ending, hp, Option.some.injEq, eq_comm (a := i)]
  refine ⟨?_, ?_, ?_, ?_⟩
  · rw [List.length_modify, h.length, opened_concat_of_ending (opened?_of_ending ending)]
  · intro f j
    rw [Table.get?_erase, hended, IsLatest.ending_iff ending]
    split
    next hf =>
      subst hf
      refine iff_of_false (by simp) ?_
      rintro ⟨hj, hno⟩
      exact hno (Or.inr (hj.unique hlatest))
    next hf =>
      rw [h.pending]
      refine and_congr_right fun hj => not_congr (or_iff_left ?_).symm
      rintro rfl
      exact hf (hj.frame_unique hlatest)
  · intro j n hn
    rw [hended]
    rw [List.getElem?_modify] at hn
    obtain ⟨n', hn', rfl⟩ := Option.map_eq_some_iff.mp hn
    by_cases hj : i = j
    · subst hj
      simp [CallNode.isClosed_add ending]
    · simp [hj, Ne.symm hj, h.closed j n' hn']
  · intro n hn
    obtain ⟨n₀, hn₀, hopen⟩ := h.running hp
    obtain ⟨j, hj⟩ := List.mem_iff_getElem?.mp hn
    rw [List.getElem?_modify] at hj
    obtain ⟨n', hn', rfl⟩ := Option.map_eq_some_iff.mp hj
    have hgrammar := h.grammar n' (List.mem_iff_getElem?.mpr ⟨j, hn'⟩)
    by_cases hij : i = j
    · subst hij
      rw [hn₀] at hn'
      cases hn'
      simpa using hgrammar.add hopen (CallNode.isEnding_of_ending ending)
    · simpa [hij] using hgrammar

/-- An end that fails. -/
theorem fails (h : Keeps output us (ofUses output us)) (ending : u.ending? = some lines)
    (hp : (ofUses output us).pending.get? u.frame = none) :
    Keeps output (us ++ [u]) (ofUses output us) := by
  have hended : ∀ j, HasEnded output (us ++ [u]) j ↔ HasEnded output us j := by
    intro j
    rw [hasEnded_concat, h.ends_iff ending, hp]
    simp
  refine ⟨?_, ?_, ?_, h.grammar⟩
  · rw [h.length, opened_concat_of_ending (opened?_of_ending ending)]
  · intro f j
    rw [hended, IsLatest.ending_iff ending, h.pending]
  · intro j n hn
    rw [hended, h.closed j n hn]

end Keeps

theorem keeps_ofUses (output : Option Path) (us : List CallUse) :
    Keeps output us (ofUses output us) := by
  induction us using List.reverseRecOn with
  | nil => exact .new output
  | append_singleton us u ih =>
    rw [ofUses_concat, afterUse]
    cases hending : u.ending? with
    | none => cases u with
      | opens f depth line path starting => exact ih.opens depth line path starting
      | returns | breaksOff => cases hending
    | some lines =>
      rw [use_of_ending hending, close]
      cases hp : (ofUses output us).pending.get? u.frame with
      | none => exact ih.fails hending hp
      | some i => exact ih.ends hending hp

/-- An end of a call whose node was opened last for its frame and has not ended: its lines are put to
that node, and nothing else changes. -/
theorem use_of_running (ending : u.ending? = some lines) (latest : IsLatest us u.frame i)
    (running : ¬ HasEnded output us i) :
    ∃ n g', (ofUses output us).nodes[i]? = some n ∧ (ofUses output us).use u = .ok g' ∧
      g'.nodes = (ofUses output us).nodes.set i (n.add lines) := by
  have h := keeps_ofUses output us
  have hp := (h.pending _ i).mpr ⟨latest, running⟩
  obtain ⟨n, hn, -⟩ := h.running hp
  refine ⟨n, _, hn, by rw [use_of_ending ending, close, hp], ?_⟩
  rw [List.modify_eq_set, hn, Option.getD_some]

/-- An end where no node of the frame is left to be ended. -/
theorem use_of_ended (ending : u.ending? = some lines)
    (ended : ∀ i, IsLatest us u.frame i → HasEnded output us i) :
    (ofUses output us).use u = .error (.unmatchedReturn u.frame) := by
  have h := keeps_ofUses output us
  rw [use_of_ending ending, close]
  cases hp : (ofUses output us).pending.get? u.frame with
  | none => rfl
  | some i =>
    obtain ⟨hlatest, hno⟩ := (h.pending _ i).mp hp
    exact absurd (ended i hlatest) hno

/-- A node stays where it is, and one that is closed stays as it is. -/
theorem getElem?_afterUse {n : CallNode} (hn : (ofUses output us).nodes[i]? = some n) (u : CallUse) :
    ∃ more, (ofUses output (us ++ [u])).nodes[i]? = some (n.add more) ∧
      (n.isClosed = true → more = []) := by
  have h := keeps_ofUses output us
  have hsame : n.add [] = n := by simp [CallNode.add]
  have hlt := (List.getElem?_eq_some_iff.mp hn).1
  rw [ofUses_concat, afterUse]
  cases hending : u.ending? with
  | none => cases u with
    | opens f depth line path starting =>
      refine ⟨[], ?_, fun _ => rfl⟩
      rw [hsame]
      exact (List.getElem?_append_left hlt).trans hn
    | returns | breaksOff => cases hending
  | some lines =>
    rw [use_of_ending hending, close]
    cases hp : (ofUses output us).pending.get? u.frame with
    | none => exact ⟨[], hsame.symm ▸ hn, fun _ => rfl⟩
    | some j =>
      obtain ⟨n', hn', hopen⟩ := h.running hp
      by_cases hj : j = i
      · subst hj
        rw [hn] at hn'
        cases hn'
        refine ⟨lines, by simp [hn], fun hc => ?_⟩
        rw [hopen] at hc
        cases hc
      · exact ⟨[], by simp [hj, hn, hsame], fun _ => rfl⟩

theorem getElem?_ofUses {n : CallNode} (hn : (ofUses output us).nodes[i]? = some n)
    (later : List CallUse) :
    ∃ more, (ofUses output (us ++ later)).nodes[i]? = some (n.add more) ∧
      (n.isClosed = true → more = []) := by
  induction later using List.reverseRecOn with
  | nil => exact ⟨[], by simpa [CallNode.add] using hn, fun _ => rfl⟩
  | append_singleton later u ih =>
    obtain ⟨more, hmore, hclosed⟩ := ih
    obtain ⟨more', hmore', hclosed'⟩ := getElem?_afterUse hmore u
    refine ⟨more ++ more', ?_, fun hc => ?_⟩
    · rw [← List.append_assoc, hmore']
      simp [CallNode.add]
    · have hadd : more = [] := hclosed hc
      subst hadd
      simpa using hclosed' (by simpa [CallNode.add] using hc)

/-- Any uses of a new graph, for any frames and with any texts. No frame stands open at a node that is
not there. Every node is made of the lines that its grammar has: the call, the source path, perhaps the
variables it started with, then nothing, or a return and its value, or the end by an exception. It is
closed exactly if some end has succeeded on it. A call that is noted is put behind all others. An end is
put to the node that was opened last for its frame, and to no other, if that node has not ended; if there
is none left to be ended, it fails and changes nothing. Nodes stay in their places for good, they only
ever get lines added, and none is added to a closed one. -/
theorem graph_keeps_its_grammar (output : Option Path) (us : List CallUse) :
    let g := ofUses output us
    (∀ f i, g.pending.get? f = some i → i < g.nodes.length) ∧
    (∀ n ∈ g.nodes, n.IsGrammatical) ∧
    (∀ i n, g.nodes[i]? = some n → (n.isClosed = true ↔ HasEnded output us i)) ∧
    (∀ f depth line path starting, ∃ g', g.use (.opens f depth line path starting) = .ok g' ∧
      g'.nodes = g.nodes ++ [⟨depth, ("Call ... " ++ line) :: ("Source path:... " ++ path) ::
        (starting.map ("Starting var:.. " ++ ·)).toList⟩]) ∧
    (∀ u lines, u.ending? = some lines →
      (∀ i, IsLatest us u.frame i → ¬ HasEnded output us i →
        ∃ (n : CallNode) (g' : CallGraph), g.nodes[i]? = some n ∧ g.use u = .ok g' ∧
          g'.nodes = g.nodes.set i ⟨n.depth, n.content ++ lines⟩) ∧
      ((∀ i, IsLatest us u.frame i → HasEnded output us i) →
        g.use u = .error (.unmatchedReturn u.frame) ∧ g.afterUse u = g)) ∧
    (∀ (later : List CallUse) (i : Nat) (n : CallNode), g.nodes[i]? = some n → ∃ more,
      (ofUses output (us ++ later)).nodes[i]? = some ⟨n.depth, n.content ++ more⟩ ∧
      (n.isClosed = true → more = [])) := by
  intro g
  have h : Keeps output us g := keeps_ofUses output us
  refine ⟨?_, h.grammar, h.closed, ?_, ?_, ?_⟩
  · intro f i hp
    obtain ⟨n, hn, -⟩ := h.running hp
    exact (List.getElem?_eq_some_iff.mp hn).1
  · intro f depth line path starting
    refine ⟨_, rfl, ?_⟩
    rw [openCall, CallNode.opening_eq]
  · intro u lines ending
    refine ⟨fun i latest running => use_of_running ending latest running, fun ended => ?_⟩
    have hfails := use_of_ended ending ended
    exact ⟨hfails, by rw [afterUse, hfails]⟩
  · exact fun later i n hn => getElem?_ofUses hn later

def secondCall : List CallUse :=
  [.opens ⟨0, 0⟩ 0 "def f(x):" "/a.py" none, .opens ⟨0, 0⟩ 1 "def f(x):" "/a.py" (some "x = 1"),
    .returns ⟨0, 0⟩ "return x" "1"]

/-- Only the second node has ended, and the first one can no longer be. -/
theorem graph_keeps_its_grammar_of_second_call :
    HasEnded none secondCall 1 ∧ ¬ HasEnded none secondCall 0 ∧
      (ofUses none secondCall).use (.breaksOff ⟨0, 0⟩) = .error (.unmatchedReturn ⟨0, 0⟩) := by
  obtain ⟨-, -, hclosed, -, hending, -⟩ := graph_keeps_its_grammar none secondCall
  have hended : HasEnded none secondCall 1 := (hclosed 1 _ rfl).mp (by decide +kernel)
  have hrunning : ¬ HasEnded none secondCall 0 :=
    fun h => absurd ((hclosed 0 _ rfl).mpr h) (by decide +kernel)
  have hlatest : IsLatest secondCall ⟨0, 0⟩ 1 := by
    refine ⟨by decide, fun j hj => ?_⟩
    have hnone : (opened secondCall)[j]? = none := List.getElem?_eq_none_iff.mpr hj
    simp [hnone]
  refine ⟨hended, hrunning, ((hending _ _ rfl).2 fun i hi => ?_).1⟩
  exact hi.unique hlatest ▸ hended

end CallGraph
end SelectiveTrace
