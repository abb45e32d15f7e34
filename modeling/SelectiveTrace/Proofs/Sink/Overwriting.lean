import Mathlib.Data.List.Chain
import SelectiveTrace.Proofs.Sources.Apart

/-! What a file holds that lines are written to. Lines that cannot be written are lost, and in between
anything else may happen around. Each line that reaches the file stands behind those before it; only the
very first line that is given to an overwriting sink takes away what the file held. -/
namespace SelectiveTrace

namespace Disk

def opens (d : Disk) (path : Path) : Bool :=
  (d.update path id).isOk

/-- Whether a file can be written does not depend on what is written. -/
theorem isOk_update (d : Disk) (path : Path) (change : ByteArray → ByteArray) :
    (d.update path change).isOk = d.opens path := by
  unfold opens update
  cases d.locate path with
  | error e => rfl
  | ok names =>
    simp only [bind, Except.bind, pure, Except.pure, throw, throwThe, MonadExceptOf.throw]
    cases d.item? names with
    | none =>
      cases d.item? names.dropLast with
      | none => rfl
      | some e =>
        cases e with
        | file contents => rfl
        | directory =>
          dsimp only
          split
          · rfl
          · split <;> rfl
    | some e => cases e <;> rfl

variable {d : Disk} {path : Path}

theorem exists_update_of_opens (h : d.opens path = true) (change : ByteArray → ByteArray) :
    ∃ d', d.update path change = .ok d' := by
  rw [← isOk_update d path change] at h
  cases hu : d.update path change with
  | ok d' => exact ⟨d', rfl⟩
  | error e =>
    rw [hu] at h
    cases h

theorem exists_error_of_not_opens (h : d.opens path = false) (change : ByteArray → ByteArray) :
    ∃ e, d.update path change = .error e := by
  rw [← isOk_update d path change] at h
  cases hu : d.update path change with
  | error e => exact ⟨e, rfl⟩
  | ok d' =>
    rw [hu] at h
    cases h

end Disk

namespace Sink
variable {w : Surroundings} {path : Path} {overwrite : Bool}

/-- What is written stands behind what the file held, or behind nothing. -/
theorem writeFile_eq_update (w : Surroundings) (path : Path) (overwrite : Bool) (text : String) :
    writeFile w path overwrite text =
      match w.disk.update path fun held => (if overwrite then .empty else held) ++ text.toUTF8 with
      | .ok disk => { w with disk }
      | .error _ => w := by
  unfold writeFile Surroundings.write Surroundings.append Disk.write Disk.append
  cases overwrite with
  | true =>
    simp only [if_true, ByteArray.empty_append]
    cases w.disk.update path fun _ => text.toUTF8 <;> rfl
  | false =>
    simp only [Bool.false_eq_true, if_false]
    cases w.disk.update path (· ++ text.toUTF8) <;> rfl

theorem writeFile_of_not_opens (h : w.disk.opens path = false) (overwrite : Bool) (text : String) :
    writeFile w path overwrite text = w := by
  obtain ⟨e, he⟩ := Disk.exists_error_of_not_opens h
    fun held => (if overwrite then .empty else held) ++ text.toUTF8
  rw [writeFile_eq_update, he]

theorem read_writeFile_of_opens (h : w.disk.opens path = true) (overwrite : Bool) (text : String) :
    (writeFile w path overwrite text).disk.read path =
      .ok ((if overwrite then .empty else w.disk.held path) ++ text.toUTF8) := by
  obtain ⟨d, hd⟩ := Disk.exists_update_of_opens h
    fun held => (if overwrite then .empty else held) ++ text.toUTF8
  rw [writeFile_eq_update, hd]
  exact Disk.read_of_update hd

structure Attempt where
  line : String
  around : Surroundings

/-- A line that reached its file, with what the file held before it, and what is read from it then. -/
structure Landing where
  line : String
  before : ByteArray
  left : Except FileError ByteArray

def Landing.bytes (l : Landing) : ByteArray :=
  (l.line ++ "\n").toUTF8

def landings (path : Path) : Sink → List Attempt → List Landing
  | _, [] => []
  | s, a :: as =>
    let r := s.writeLine a.line a.around
    (if a.around.disk.opens path then
        [⟨a.line, a.around.disk.held path, r.2.disk.read path⟩]
      else []) ++ landings path r.1 as

namespace Landing

/-- Between two lines nothing else writes the file. -/
def Undisturbed (ls : List Landing) : Prop :=
  ls.IsChain fun l next => l.left = .ok next.before

instance (ls : List Landing) : Decidable (Undisturbed ls) :=
  inferInstanceAs (Decidable (ls.IsChain _))

def contents (ls : List Landing) : ByteArray :=
  (String.join (ls.map fun l => l.line ++ "\n")).toUTF8

theorem contents_cons (l : Landing) (ls : List Landing) :
    contents (l :: ls) = l.bytes ++ contents ls := by
  simp [contents, bytes, String.toUTF8_eq_toByteArray, String.toByteArray_append]

/-- After each line the file holds the lines so far, behind `kept`. -/
def StandBehind (kept : ByteArray) (ls : List Landing) : Prop :=
  ∀ n (l : Landing), ls[n]? = some l → l.left = .ok (kept ++ contents (ls.take (n + 1)))

variable {l : Landing} {ls : List Landing} {kept kept' : ByteArray}

/-- Lines that each stand behind what was there before stand one behind the other. -/
theorem standBehind_cons (first : l.left = .ok (kept ++ l.bytes))
    (rest : ∀ l ∈ ls, l.left = .ok (l.before ++ l.bytes)) (alone : Undisturbed (l :: ls)) :
    StandBehind kept (l :: ls) := by
  intro n m hm
  induction ls generalizing l kept n with
  | nil =>
    cases n with
    | zero =>
      cases hm
      rw [first, List.take_succ_cons, contents_cons]
      simp [contents]
    | succ n => cases hm
  | cons next ls ih =>
    cases n with
    | zero =>
      cases hm
      rw [first, List.take_succ_cons, contents_cons]
      simp [contents]
    | succ n =>
      obtain ⟨hnext, halone⟩ := List.isChain_cons_cons.mp alone
      obtain ⟨hhead, hrest⟩ := List.forall_mem_cons.mp rest
      have hbefore : next.before = kept ++ l.bytes := (Except.ok.inj (first.symm.trans hnext)).symm
      rw [hbefore] at hhead
      rw [ih hhead hrest halone n hm, List.take_succ_cons (i := n + 1), contents_cons l,
        ByteArray.append_assoc]

def found (ls : List Landing) : ByteArray :=
  (ls.head?.map before).getD .empty

theorem standBehind_found (appended : ∀ l ∈ ls, l.left = .ok (l.before ++ l.bytes))
    (alone : Undisturbed ls) : StandBehind (found ls) ls := by
  cases ls with
  | nil => rintro n l ⟨⟩
  | cons l ls =>
    obtain ⟨hfirst, hrest⟩ := List.forall_mem_cons.mp appended
    exact standBehind_cons hfirst hrest alone

theorem StandBehind.unique (h : StandBehind kept (l :: ls)) (h' : StandBehind kept' (l :: ls)) :
    kept = kept' := by
  have hsame := Except.ok.inj ((h 0 l rfl).symm.trans (h' 0 l rfl))
  exact (ByteArray.append_left_inj _).mp hsame

end Landing

section landings
variable {a : Attempt} {as : List Attempt}

theorem landings_of_not_opens (h : a.around.disk.opens path = false) (overwrite : Bool) :
    (file path overwrite).landings path (a :: as) = (file path false).landings path as := by
  rw [landings]
  simp only [h, Bool.false_eq_true, if_false, List.nil_append]
  rfl

/-- The first line may truncate the file; after it a sink appends. -/
theorem landings_of_opens (h : a.around.disk.opens path = true) (overwrite : Bool) :
    (file path overwrite).landings path (a :: as) =
      ⟨a.line, a.around.disk.held path, .ok ((if overwrite then .empty else a.around.disk.held path) ++
        (a.line ++ "\n").toUTF8)⟩ :: (file path false).landings path as := by
  rw [landings]
  simp only [h, if_true, List.singleton_append, writeLine, read_writeFile_of_opens h]

theorem left_of_mem_landings {l : Landing} (h : l ∈ (file path false).landings path as) :
    l.left = .ok (l.before ++ l.bytes) := by
  induction as with
  | nil => cases h
  | cons a as ih =>
    cases ha : a.around.disk.opens path with
    | false =>
      rw [landings_of_not_opens ha] at h
      exact ih h
    | true =>
      rw [landings_of_opens ha] at h
      rcases List.mem_cons.mp h with rfl | h
      · rfl
      · exact ih h

def truncates (path : Path) (overwrite : Bool) (as : List Attempt) : Bool :=
  overwrite && as.head?.any fun a => a.around.disk.opens path

theorem standBehind_landings (alone : Landing.Undisturbed ((file path overwrite).landings path as)) :
    Landing.StandBehind
      (if truncates path overwrite as then .empty
        else Landing.found ((file path overwrite).landings path as))
      ((file path overwrite).landings path as) := by
  cases as with
  | nil => rintro n l ⟨⟩
  | cons a as =>
    cases ha : a.around.disk.opens path with
    | false =>
      have htruncates : truncates path overwrite (a :: as) = false := by simp [truncates, ha]
      rw [landings_of_not_opens ha] at alone ⊢
      rw [htruncates, if_neg Bool.false_ne_true]
      exact Landing.standBehind_found (fun _ => left_of_mem_landings) alone
    | true =>
      have htruncates : truncates path overwrite (a :: as) = overwrite := by simp [truncates, ha]
      rw [landings_of_opens ha] at alone ⊢
      rw [htruncates]
      exact Landing.standBehind_cons rfl (fun _ => left_of_mem_landings) alone

/-- Lines are given to a sink that writes a file, in whatever surroundings, as long as nothing else writes
the file between two lines that reach it. A line that does not reach it changes nothing but that the sink
will append. After each line that does, the file holds the lines that reached it so far, behind what the
first of them found there, or behind nothing if that one was to overwrite and was the first of all lines. So
an overwriting sink keeps old contents out exactly if its first line reaches the file, or none are found. -/
theorem lines_stand_behind_what_first_found
    (alone : Landing.Undisturbed ((file path overwrite).landings path as)) :
    let ls := (file path overwrite).landings path as
    (∀ overwrite line w, w.disk.opens path = false →
      (file path overwrite).writeLine line w = (file path false, w)) ∧
    Landing.StandBehind (if truncates path overwrite as then .empty else Landing.found ls) ls ∧
    (overwrite = true → (Landing.StandBehind .empty ls ↔
      truncates path true as = true ∨ Landing.found ls = .empty)) := by
  intro ls
  have hbehind := standBehind_landings alone
  refine ⟨?_, hbehind, ?_⟩
  · intro overwrite line w h
    rw [writeLine, writeFile_of_not_opens h]
  · rintro rfl
    cases hfirst : truncates path true as with
    | true =>
      rw [hfirst, if_pos rfl] at hbehind
      exact ⟨fun _ => Or.inl rfl, fun _ => hbehind⟩
    | false =>
      rw [hfirst, if_neg Bool.false_ne_true] at hbehind
      constructor
      · intro hpure
        right
        cases hls : ls with
        | nil => rfl
        | cons l rest =>
          have hfound := (hls ▸ hbehind : Landing.StandBehind (Landing.found ls) (l :: rest))
          exact hls ▸ hfound.unique (hls ▸ hpure)
      · rintro (h | h)
        · cases h
        · exact h ▸ hbehind

end landings

def logPath : Path :=
  ⟨"/w/t.log"⟩

def aroundLog (text : String) : Surroundings :=
  { disk := ({} : Disk).place logPath text.toUTF8 }

/-- The directory of the log is gone for one line, and back for the next one. -/
theorem lines_stand_behind_nothing_with_one_lost :
    let as : List Attempt := [⟨"first", aroundLog "stale\n"⟩, ⟨"lost", {}⟩, ⟨"second", aroundLog "first\n"⟩]
    let ls := (file logPath true).landings logPath as
    Landing.Undisturbed ls ∧ ls.map (·.line) = ["first", "second"] ∧ truncates logPath true as = true ∧
      Landing.StandBehind .empty ls := by
  intro as ls
  have alone : Landing.Undisturbed ls := by decide +kernel
  have first : truncates logPath true as = true := by decide +kernel
  exact ⟨alone, by decide +kernel, first,
    ((lines_stand_behind_what_first_found alone).2.2 rfl).mpr (Or.inl first)⟩

/-- A line that is lost uses up the truncation, and the next one stands behind the old contents. -/
theorem line_after_lost_one_stands_behind_old_contents :
    let as : List Attempt := [⟨"first", {}⟩, ⟨"second", aroundLog "stale\n"⟩]
    let ls := (file logPath true).landings logPath as
    Landing.Undisturbed ls ∧
      ls = [⟨"second", "stale\n".toUTF8, .ok "stale\nsecond\n".toUTF8⟩] ∧
      ¬ Landing.StandBehind .empty ls := by
  intro as ls
  have hlost : ({} : Surroundings).disk.opens logPath = false := by decide +kernel
  have hback : (aroundLog "stale\n").disk.opens logPath = true := by decide +kernel
  have hheld : (aroundLog "stale\n").disk.held logPath = "stale\n".toUTF8 := by decide +kernel
  have hjoined : "stale\n".toUTF8 ++ ("second" ++ "\n").toUTF8 = "stale\nsecond\n".toUTF8 := by
    decide +kernel
  have hls : ls = [⟨"second", "stale\n".toUTF8, .ok "stale\nsecond\n".toUTF8⟩] := by
    unfold ls as
    rw [landings_of_not_opens (a := ⟨"first", {}⟩) hlost,
      landings_of_opens (a := ⟨"second", aroundLog "stale\n"⟩) hback, hheld,
      if_neg Bool.false_ne_true, hjoined, landings]
  refine ⟨hls ▸ List.isChain_singleton _, hls, fun h => ?_⟩
  rw [hls] at h
  have hleft := Except.ok.inj (h 0 _ rfl)
  revert hleft
  decide +kernel

end Sink
end SelectiveTrace
