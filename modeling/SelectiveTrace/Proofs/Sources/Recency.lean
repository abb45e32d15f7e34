import Mathlib.Data.List.Induction
import SelectiveTrace.Proofs.Scope.Tables
import SelectiveTrace.Proofs.Sources.Coherent
import SelectiveTrace.Proofs.Tracer.Memory

/-! Which files a cache answers from memory. A file that was answered from the cache or from disk is kept
until as many other files have been answered so as the cache has places; until then it tells what it held
when it was last read, whatever becomes of it on disk. A registered text stands in front of all that. -/
namespace SelectiveTrace

inductive SourceUse where
  | register (path : Path) (text : String)
  | lines (path : Path)
  | line (path : Path) (n : Nat)
  | range (path : Path) (start stop : Nat)
  | disk (d : Disk)

structure Serving where
  path : Path
  /-- What was around at that time. -/
  around : Surroundings
  /-- The cache did not have the file and read it. -/
  isRead : Bool

namespace Serving

def file (s : Serving) : List Path.Component :=
  s.path.components

def lines (s : Serving) : Option (List String) :=
  SourceCache.readLines s.around s.path

/-! Servings, the latest first. -/

def since (log : List Serving) (file : List Path.Component) : Finset (List Path.Component) :=
  ((log.takeWhile fun s => s.file ≠ file).map Serving.file).toFinset

/-- The file was served, and less than `limit` others have been since. -/
def IsRecent (log : List Serving) (limit : Nat) (file : List Path.Component) : Prop :=
  (∃ s ∈ log, s.file = file) ∧ (since log file).card < limit

def lastRead? (log : List Serving) (file : List Path.Component) : Option Serving :=
  log.find? fun s => s.file = file ∧ s.isRead

def recency : List Serving → List (List Path.Component)
  | [] => []
  | s :: log => s.file :: (recency log).filter (· ≠ s.file)

end Serving

section
variable {α : Type} [DecidableEq α] {a b : α} {as : List α}

theorem filter_ne_of_notMem (h : a ∉ as) : as.filter (· ≠ a) = as :=
  List.filter_eq_self.mpr fun _ hb => decide_eq_true fun he => h (he ▸ hb)

theorem takeWhile_filter_ne (h : b ≠ a) :
    (as.filter (· ≠ b)).takeWhile (· ≠ a) = (as.takeWhile (· ≠ a)).filter (· ≠ b) := by
  induction as with
  | nil => rfl
  | cons c as ih =>
    by_cases hb : c = b
    · subst hb
      rw [List.filter_cons_of_neg (by simp), List.takeWhile_cons_of_pos (by simpa using h),
        List.filter_cons_of_neg (by simp), ih]
    · rw [List.filter_cons_of_pos (by simpa using hb)]
      by_cases ha : c = a
      · rw [List.takeWhile_cons_of_neg (by simpa using ha), List.takeWhile_cons_of_neg (by simpa using ha)]
        rfl
      · rw [List.takeWhile_cons_of_pos (by simpa using ha), List.takeWhile_cons_of_pos (by simpa using ha),
          List.filter_cons_of_pos (by simpa using hb), ih]

/-- Where nothing stands twice, `a` is among the first `n` if fewer stand in front of it. -/
theorem mem_take_iff (nodup : as.Nodup) (n : Nat) :
    a ∈ as.take n ↔ a ∈ as ∧ (as.takeWhile (· ≠ a)).length < n := by
  induction as generalizing n with
  | nil => simp
  | cons c as ih =>
    cases n with
    | zero => simp
    | succ n =>
      by_cases ha : c = a
      · simp [ha]
      · simp [ih (List.nodup_cons.mp nodup).2, ha, Ne.symm ha]

/-- Those in front without `a` are the first ones that there are without `a`. -/
theorem take_filter_take (nodup : as.Nodup) (n : Nat) :
    ((as.take (n + 1)).filter (· ≠ a)).take n = (as.filter (· ≠ a)).take n := by
  induction as generalizing n with
  | nil => rfl
  | cons c as ih =>
    obtain ⟨hc, hrest⟩ := List.nodup_cons.mp nodup
    rw [List.take_succ_cons]
    by_cases ha : c = a
    · subst ha
      rw [List.filter_cons_of_neg (by simp), List.filter_cons_of_neg (by simp), filter_ne_of_notMem hc,
        filter_ne_of_notMem fun h => hc (List.mem_of_mem_take h), List.take_take, Nat.min_self]
    · rw [List.filter_cons_of_pos (by simpa using ha), List.filter_cons_of_pos (by simpa using ha)]
      cases n with
      | zero => rfl
      | succ n => rw [List.take_succ_cons, List.take_succ_cons, ih hrest]

end

namespace Serving
variable {log : List Serving} {s : Serving} {file : List Path.Component}

theorem mem_recency : file ∈ recency log ↔ ∃ s ∈ log, s.file = file := by
  induction log with
  | nil => simp [recency]
  | cons s log ih =>
    rw [recency, List.mem_cons, List.mem_filter, ih]
    by_cases h : s.file = file
    · simp [h]
    · simp [h, Ne.symm h]

theorem nodup_recency (log : List Serving) : (recency log).Nodup := by
  induction log with
  | nil => exact List.nodup_nil
  | cons s log ih => exact List.nodup_cons.mpr ⟨by simp, ih.filter _⟩

/-- The files in front of one are those that were served since. -/
theorem toFinset_recency (log : List Serving) (file : List Path.Component) :
    ((recency log).takeWhile (· ≠ file)).toFinset = since log file := by
  induction log with
  | nil => rfl
  | cons s log ih =>
    by_cases h : s.file = file
    · simp [recency, since, h]
    · have hsince : since (s :: log) file = insert s.file (since log file) := by
        simp [since, h]
      rw [recency, List.takeWhile_cons_of_pos (by simpa using h), takeWhile_filter_ne h,
        List.toFinset_cons, hsince, ← ih, List.toFinset_filter]
      ext other
      by_cases ho : other = s.file <;> simp [ho]

theorem mem_take_recency (log : List Serving) (limit : Nat) (file : List Path.Component) :
    file ∈ (recency log).take limit ↔ IsRecent log limit file := by
  have hnodup : ((recency log).takeWhile (· ≠ file)).Nodup :=
    (List.takeWhile_sublist _).nodup (nodup_recency log)
  rw [mem_take_iff (nodup_recency log), mem_recency, IsRecent, ← toFinset_recency,
    List.toFinset_card_of_nodup hnodup]

theorem lastRead?_of_ne (h : s.file ≠ file) : lastRead? (s :: log) file = lastRead? log file := by
  simp [lastRead?, h]

theorem lastRead?_of_kept (h : s.isRead = false) (file : List Path.Component) :
    lastRead? (s :: log) file = lastRead? log file := by
  simp [lastRead?, h]

theorem lastRead?_of_read (h : s.isRead = true) : lastRead? (s :: log) s.file = some s := by
  simp [lastRead?, h]

end Serving

namespace SourceUse

def asked? : SourceUse → Option Path
  | .lines path | .line path _ | .range path _ _ => some path
  | .register .. | .disk _ => none

def registers? : SourceUse → Option (List Path.Component × String)
  | .register path text => some (path.components, text)
  | .lines _ | .line .. | .range .. | .disk _ => none

def registered? (us : List SourceUse) (file : List Path.Component) : Option String :=
  ((us.filterMap registers?).reverse.find? fun r => r.1 = file).map (·.2)

def registeredFiles (us : List SourceUse) : Finset (List Path.Component) :=
  ((us.filterMap registers?).map (·.1)).toFinset

variable {us : List SourceUse} {u : SourceUse} {path : Path} {file : List Path.Component}

theorem registered?_of_asked (h : u.registers? = none) (file : List Path.Component) :
    registered? (us ++ [u]) file = registered? us file := by
  simp [registered?, h]

theorem registered?_register (path : Path) (text : String) (file : List Path.Component) :
    registered? (us ++ [.register path text]) file =
      if file = path.components then some text else registered? us file := by
  simp only [registered?, List.filterMap_append, List.filterMap_cons, registers?, List.filterMap_nil,
    List.reverse_append, List.reverse_cons, List.reverse_nil, List.nil_append, List.cons_append,
    List.find?_cons]
  by_cases h : file = path.components
  · simp [h]
  · simp [h, Ne.symm h]

theorem isSome_registered? : (registered? us file).isSome = true ↔ file ∈ registeredFiles us := by
  simp [registered?, registeredFiles, List.find?_isSome]

end SourceUse

namespace SourceCache
open SourceUse Serving

def use (s : SourceCache × Surroundings) : SourceUse → SourceCache × Surroundings
  | .register path text => (s.1.register path text, s.2)
  | .lines path => ((s.1.lines s.2 path).2, s.2)
  | .line path n => ((s.1.line s.2 path n).2, s.2)
  | .range path start stop => ((s.1.range s.2 path start stop).2, s.2)
  | .disk d => (s.1, { s.2 with disk := d })

def after (capacity : Nat) (w : Surroundings) (us : List SourceUse) : SourceCache × Surroundings :=
  us.foldl use (ofCapacity capacity, w)

/-- The file that a use is answered from, unless no file is asked for, its text is registered, or there is
none to be read. -/
def serving? (s : SourceCache × Surroundings) (u : SourceUse) : Option Serving :=
  match u.asked? with
  | none => none
  | some path =>
    if s.1.registered.contains path.components then none
    else (s.1.lines s.2 path).1.map fun _ => ⟨path, s.2, !s.1.files.contains path.components⟩

def servings (s : SourceCache × Surroundings) : List SourceUse → List Serving
  | [] => []
  | u :: us => servings (use s u) us ++ (serving? s u).toList

section
variable {capacity : Nat} {w w' : Surroundings} {us : List SourceUse} {u : SourceUse}
  {s : SourceCache × Surroundings} {c : SourceCache} {path : Path} {ls : List String}

theorem after_concat (capacity : Nat) (w : Surroundings) (us : List SourceUse) (u : SourceUse) :
    after capacity w (us ++ [u]) = use (after capacity w us) u := by
  simp [after]

theorem servings_concat (s : SourceCache × Surroundings) (us : List SourceUse) (u : SourceUse) :
    servings s (us ++ [u]) = (serving? (us.foldl use s) u).toList ++ servings s us := by
  induction us generalizing s with
  | nil => simp [servings]
  | cons u' us ih => simp [servings, ih]

theorem use_of_asked (h : u.asked? = some path) : use s u = ((s.1.lines s.2 path).2, s.2) := by
  cases u with
  | register | disk => cases h
  | lines | line | range =>
    cases h
    rfl

theorem registers?_of_asked (h : u.asked? = some path) : u.registers? = none := by
  cases u with
  | register | disk => cases h
  | lines | line | range => rfl

/-! What is kept. -/

theorem keys_keep (c : SourceCache) (path : Path) (ls : List String) :
    (c.keep path ls).files.keys =
      (path.components :: c.files.keys.filter (· ≠ path.components)).take c.capacity := by
  simp only [keep, Table.keys, Table.takeRecent, Table.insert, Table.erase, List.map_take, List.map_cons,
    List.filter_map]
  rfl

theorem get?_keep (h : 0 < c.capacity) (path : Path) (ls : List String) :
    (c.keep path ls).files.get? path.components = some ls := by
  obtain ⟨n, hn⟩ := Nat.exists_eq_succ_of_ne_zero (Nat.pos_iff_ne_zero.mp h)
  simp [keep, hn, Table.takeRecent, Table.insert, Table.get?]

theorem keep_keep (h : 0 < c.capacity) (path : Path) (ls : List String) :
    (c.keep path ls).keep path ls = c.keep path ls := by
  obtain ⟨n, hn⟩ := Nat.exists_eq_succ_of_ne_zero (Nat.pos_iff_ne_zero.mp h)
  have hrest : ((c.files.erase path.components).entries.take n).filter
      (fun e => e.1 ≠ path.components) = (c.files.erase path.components).entries.take n := by
    refine List.filter_eq_self.mpr fun e he => ?_
    exact (List.mem_filter.mp (List.mem_of_mem_take he)).2
  have hfiles : (c.keep path ls).files =
      ⟨(path.components, ls) :: (c.files.erase path.components).entries.take n⟩ := by
    simp [keep, hn, Table.takeRecent, Table.insert]
  have hagain : ((c.keep path ls).files.insert path.components ls).takeRecent c.capacity =
      (c.keep path ls).files := by
    rw [hfiles, Table.insert, Table.erase, List.filter_cons_of_neg (by simp), hrest, Table.takeRecent, hn,
      List.take_succ_cons, List.take_take, Nat.min_self]
  exact congrArg (fun files => { c with files }) hagain

/-- Who asks again is told the same, whatever has become of the disk, and changes nothing. -/
theorem lines_again (h : 0 < c.capacity) (told : (c.lines w path).1 = some ls) (w' : Surroundings) :
    (c.lines w path).2.lines w' path = (some ls, (c.lines w path).2) := by
  have hkept : ∀ ls, c.registered.get? path.components = none →
      (c.keep path ls).lines w' path = (some ls, c.keep path ls) := by
    intro ls hr
    have hr' : (c.keep path ls).registered.get? path.components = none := hr
    unfold lines
    rw [hr', get?_keep h]
    dsimp only
    rw [keep_keep h]
  unfold lines at told ⊢
  cases hr : c.registered.get? path.components with
  | some ls' =>
    rw [hr] at told
    cases told
    simp [hr]
  | none =>
    have hk := hkept ls hr
    unfold lines at hk
    rw [hr] at told
    dsimp only at told ⊢
    cases hf : c.files.get? path.components with
    | some ls' =>
      rw [hf] at told
      cases told
      exact hk
    | none =>
      rw [hf] at told
      dsimp only at told ⊢
      cases hread : readLines w path with
      | some ls' =>
        rw [hread] at told
        cases told
        exact hk
      | none =>
        rw [hread] at told
        cases told

/-- Where there is nothing to tell, nothing is kept. -/
theorem lines_of_none (told : (c.lines w path).1 = none) : (c.lines w path).2 = c := by
  unfold lines at told ⊢
  split at told
  · cases told
  · split at told
    · cases told
    · split at told
      · cases told
      · simp_all

theorem line_eq (c : SourceCache) (w : Surroundings) (path : Path) (n : Nat) :
    c.line w path n = (lineAt (c.lines w path).1 n, (c.lines w path).2) := rfl

theorem range_eq (c : SourceCache) (w : Surroundings) (path : Path) (start stop : Nat) :
    c.range w path start stop =
      ((c.lines w path).1.bind fun ls => rangeAt ls start stop, (c.lines w path).2) := rfl

theorem lines_twice (h : 0 < c.capacity) (w : Surroundings) (path : Path) :
    (c.lines w path).2.lines w path = c.lines w path := by
  cases htold : (c.lines w path).1 with
  | some ls => rw [lines_again h htold, ← htold]
  | none => rw [lines_of_none htold]

/-- A range that begins inside the file is made of its lines one by one; any other is absent. -/
theorem rangeAt_eq (ls : List String) {start : Nat} (h : 1 ≤ start) (stop : Nat) :
    rangeAt ls start stop =
      if start ≤ min stop ls.length then
        some ((List.range' start (min stop ls.length + 1 - start)).map (lineAt (some ls)))
      else none := by
  have hiff : start - 1 < min stop ls.length ↔ start ≤ min stop ls.length := by omega
  unfold rangeAt
  rw [if_congr hiff rfl rfl]
  split
  next hinside =>
    refine congrArg some (List.ext_getElem ?_ fun i hi hi' => ?_)
    · simp only [List.length_drop, List.length_take, List.length_map, List.length_range']
      omega
    · have hplace : start + 1 * i - 1 = start - 1 + i := by omega
      simp only [List.length_drop, List.length_take] at hi
      have hlt : start - 1 + i < ls.length := by omega
      simp only [List.getElem_drop, List.getElem_take, List.getElem_map, List.getElem_range', lineAt,
        Option.bind_some, hplace, List.getElem?_eq_getElem hlt, Option.getD_some]
  next => rfl

structure Tracks (limit : Nat) (us : List SourceUse) (log : List Serving) (c : SourceCache) : Prop where
  capacity : c.capacity = limit
  registered : ∀ file, c.registered.get? file = (registered? us file).map split
  nodup : c.registered.keys.Nodup
  /-- Kept are the files that were served last. -/
  keys : c.files.keys = (recency log).take limit
  /-- They hold what was read for them. -/
  texts : ∀ file ls, c.files.get? file = some ls →
    ∃ s, lastRead? log file = some s ∧ s.lines = some ls

namespace Tracks
variable {limit : Nat} {log : List Serving} {file : List Path.Component}

theorem new (capacity : Nat) : Tracks (max 1 capacity) [] [] (ofCapacity capacity) := by
  refine ⟨rfl, fun _ => rfl, List.nodup_nil, by simp [ofCapacity, recency, Table.keys], ?_⟩
  intro file ls h
  cases h

theorem contains_iff (h : Tracks limit us log c) (file : List Path.Component) :
    c.files.contains file = true ↔ IsRecent log limit file := by
  rw [← Table.mem_keys, h.keys, mem_take_recency]

/-- A file is served. -/
theorem keep (h : Tracks limit us log c) (positive : 0 < limit) (s : Serving)
    (read : ∃ s', lastRead? (s :: log) s.file = some s' ∧ s'.lines = some ls) :
    Tracks limit us (s :: log) (c.keep s.path ls) := by
  refine ⟨h.capacity, h.registered, h.nodup, ?_, ?_⟩
  · obtain ⟨n, rfl⟩ := Nat.exists_eq_succ_of_ne_zero (Nat.pos_iff_ne_zero.mp positive)
    rw [keys_keep, h.keys, h.capacity, recency, List.take_succ_cons, List.take_succ_cons]
    exact congrArg (s.file :: ·) (take_filter_take (nodup_recency log) n)
  · intro file ls' hl
    have hins : (c.files.insert s.file ls).get? file = some ls' := get?_takeRecent hl
    by_cases hfile : file = s.file
    · subst hfile
      rw [Table.get?_insert_self] at hins
      cases hins
      exact read
    · rw [Table.get?_insert_of_ne _ _ hfile] at hins
      rw [lastRead?_of_ne (Ne.symm hfile)]
      exact h.texts file ls' hins

theorem of_asked (h : Tracks limit us log c) (asked : u.asked? = some path) :
    Tracks limit (us ++ [u]) log c := by
  refine ⟨h.capacity, fun file => ?_, h.nodup, h.keys, h.texts⟩
  rw [registered?_of_asked (registers?_of_asked asked)]
  exact h.registered file

/-- What a path is told where its text is not registered: what was read last, if its file is kept, and what
is on disk if not. -/
theorem told (h : Tracks limit us log c) (w : Surroundings) (path : Path)
    (unregistered : registered? us path.components = none) :
    (IsRecent log limit path.components → ∃ s ls, lastRead? log path.components = some s ∧
      s.lines = some ls ∧ c.lines w path = (some ls, c.keep path ls)) ∧
    (¬ IsRecent log limit path.components →
      (∀ ls, readLines w path = some ls → c.lines w path = (some ls, c.keep path ls)) ∧
      (readLines w path = none → c.lines w path = (none, c))) := by
  have hr : c.registered.get? path.components = none := by rw [h.registered, unregistered]; rfl
  rw [← h.contains_iff]
  unfold lines Table.contains
  rw [hr]
  dsimp only
  cases hf : c.files.get? path.components with
  | some ls =>
    obtain ⟨s, hs, hl⟩ := h.texts _ ls hf
    exact ⟨fun _ => ⟨s, ls, hs, hl, rfl⟩, fun hno => absurd rfl hno⟩
  | none =>
    refine ⟨fun hyes => absurd hyes Bool.false_ne_true, fun _ => ⟨?_, ?_⟩⟩
    · intro ls hread
      rw [hread]
    · intro hread
      rw [hread]

/-- The step of a use that asks for lines. -/
theorem step_asked (h : Tracks limit us log c) (positive : 0 < limit) (path : Path)
    (asked : u.asked? = some path) :
    Tracks limit (us ++ [u]) ((serving? (c, w) u).toList ++ log) (use (c, w) u).1 := by
  have hsame := h.of_asked asked
  rw [use_of_asked asked, serving?, asked]
  dsimp only
  cases hr : registered? us path.components with
  | some text =>
    have hreg : c.registered.get? path.components = some (split text) := by rw [h.registered, hr]; rfl
    have hlines : c.lines w path = (some (split text), c) := by rw [lines, hreg]
    simpa [Table.contains, hreg, hlines] using hsame
  | none =>
    have hreg : c.registered.contains path.components = false := by
      rw [Table.contains, h.registered, hr]; rfl
    rw [hreg]
    obtain ⟨hkept, hgone⟩ := h.told w path hr
    by_cases hrecent : IsRecent log limit path.components
    · obtain ⟨s, ls, hs, hl, hlines⟩ := hkept hrecent
      have hcontains := (h.contains_iff path.components).mpr hrecent
      have hkeep := hsame.keep positive ⟨path, w, false⟩ ⟨s, (lastRead?_of_kept rfl _).trans hs, hl⟩
      rw [hlines, hcontains]
      exact hkeep
    · have hcontains : c.files.contains path.components = false :=
        Bool.eq_false_iff.mpr fun hc => hrecent ((h.contains_iff _).mp hc)
      cases hread : readLines w path with
      | some ls =>
        have hkeep := hsame.keep positive ⟨path, w, true⟩ ⟨_, lastRead?_of_read rfl, hread⟩
        rw [(hgone hrecent).1 ls hread, hcontains]
        exact hkeep
      | none =>
        rw [(hgone hrecent).2 hread]
        exact hsame

theorem step (h : Tracks limit us log c) (positive : 0 < limit) (w : Surroundings) (u : SourceUse) :
    Tracks limit (us ++ [u]) ((serving? (c, w) u).toList ++ log) (use (c, w) u).1 := by
  cases u with
  | lines path => exact h.step_asked positive path rfl
  | line path n => exact h.step_asked positive path rfl
  | range path start stop => exact h.step_asked positive path rfl
  | disk d =>
    refine ⟨h.capacity, fun file => ?_, h.nodup, h.keys, h.texts⟩
    rw [registered?_of_asked rfl]
    exact h.registered file
  | register path text =>
    refine ⟨h.capacity, fun file => ?_, Table.nodup_insert h.nodup, h.keys, h.texts⟩
    rw [registered?_register, use, register, Table.get?_insert]
    split
    · rfl
    · exact h.registered file

end Tracks

theorem tracks_after (capacity : Nat) (w : Surroundings) (us : List SourceUse) :
    Tracks (max 1 capacity) us (servings (ofCapacity capacity, w) us) (after capacity w us).1 := by
  induction us using List.reverseRecOn with
  | nil => exact .new capacity
  | append_singleton us u ih =>
    rw [servings_concat, after_concat]
    exact ih.step (by omega) (after capacity w us).2 u

theorem Tracks.size_le {limit : Nat} {log : List Serving} (h : Tracks limit us log c) :
    c.files.size ≤ limit ∧ c.size = c.files.size + (registeredFiles us).card := by
  have hkeys : c.files.size = c.files.keys.length := by simp [Table.size, Table.keys]
  have hsame : c.registered.keys.toFinset = registeredFiles us := by
    ext file
    rw [List.mem_toFinset, Table.mem_keys, Table.contains, h.registered, Option.isSome_map,
      isSome_registered?]
  have hregistered : c.registered.size = (registeredFiles us).card := by
    rw [← hsame, List.toFinset_card_of_nodup h.nodup]
    simp [Table.size, Table.keys]
  refine ⟨?_, by rw [size, hregistered]⟩
  rw [hkeys, h.keys]
  exact List.length_take_le _ _

/-- A new cache after any uses, among changes of the disk, and what it is asked for then. It keeps at most
as many files as it has places, and it has one at least, besides the files whose texts were registered. A
path whose text was registered tells the text registered last. Any other tells what was on disk when its
file was read last, if it was served and less than that many other files have been since; if not, it tells
what is on disk, and where there is nothing to tell, nothing is kept. A range that begins in the file is
made of the lines that are told one by one, before or after it, and any other is absent. -/
theorem recent_files_answer_as_read (capacity : Nat) (w : Surroundings) (us : List SourceUse)
    (path : Path) :
    let c := (after capacity w us).1
    let around := (after capacity w us).2
    let log := servings (ofCapacity capacity, w) us
    let told := (c.lines around path).1
    (c.files.size ≤ max 1 capacity ∧ c.size = c.files.size + (registeredFiles us).card) ∧
    (∀ text, registered? us path.components = some text → told = some (split text)) ∧
    (registered? us path.components = none →
      (IsRecent log (max 1 capacity) path.components →
        ∃ s, lastRead? log path.components = some s ∧ told = s.lines ∧ told ≠ none) ∧
      (¬ IsRecent log (max 1 capacity) path.components →
        told = readLines around path ∧ (told = none → (c.lines around path).2 = c))) ∧
    ∀ start stop, 1 ≤ start →
      let range := c.range around path start stop
      let last := min stop (told.getD []).length
      (∀ n, range.2.line around path n = ((c.line around path n).1, range.2)) ∧
      range.1 =
        if start ≤ last then
          some ((List.range' start (last + 1 - start)).map fun n => (c.line around path n).1)
        else none := by
  intro c around log told
  have h : Tracks (max 1 capacity) us log c := tracks_after capacity w us
  refine ⟨h.size_le, ?_, ?_, ?_⟩
  · intro text htext
    have hreg : c.registered.get? path.components = some (split text) := by rw [h.registered, htext]; rfl
    simp only [told, lines, hreg]
  · intro unregistered
    obtain ⟨hkept, hgone⟩ := h.told around path unregistered
    constructor
    · intro hrecent
      obtain ⟨s, ls, hs, hl, hlines⟩ := hkept hrecent
      have htold : told = some ls := congrArg Prod.fst hlines
      exact ⟨s, hs, htold.trans hl.symm, by simp [htold]⟩
    · intro hold
      refine ⟨?_, fun hnone => lines_of_none hnone⟩
      cases hread : readLines around path with
      | some ls => exact congrArg Prod.fst ((hgone hold).1 ls hread)
      | none => exact congrArg Prod.fst ((hgone hold).2 hread)
  · intro start stop hstart range last
    have hpositive : 0 < c.capacity := by rw [h.capacity]; omega
    have hrange : range = (told.bind fun ls => rangeAt ls start stop, (c.lines around path).2) :=
      range_eq c around path start stop
    have hline : (fun n => (c.line around path n).1) = lineAt told := rfl
    rw [hrange, hline]
    constructor
    · intro n
      rw [line_eq, line_eq, lines_twice hpositive]
    · cases htold : told with
      | some ls =>
        have hlast : last = min stop ls.length := by simp [last, htold]
        rw [hlast]
        exact rangeAt_eq ls hstart stop
      | none =>
        have hlast : last = 0 := by simp [last, htold]
        rw [hlast, if_neg (by omega)]
        rfl

end

def diskOfLine (line : String) : Disk :=
  { entries := ⟨[(["p.py"], .file line.toUTF8)]⟩ }

def changedFile : List SourceUse :=
  [.line ⟨"/p.py"⟩ 1, .disk (diskOfLine "x = 2"), .register ⟨"/q.py"⟩ "y = 1", .lines ⟨"/q.py"⟩,
    .range ⟨"/r.py"⟩ 1 2]

/-- Where there is place for one file, the others take it from none. -/
theorem recent_files_answer_as_read_of_changed_file :
    let w : Surroundings := { disk := diskOfLine "x = 1" }
    let s := after 0 w changedFile
    let log := servings (ofCapacity 0, w) changedFile
    registered? changedFile (Path.components ⟨"/p.py"⟩) = none ∧
      IsRecent log (max 1 0) (Path.components ⟨"/p.py"⟩) ∧ 1 ≤ 1 ∧
      (s.1.lines s.2 ⟨"/p.py"⟩).1 = some ["x = 1"] ∧ readLines s.2 ⟨"/p.py"⟩ = some ["x = 2"] ∧
      (s.1.range s.2 ⟨"/p.py"⟩ 1 7).1 = some [(s.1.line s.2 ⟨"/p.py"⟩ 1).1] := by
  intro w s log
  obtain ⟨-, -, hunregistered, hrange⟩ := recent_files_answer_as_read 0 w changedFile ⟨"/p.py"⟩
  have hnone : registered? changedFile (Path.components ⟨"/p.py"⟩) = none := by decide +kernel
  have hrecent : IsRecent log (max 1 0) (Path.components ⟨"/p.py"⟩) := by
    rw [← mem_take_recency]
    decide +kernel
  obtain ⟨r, hr, hread, -⟩ := (hunregistered hnone).1 hrecent
  have hlines : (lastRead? log (Path.components ⟨"/p.py"⟩)).bind Serving.lines = some ["x = 1"] := by
    decide +kernel
  rw [hr] at hlines
  have htold : (s.1.lines s.2 ⟨"/p.py"⟩).1 = some ["x = 1"] := hread.trans hlines
  refine ⟨hnone, hrecent, Nat.le_refl 1, htold, by decide +kernel, ?_⟩
  have hone := (hrange 1 7 (Nat.le_refl 1)).2
  rw [htold] at hone
  exact hone

end SourceCache
end SelectiveTrace
