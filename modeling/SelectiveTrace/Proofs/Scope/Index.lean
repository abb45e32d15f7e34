import SelectiveTrace.Proofs.Grammar.Statements
import SelectiveTrace.Scope.Query

/-! The lines an index answers with lie in the text it was made of, first line first; and an index that
is kept stays the one its file gives, as long as the contents of the file stay. -/
namespace SelectiveTrace

namespace Table
variable {κ α : Type} [DecidableEq κ] {t : Table κ α} {k : κ} {a : α} {e : κ × α}

theorem mem_of_get? (h : t.get? k = some a) : (k, a) ∈ t.entries := by
  obtain ⟨⟨j, b⟩, hfind, rfl⟩ := Option.map_eq_some_iff.mp h
  obtain rfl : j = k := of_decide_eq_true (List.find?_some hfind :)
  exact List.mem_of_find?_eq_some hfind

theorem mem_insert (h : e ∈ (t.insert k a).entries) : e = (k, a) ∨ e ∈ t.entries := by
  rcases List.mem_cons.mp h with rfl | h
  · exact .inl rfl
  · exact .inr (List.mem_of_mem_filter h)

end Table

structure LineSpan.IsWithin (k : Nat) (s : LineSpan) : Prop where
  ordered : s.start ≤ s.stop
  within : s.stop ≤ k

/-- A node counts its rows from zero, its span from one. -/
theorem SyntaxNode.Fits.span {k : Nat} {n : SyntaxNode} (h : n.Fits k) :
    n.span.IsWithin (k + 1) := by
  cases h with
  | @node kind start stop name children ordered within =>
    have hspan : (SyntaxNode.node kind start stop name children).span =
      ⟨start.row + 1,
        (if stop.column = 0 ∧ start.row < stop.row then stop.row - 1 else stop.row) + 1⟩ := rfl
    rw [hspan]
    constructor <;> dsimp only <;> split <;> omega

namespace ScopeIndex
variable {k line : Nat} {ix : ScopeIndex} {s : LineSpan} {names : List String}

/-- What an index holds are lines of a text of `k` lines, and the names in it are identifiers with
dots between them. -/
structure IsWithin (k : Nat) (ix : ScopeIndex) : Prop where
  statements : ∀ e ∈ ix.statementEnds.entries, LineSpan.IsWithin k ⟨e.1, e.2⟩
  ranges : ∀ e ∈ ix.ranges.entries, e.2.span.IsWithin k
  named : ∀ e ∈ ix.ranges.entries, IsWord e.1

mutual

/-- Every definition that is entered is left again. -/
theorem names_collect : ∀ (n : SyntaxNode) (c : Collector), (collect n c).names = c.names
  | .node kind start stop name children, c => by
    unfold collect
    dsimp only
    split
    case h_1 => simp [Collector.leave, names_collectAll, Collector.enter, apply_ite Collector.names,
      Collector.addStatement]
    case h_2 => simp [names_collectAll, apply_ite Collector.names, Collector.addStatement]

theorem names_collectAll : ∀ (ns : List SyntaxNode) (c : Collector),
    (collectAll ns c).names = c.names
  | [], _ => rfl
  | n :: ns, c => (names_collectAll ns (collect n c)).trans (names_collect n c)

end

theorem isWithin_empty : ({} : ScopeIndex).IsWithin k :=
  ⟨nofun, nofun, nofun⟩

/-- The first name decides how a dotted one begins. -/
theorem isWord_dotted {name : String} (h : IsWord name) : IsWord (dotted (name :: names)) := by
  have hhead : (dotted (name :: names)).toList.head? = name.toList.head? := by
    unfold IsWord at h
    cases hname : name.toList with
    | nil => simp [hname] at h
    | cons c cs => cases names <;> simp [dotted, String.toList_intercalate, hname]
  exact (congrArg (Option.any Text.isIdentifierStart) hhead).trans h

theorem isWord_dotted_append {name : String} (hn : ∀ s ∈ names, IsWord s) (h : IsWord name) :
    IsWord (dotted (names ++ [name])) := by
  cases names with
  | nil => exact isWord_dotted h
  | cons first names => exact isWord_dotted (hn first List.mem_cons_self)

namespace IsWithin

theorem statementRange (h : ix.IsWithin k) (hs : ix.statementRange line = some s) :
    s.IsWithin k := by
  obtain ⟨stop, hget, rfl⟩ := Option.map_eq_some_iff.mp hs
  exact h.statements _ (Table.mem_of_get? hget)

theorem addStatement (h : ix.IsWithin k) (hs : s.IsWithin k) : (ix.addStatement s).IsWithin k := by
  refine ⟨fun e he => ?_, h.ranges, h.named⟩
  rcases Table.mem_insert he with rfl | he
  · split
    case h_1 stop hget =>
      have := h.statements _ (Table.mem_of_get? hget)
      exact ⟨hs.ordered.trans (le_max_right ..), max_le this.within hs.within⟩
    case h_2 => exact hs
  · exact h.statements e he

theorem addRange {r : ScopeRange} (h : ix.IsWithin k) (hn : IsWord (dotted names))
    (hr : r.span.IsWithin k) : (ix.addRange names r).IsWithin k := by
  refine ⟨h.statements, fun e he => ?_, fun e he => ?_⟩ <;>
    rcases Table.mem_insert he with rfl | he
  · exact hr
  · exact h.ranges e he
  · exact hn
  · exact h.named e he

theorem collectAll {nodes : List SyntaxNode} {c : Collector} (h : c.index.IsWithin k)
    (step : ∀ n ∈ nodes, ∀ c' : Collector, c'.names = c.names → c'.index.IsWithin k →
      (collect n c').index.IsWithin k) : (collectAll nodes c).index.IsWithin k := by
  induction nodes generalizing c with
  | nil => exact h
  | cons n nodes ih =>
    have hn := step n List.mem_cons_self c rfl h
    refine ih hn fun m hm c' hc => step m (List.mem_cons_of_mem n hm) c' ?_
    exact hc.trans (names_collect n c)

theorem collect {n : SyntaxNode} {c : Collector} (hn : n.Fits k) (hw : ∀ s ∈ c.names, IsWord s)
    (h : c.index.IsWithin (k + 1)) : (collect n c).index.IsWithin (k + 1) := by
  induction hn generalizing c with
  | @node kind start stop name children ordered within named inner ih =>
    have hspan : (SyntaxNode.node kind start stop name children).span.IsWithin (k + 1) :=
      (SyntaxNode.Fits.node ordered within named inner).span
    set span := (SyntaxNode.node kind start stop name children).span
    obtain ⟨c', hc', hnames, hix⟩ : ∃ c', (if kind.isStatement then c.addStatement span else c) = c' ∧
        c'.names = c.names ∧ c'.index.IsWithin (k + 1) := by
      split
      case isTrue => exact ⟨_, rfl, rfl, h.addStatement hspan⟩
      case isFalse => exact ⟨_, rfl, rfl, h⟩
    rw [← hnames] at hw
    unfold ScopeIndex.collect
    dsimp only
    rw [hc']
    split
    case h_1 scope n hscope =>
      have hname : IsWord n := named n rfl
      have hw' : ∀ s ∈ c'.names ++ [n], IsWord s := by
        intro s hs
        rcases List.mem_append.mp hs with hs | hs
        · exact hw s hs
        · exact List.mem_singleton.mp hs ▸ hname
      have hentered : (c'.enter n ⟨scope, span⟩).index.IsWithin (k + 1) :=
        hix.addRange (isWord_dotted_append hw hname) hspan
      exact hentered.collectAll fun m hm d hd => ih m hm (hd ▸ hw')
    case h_2 => exact hix.collectAll fun m hm d hd => ih m hm (hd ▸ hw)

end IsWithin

/-- The index of a text stays within its lines. -/
theorem isWithin_of_ofSource {source : String} (h : ofSource source = .ok ix) :
    ix.IsWithin (source.toList.count '\n' + 1) := by
  unfold ofSource at h
  split at h
  case h_1 root hroot =>
    cases h
    have hempty : ({} : Collector).index.IsWithin (source.toList.count '\n' + 1) := isWithin_empty
    refine hempty.collectAll fun n hn c hc => ?_
    exact IsWithin.collect (Grammar.fits_of_parse hroot n hn) (hc ▸ nofun)
  case h_2 => cases h

theorem innermost_mem {spans : List LineSpan} (h : innermost spans = some s) : s ∈ spans := by
  induction spans generalizing s with
  | nil => cases h
  | cons first spans ih =>
    unfold innermost at h
    split at h
    case h_1 t ht =>
      split at h
      · exact List.mem_cons_of_mem first (Option.some.inj h ▸ ih ht)
      · exact Option.some.inj h ▸ List.mem_cons_self
    case h_2 => exact Option.some.inj h ▸ List.mem_cons_self

/-- The function found around a line is one of the index and holds the line. -/
theorem exists_of_enclosingMethod (h : ix.enclosingMethod line = some s) :
    ∃ e ∈ ix.ranges.entries, e.2.kind = .method ∧ e.2.span = s ∧ s.contains line := by
  obtain ⟨r, hr, hkept⟩ := List.mem_filterMap.mp (innermost_mem h)
  obtain ⟨e, he, rfl⟩ := List.mem_map.mp hr
  split at hkept
  case isTrue hc =>
    obtain ⟨hkind, hline⟩ := Bool.and_eq_true_iff.mp hc
    cases hkept
    exact ⟨e, he, of_decide_eq_true hkind, rfl, hline⟩
  case isFalse => cases hkept

theorem IsWithin.enclosingMethod (h : ix.IsWithin k) (hs : ix.enclosingMethod line = some s) :
    s.IsWithin k := by
  obtain ⟨e, he, -, rfl, -⟩ := exists_of_enclosingMethod hs
  exact h.ranges e he

theorem exists_of_methodRange {name : String} (h : ix.methodRange name = some s) :
    ∃ r : ScopeRange, (name, r) ∈ ix.ranges.entries ∧ r.span = s := by
  obtain ⟨r, hget, hr⟩ := Option.map_eq_some_iff.mp h
  exact ⟨r, Table.mem_of_get? hget, hr⟩

theorem IsWithin.answer {query : ScopeQuery} (h : ix.IsWithin k)
    (hs : query.answer ix = some s) : s.IsWithin k := by
  cases query with
  | statementRange line => exact h.statementRange hs
  | belongingMethod line => exact h.enclosingMethod hs
  | methodRange name =>
    obtain ⟨r, hr, rfl⟩ := exists_of_methodRange hs
    exact h.ranges _ hr

/-- Only what begins the way identifiers do is the name of a function or class. -/
theorem IsWithin.isWord {name : String} (h : ix.IsWithin k)
    (hs : ix.methodRange name = some s) : IsWord name := by
  obtain ⟨r, hr, -⟩ := exists_of_methodRange hs
  exact h.named _ hr

end ScopeIndex

namespace Surroundings
variable {w v : Surroundings} {file other : Path}

def freshIndex (w : Surroundings) (file : Path) : ScopeIndex :=
  match ScopeIndex.load w (w.absolute file) with
  | .ok ix => ix
  | .error _ => {}

/-- If an index of the file has been kept, its contents have not changed since. -/
def IsCurrent (w : Surroundings) (file : Path) : Prop :=
  ∀ ix, w.indexes.get? (w.absolute file).components = some ix → ix = w.freshIndex file

/-- Numbers of thirty-two bits, as lines have on the wire, are enough for the lines of the file, if it
can be read. -/
def IsCounted (w : Surroundings) (file : Path) : Prop :=
  ∀ bytes, w.disk.read (w.absolute file) = .ok bytes →
    (Text.ofUtf8Lossy bytes).toList.count '\n' + 1 < 2 ^ 32

theorem isCurrent_of_unread (h : w.indexes.entries = []) : w.IsCurrent file := by
  intro ix hget
  simp [Table.get?, h] at hget

theorem absolute_of_isAbsolute (h : file.isAbsolute) : w.absolute file = file :=
  if_pos h

theorem index_fst (h : w.IsCurrent file) : (w.index file).1 = w.freshIndex file := by
  unfold index
  dsimp only
  split
  case h_1 ix hget => exact h ix hget
  case h_2 => rfl

theorem index_disk : (w.index file).2.disk = w.disk := by
  unfold index
  dsimp only
  split <;> rfl

/-- The index of a file depends on what is read of it alone. -/
theorem freshIndex_congr (h : v.disk.read (v.absolute other) = w.disk.read (w.absolute file)) :
    v.freshIndex other = w.freshIndex file := by
  simp only [freshIndex, ScopeIndex.load, h]

theorem freshIndex_isWithin (h : w.IsCounted file) :
    ∃ k < 2 ^ 32, (w.freshIndex file).IsWithin k := by
  unfold freshIndex ScopeIndex.load
  cases hread : w.disk.read (w.absolute file) with
  | error e => exact ⟨0, by decide, ScopeIndex.isWithin_empty⟩
  | ok bytes =>
    dsimp only
    split
    case h_1 ix hix => exact ⟨_, h bytes hread, ScopeIndex.isWithin_of_ofSource hix⟩
    case h_2 => exact ⟨0, by decide, ScopeIndex.isWithin_empty⟩

/-- A question about another file, or again about this one, leaves what is kept of it current. -/
theorem IsCurrent.index (h : w.IsCurrent file)
    (hother : (w.absolute other).components = (w.absolute file).components →
      w.freshIndex other = w.freshIndex file) : (w.index other).2.IsCurrent file := by
  unfold Surroundings.index
  dsimp only
  split
  case h_1 => exact h
  case h_2 =>
    intro ix hget
    have hkept : (w.indexes.insert (w.absolute other).components (w.freshIndex other)).get?
        (w.absolute file).components = some ix := hget
    by_cases hsame : (w.absolute file).components = (w.absolute other).components
    · rw [hsame, Table.get?_insert_self] at hkept
      exact (Option.some.inj hkept).symm.trans (hother hsame.symm)
    · rw [Table.get?_insert_of_ne _ _ hsame] at hkept
      exact h ix hkept

end Surroundings

end SelectiveTrace
