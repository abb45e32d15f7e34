import Mathlib
import SelectiveTrace.Grammar.Expression

/-! What every reading step of the grammar keeps: a reader only moves on and never passes more lines
than the text has, and what has been read spans lines no later than that of the last token. -/
namespace SelectiveTrace

def IsWord (s : String) : Prop :=
  s.toList.head?.any Text.isIdentifierStart

/-- A node that ends no earlier than it starts and not below row `k`, as do all nodes in it; a name
begins the way identifiers do. -/
inductive SyntaxNode.Fits (k : Nat) : SyntaxNode → Prop where
  | node {kind : NodeKind} {start stop : Place} {name : Option String}
      {children : List SyntaxNode}
      (ordered : start.row ≤ stop.row) (within : stop.row ≤ k)
      (named : ∀ s ∈ name, IsWord s)
      (inner : ∀ n ∈ children, n.Fits k) : Fits k (.node kind start stop name children)

namespace SyntaxNode.Fits
variable {k k' : Nat} {n : SyntaxNode}

theorem mono (h : n.Fits k) (hk : k ≤ k') : n.Fits k' := by
  induction h with
  | node ordered within named _ ih => exact .node ordered (within.trans hk) named ih

theorem start_le (h : n.Fits k) : n.start.row ≤ k := by
  cases h with
  | node ordered within => exact ordered.trans within

end SyntaxNode.Fits

namespace Grammar
open Std.Do

/-- A line end is counted once: in the place after it, or in the text before it. -/
theorem Place.row_after (p : Place) (c : Char) (cs : List Char) :
    (Place.after p c).row + cs.count '\n' = p.row + (c :: cs).count '\n' := by
  unfold Place.after
  split
  case isTrue h => simp [h, Nat.add_assoc, Nat.add_comm 1]
  case isFalse h => simp [h]

theorem Place.le_after (p : Place) (c : Char) : p.row ≤ (Place.after p c).row := by
  unfold Place.after
  split <;> simp

theorem Place.row_afterAll (p : Place) (cs : List Char) :
    (Place.afterAll p cs).row = p.row + cs.count '\n' := by
  induction cs generalizing p with
  | nil => rfl
  | cons c cs ih => exact (ih (Place.after p c)).trans (Place.row_after p c cs)

theorem Place.row_split (p : Place) {front rest cs : List Char} (h : front ++ rest = cs) :
    p.row ≤ (Place.afterAll p front).row ∧
    (Place.afterAll p front).row + rest.count '\n' = p.row + cs.count '\n' := by
  rw [Place.row_afterAll, ← h, List.count_append]
  omega

def Reader.lastRow (r : Reader) : Nat :=
  r.place.row + r.rest.count '\n'

/-- A string literal opens at the place of `r` or behind it, and the rest of it is text of `r`. -/
def Look.StartsIn (r : Reader) : Look → Prop
  | .string _ rest stop => r.place.row ≤ stop.row ∧ stop.row + rest.count '\n' ≤ r.lastRow
  | _ => True

/-- The last token ends before the place of the reader, and so do the line continuations passed. -/
structure Reader.IsSound (r : Reader) : Prop where
  stop : r.lastStop.row ≤ r.place.row
  ahead : ∀ l ∈ r.ahead, l.StartsIn r
  continuations : ∀ n ∈ r.continuations, n.Fits r.place.row

structure Reader.Reaches (r r' : Reader) : Prop where
  sound : r'.IsSound
  place : r.place.row ≤ r'.place.row
  stop : r.lastStop.row ≤ r'.lastStop.row
  lastRow : r'.lastRow ≤ r.lastRow

structure Reader.Takes (r r' : Reader) : Prop extends r.Reaches r' where
  taken : r.place.row ≤ r'.lastStop.row

def Reader.IsSettled (r : Reader) : Prop :=
  r.place.row ≤ r.lastStop.row

namespace Reader
variable {r r' r'' : Reader}

theorem Reaches.refl (h : r.IsSound) : r.Reaches r := ⟨h, le_rfl, le_rfl, le_rfl⟩

theorem Reaches.trans (h : r.Reaches r') (h' : r'.Reaches r'') : r.Reaches r'' :=
  ⟨h'.sound, h.place.trans h'.place, h.stop.trans h'.stop, h'.lastRow.trans h.lastRow⟩

@[grind =] theorem reaches_iff : r.Reaches r' ↔ r'.IsSound ∧ r.place.row ≤ r'.place.row ∧
    r.lastStop.row ≤ r'.lastStop.row ∧ r'.lastRow ≤ r.lastRow :=
  ⟨fun h => ⟨h.sound, h.place, h.stop, h.lastRow⟩, fun h => ⟨h.1, h.2.1, h.2.2.1, h.2.2.2⟩⟩

@[grind =] theorem takes_iff : r.Takes r' ↔ r.Reaches r' ∧ r.place.row ≤ r'.lastStop.row :=
  ⟨fun h => ⟨h.toReaches, h.taken⟩, fun h => ⟨h.1, h.2⟩⟩

end Reader

/-! ### The gap before a token -/

theorem gap?_moves {comments inComment : Bool} {g g' : Gap} {cs : List Char} {p : Place}
    (h : gap? comments inComment g cs p = some g') :
    p.row ≤ g'.place.row ∧ g'.place.row + g'.rest.count '\n' = p.row + cs.count '\n' := by
  have step {c : Char} {cs : List Char} {p : Place}
      (h : (Place.after p c).row ≤ g'.place.row ∧
        g'.place.row + g'.rest.count '\n' = (Place.after p c).row + cs.count '\n') :
      p.row ≤ g'.place.row ∧
        g'.place.row + g'.rest.count '\n' = p.row + (c :: cs).count '\n' :=
    ⟨(Place.le_after p c).trans h.1, h.2.trans (Place.row_after p c cs)⟩
  fun_induction gap? comments inComment g cs p
  case case1 | case12 | case14 => cases h; simp
  case case9 | case13 => cases h
  case case10 ih | case11 ih =>
    obtain ⟨hp, hn⟩ := ih h
    simp only [List.count_cons] at hp hn ⊢
    exact ⟨by omega, by simp; omega⟩
  all_goals rename_i ih; exact step (ih h)

theorem stringStart?_suffix {s s' : StringStart} {cs rest : List Char}
    (h : stringStart? s cs = some (s', rest)) : rest <:+ cs := by
  fun_induction stringStart? s cs
  case case1 | case10 => cases h
  case case6 | case8 | case9 =>
    cases h
    exact List.suffix_cons ..
  case case7 c _ _ _ _ _ _ d e _ _ =>
    cases h
    exact List.suffix_append [c, d, e] _
  all_goals rename_i ih; exact (ih h).trans (List.suffix_cons ..)

/-! ### What stands next -/

variable {want : Want} {r r' : Reader} {l : Look}

/-- Moving on in the text without taking a token. -/
theorem Reader.IsSound.move (hr : r.IsSound) (stop : r'.lastStop = r.lastStop)
    (same : r'.continuations = r.continuations) (ahead : r'.ahead = none)
    (place : r.place.row ≤ r'.place.row) (lastRow : r'.lastRow ≤ r.lastRow) : r.Reaches r' where
  sound := {
    stop := stop ▸ hr.stop.trans place
    ahead := by simp [ahead]
    continuations := fun n hn => (hr.continuations n (same ▸ hn)).mono place }
  place := place
  stop := stop ▸ le_rfl
  lastRow := lastRow

/-- Moving on in the text and taking what has been passed. -/
theorem Reader.IsSound.stopAt (hr : r.IsSound) (stop : r'.lastStop = r'.place)
    (same : r'.continuations = r.continuations) (ahead : r'.ahead = none)
    (place : r.place.row ≤ r'.place.row) (lastRow : r'.lastRow ≤ r.lastRow) : r.Takes r' where
  sound := {
    stop := stop ▸ le_rfl
    ahead := by simp [ahead]
    continuations := fun n hn => (hr.continuations n (same ▸ hn)).mono place }
  place := place
  stop := stop ▸ hr.stop.trans place
  lastRow := lastRow
  taken := stop ▸ place

theorem structural?_reaches (hr : r.IsSound) (hn : r.ahead = none)
    (h : structural? want r = some (l, r')) :
    r.Reaches r' ∧ r'.ahead = none ∧ l.StartsIn r' := by
  simp only [structural?, Option.bind_eq_bind, Option.bind_eq_some_iff] at h
  obtain ⟨g, hg, h⟩ := h
  obtain ⟨hp, hc⟩ := gap?_moves hg
  split_ifs at h
  case pos | pos | pos =>
    cases h
    exact ⟨hr.move rfl rfl hn le_rfl le_rfl, hn, trivial⟩
  case pos =>
    obtain ⟨⟨opening, rest⟩, hs, h⟩ := Option.bind_eq_some_iff.mp h
    cases h
    obtain ⟨hp', hc'⟩ := Place.row_split g.place
      (List.suffix_iff_eq_append.mp (stringStart?_suffix hs))
    exact ⟨hr.move rfl rfl hn hp hc.le, hn, hp', hc'.le⟩

theorem Reader.continue_reaches {rest : List Char} {place : Place} (hr : r.IsSound)
    (hn : r.ahead = none) (hp : r.place.row ≤ place.row)
    (hc : place.row + 1 + rest.count '\n' ≤ r.lastRow) :
    r.Reaches (r.continue place rest) where
  sound := {
    stop := (hr.stop.trans hp).trans (Nat.le_succ _)
    ahead := by simp [Reader.continue, hn]
    continuations := by
      intro n h
      obtain h | h := List.mem_append.mp h
      · exact (hr.continuations n h).mono (hp.trans (Nat.le_succ _))
      · rw [List.mem_singleton.mp h]
        exact .node (Nat.le_succ _) le_rfl nofun nofun }
  place := hp.trans (Nat.le_succ _)
  stop := le_rfl
  lastRow := hc

theorem advance_reaches {fuel : Nat} (hr : r.IsSound) (hn : r.ahead = none)
    (h : advance want fuel r = (l, r')) : r.Reaches r' ∧ l.StartsIn r' := by
  induction fuel generalizing r with
  | zero =>
    cases h
    exact ⟨.refl hr, trivial⟩
  | succ fuel ih =>
    simp only [advance] at h
    split at h
    case h_1 found hs =>
      obtain ⟨hreach, -, hl⟩ := structural?_reaches hr hn (hs.trans (congrArg some h))
      exact ⟨hreach, hl⟩
    case h_2 =>
      obtain ⟨hp, hc⟩ := Place.row_split r.place
        (@List.takeWhile_append_dropWhile _ isSeparator r.rest)
      generalize r.rest.dropWhile isSeparator = rest at h hc
      generalize Place.afterAll r.place (r.rest.takeWhile isSeparator) = place at h hp hc
      split at h
      case h_1 tail =>
        obtain ⟨hp', hc'⟩ := Place.row_split place
          (@List.takeWhile_append_dropWhile _ (· ≠ '\n') ('#' :: tail))
        have hm : r.Reaches { r with
            rest := ('#' :: tail).dropWhile (· ≠ '\n')
            place := Place.afterAll place (('#' :: tail).takeWhile (· ≠ '\n')) } :=
          hr.move rfl rfl hn (hp.trans hp') (hc'.trans hc).le
        obtain ⟨hreach, hl⟩ := ih hm.sound hn h
        exact ⟨hm.trans hreach, hl⟩
      case h_2 rest | h_3 rest =>
        have hc' : place.row + 1 + rest.count '\n' ≤ r.lastRow := by
          simp only [List.count_cons, Reader.lastRow] at hc ⊢
          rw [← hc]
          simp
          omega
        have hm := Reader.continue_reaches hr hn hp hc'
        obtain ⟨hreach, hl⟩ := ih hm.sound hn h
        exact ⟨hm.trans hreach, hl⟩
      case h_4 =>
        cases h
        exact ⟨hr.move rfl rfl hn hp hc.le, trivial⟩

/-! ### What is read -/

class Fitting (α : Type) where
  fits : Nat → α → Prop
  mono {k k' : Nat} {a : α} : fits k a → k ≤ k' → fits k' a

export Fitting (fits)

instance : Fitting Unit := ⟨fun _ _ => True, fun h _ => h⟩
instance : Fitting Bool := ⟨fun _ _ => True, fun h _ => h⟩
instance : Fitting Place := ⟨fun k p => p.row ≤ k, fun h hk => h.trans hk⟩
instance : Fitting SyntaxNode := ⟨SyntaxNode.Fits, SyntaxNode.Fits.mono⟩
instance : Fitting Term := ⟨fun k t => t.node.Fits k, SyntaxNode.Fits.mono⟩

variable {α β : Type} [Fitting α] [Fitting β] {k k' : Nat}

instance : Fitting (Option α) :=
  ⟨fun k o => ∀ a ∈ o, fits k a, fun h hk a ha => Fitting.mono (h a ha) hk⟩
instance : Fitting (List α) :=
  ⟨fun k as => ∀ a ∈ as, fits k a, fun h hk a ha => Fitting.mono (h a ha) hk⟩
instance : Fitting (α × β) :=
  ⟨fun k p => fits k p.1 ∧ fits k p.2, fun h hk => ⟨Fitting.mono h.1 hk, Fitting.mono h.2 hk⟩⟩

@[grind .] theorem fits_unit (u : Unit) : fits k u := trivial

@[grind .] theorem fits_bool (b : Bool) : fits k b := trivial

@[grind =] theorem fits_place (p : Place) : fits k p ↔ p.row ≤ k := .rfl

@[grind =] theorem fits_term (t : Term) : fits k t ↔ fits k t.node := .rfl

@[grind =] theorem fits_pair (p : α × β) : fits k p ↔ fits k p.1 ∧ fits k p.2 := .rfl

@[grind .] theorem fits_none : fits k (none : Option α) := nofun

@[grind =] theorem fits_some (a : α) : fits k (some a) ↔ fits k a :=
  ⟨fun h => h a rfl, fun h _ e => Option.some.inj e ▸ h⟩

@[grind ←] theorem fits_or {o o' : Option α} (h : fits k o) (h' : fits k o') :
    fits k (o.or o') := by
  cases o with
  | none => exact h'
  | some => exact h

@[grind .] theorem fits_nil : fits k ([] : List α) := nofun

@[grind =] theorem fits_cons (a : α) (as : List α) :
    fits k (a :: as) ↔ fits k a ∧ fits k as :=
  List.forall_mem_cons

@[grind =] theorem fits_append (as bs : List α) :
    fits k (as ++ bs) ↔ fits k as ∧ fits k bs :=
  List.forall_mem_append

@[grind =] theorem fits_reverse (as : List α) : fits k as.reverse ↔ fits k as :=
  forall_congr' fun _ => by rw [List.mem_reverse]

@[grind ←] theorem fits_map {f : α → β} {as : List α} (hf : ∀ a, fits k a → fits k (f a))
    (h : fits k as) : fits k (as.map f) :=
  List.forall_mem_map.mpr fun a ha => hf a (h a ha)

@[grind ←] theorem fits_node {kind : NodeKind} {start stop : Place} {ns : List SyntaxNode}
    (hs : start.row ≤ stop.row) (hk : stop.row ≤ k) (hn : fits k ns) :
    fits k (SyntaxNode.node kind start stop none ns) :=
  .node hs hk nofun hn

@[grind ←] theorem fits_definition {kind : NodeKind} {start stop : Place} {ns : List SyntaxNode}
    {w : String} (hs : start.row ≤ stop.row) (hk : stop.row ≤ k) (hw : IsWord w) (hn : fits k ns) :
    fits k (SyntaxNode.node kind start stop (some w) ns) :=
  .node hs hk (fun _ h => Option.some.inj h ▸ hw) hn

theorem start_le_of_fits {n : SyntaxNode} (h : fits k n) : n.start.row ≤ k := h.start_le

grind_pattern Fitting.mono => fits k a, fits k' a
grind_pattern start_le_of_fits => fits k n, n.start

/-! ### Reading steps

A step that ends well takes a sound reader on, and what it reads fits the last token. The triples
are about the reader `r` that a step begins with. -/

set_option mvcgen.warning false

abbrev Readers : PostShape.{0} := .arg Reader (.except PUnit .pure)

theorem triple_iff {α : Type} {p : Parse α} {P : Reader → Prop} {Q : α → Reader → Prop} :
    ⦃fun r => ⌜P r⌝⦄ p ⦃⇓? a r' => ⌜Q a r'⌝⦄ ↔ ∀ r a r', P r → p r = some (a, r') → Q a r' := by
  have h (r : Reader) : (wp⟦p⟧ (⇓? a r' => ⌜Q a r'⌝) r).down ↔
      ∀ a r', p r = some (a, r') → Q a r' := by
    show (wp⟦p r⟧ _).down ↔ _
    cases p r with
    | none => exact ⟨fun _ => nofun, fun _ => trivial⟩
    | some e => exact ⟨fun h a r' e => by cases e; exact h, fun h => h _ _ rfl⟩
  exact ⟨fun ht r a r' hp => (h r).mp (ht r hp) a r',
    fun ht r hp => (h r).mpr fun a r' => ht r a r' hp⟩

abbrev At (r : Reader) : Assertion Readers := fun r' => ⌜r' = r⌝

abbrev Stays {α : Type} (r : Reader) : PostCond α Readers := ⇓? _ r' => ⌜r' = r⌝

abbrev To (r : Reader) (P : Reader → Prop) : PostCond α Readers :=
  ⇓? a r' => ⌜r.IsSound → P r' ∧ fits r'.lastStop.row a⌝

abbrev Ends (P : Reader → Prop) : PostCond α Readers :=
  ⇓? a r' => ⌜P r' ∧ fits r'.lastStop.row a⌝

abbrev Past (r : Reader) : PostCond α Readers := To r r.Reaches

abbrev Took (r : Reader) : PostCond α Readers := To r r.Takes

abbrev TookSince (r : Reader) (start : Place) : PostCond α Readers :=
  ⇓? a r' => ⌜r.IsSound → start.row ≤ r.place.row → r.Takes r' ∧ fits r'.lastStop.row a⌝

variable {r : Reader}

/-- Where `P` is stated of a sound reader, that is known while a step is taken apart. -/
theorem triple_of_sound {α : Type} {p : Parse α} {Q : α → Reader → Prop}
    (h : r.IsSound → ⦃At r⦄ p ⦃⇓? a r' => ⌜Q a r'⌝⦄) :
    ⦃At r⦄ p ⦃⇓? a r' => ⌜r.IsSound → Q a r'⌝⦄ :=
  triple_iff.mpr fun s a r' hs e hr => triple_iff.mp (h hr) s a r' hs e

@[spec] theorem failure_spec {α : Type} {Q : PostCond α Readers} :
    ⦃fun _ => Q.2.1 ⟨⟩⦄ (failure : Parse α) ⦃Q⦄ :=
  fun _ h => h

@[spec] theorem look_spec (want : Want) :
    ⦃At r⦄ look want ⦃⇓? _ r' => ⌜r.IsSound → r.Reaches r'⌝⦄ := by
  apply triple_of_sound
  intro hr
  mvcgen [look]
  case vc1.h_1 h _ _ =>
    subst h
    exact .refl hr
  case vc2.h_2 s h hn =>
    subst h
    obtain ⟨hm, hl⟩ := advance_reaches hr hn rfl
    refine ⟨⟨hm.sound.stop, ?_, hm.sound.continuations⟩, hm.place, hm.stop, hm.lastRow⟩
    rintro _ ⟨⟩
    exact hl

@[spec] theorem take_spec (n : Nat) :
    ⦃At r⦄ take n ⦃⇓? _ r' => ⌜r.IsSound → r.Takes r' ∧ r'.IsSettled⌝⦄ := by
  refine triple_iff.mpr fun s _ r' hs h hr => ?_
  obtain ⟨⟩ := h
  subst hs
  obtain ⟨hp, hc⟩ := Place.row_split s.place (s.rest.take_append_drop n)
  exact ⟨hr.stopAt rfl rfl rfl hp hc.le, le_rfl⟩

@[spec] theorem takeEmpty_spec :
    ⦃At r⦄ takeEmpty ⦃⇓? _ r' => ⌜r.IsSound → r.Takes r'⌝⦄ := by
  refine triple_iff.mpr fun s _ r' hs h hr => ?_
  obtain ⟨⟩ := h
  subst hs
  exact hr.stopAt rfl rfl rfl le_rfl le_rfl

@[spec] theorem here_spec : ⦃At r⦄ here ⦃⇓? p r' => ⌜r' = r ∧ p = r.place⌝⦄ := by
  mvcgen [here] with grind

@[spec] theorem lastStop_spec : ⦃At r⦄ lastStop ⦃⇓? p r' => ⌜r' = r ∧ p = r.lastStop⌝⦄ := by
  mvcgen [lastStop] with grind

@[spec] theorem plain_spec {start : Place} {ns : List SyntaxNode} :
    ⦃At r⦄ plain start ns
    ⦃⇓? n r' => ⌜r' = r ∧ (start.row ≤ r.lastStop.row → fits r.lastStop.row ns →
      fits r.lastStop.row n)⌝⦄ := by
  mvcgen [plain]
  case vc1.post.success hs _ _ h =>
    subst hs
    obtain ⟨rfl, rfl⟩ := h
    exact ⟨rfl, fun hstart hn => .node hstart le_rfl nofun hn⟩

@[spec] theorem isAt_spec (s : String) : ⦃At r⦄ isAt s ⦃Stays r⦄ := by
  mvcgen [isAt]

@[spec] theorem isAtNot_spec (s t : String) : ⦃At r⦄ isAtNot s t ⦃Stays r⦄ := by
  mvcgen [isAtNot] with grind

theorem isWord_takeWhile {c : Char} {cs : List Char} (h : Text.isIdentifierStart c)
    (hw : (String.ofList ((c :: cs).takeWhile Text.isIdentifierPart)).isEmpty = false) :
    IsWord (String.ofList ((c :: cs).takeWhile Text.isIdentifierPart)) := by
  rw [List.takeWhile_cons] at hw ⊢
  split at hw
  case isTrue hc => simpa [IsWord, hc] using h
  case isFalse => simp at hw

@[spec] theorem wordAhead_spec :
    ⦃At r⦄ wordAhead ⦃⇓? w r' => ⌜r' = r ∧ (w.isEmpty = false → IsWord w)⌝⦄ := by
  mvcgen [wordAhead]
  case vc1.h_1 s h c cs hrest _ =>
    refine ⟨h, ?_⟩
    rw [hrest]
    split
    case isTrue hc => exact isWord_takeWhile hc
    case isFalse => simp
  case vc2.h_2 h _ _ _ _ _ => exact ⟨h, by simp⟩

@[spec] theorem isAtWord_spec (w : String) : ⦃At r⦄ isAtWord w ⦃Stays r⦄ := by
  mvcgen [isAtWord] with grind

@[spec] theorem takeText_spec (s : String) :
    ⦃At r⦄ takeText s ⦃⇓? _ r' => ⌜r.IsSound → r.Takes r' ∧ r'.IsSettled⌝⦄ := by
  apply triple_of_sound
  intro hr
  mvcgen [takeText] with grind

@[spec] theorem takeWord_spec (w : String) :
    ⦃At r⦄ takeWord w ⦃⇓? _ r' => ⌜r.IsSound → r.Takes r'⌝⦄ := by
  apply triple_of_sound
  intro hr
  mvcgen [takeWord] with grind

@[spec] theorem tryText_spec (s : String) :
    ⦃At r⦄ tryText s ⦃⇓? b r' => ⌜r.IsSound → r.Reaches r' ∧ (b = true → r.Takes r')⌝⦄ := by
  apply triple_of_sound
  intro hr
  mvcgen [tryText] with grind

@[spec] theorem tryWord_spec (w : String) :
    ⦃At r⦄ tryWord w ⦃⇓? b r' => ⌜r.IsSound → r.Reaches r' ∧ (b = true → r.Takes r')⌝⦄ := by
  apply triple_of_sound
  intro hr
  mvcgen [tryWord] with grind

@[spec] theorem takeName_spec :
    ⦃At r⦄ takeName
    ⦃⇓? a r' => ⌜r.IsSound → r.Takes r' ∧ IsWord a.1 ∧ fits r'.lastStop.row a.2⌝⦄ := by
  apply triple_of_sound
  intro hr
  mvcgen [takeName] with grind -linarith

@[spec] theorem attempt_spec {p : Parse α} (h : r.IsSound → ⦃At r⦄ p ⦃Ends r.Takes⦄) :
    ⦃At r⦄ attempt p ⦃⇓? o r' => ⌜r.IsSound →
      r.Reaches r' ∧ (o.isSome → r.Takes r') ∧ fits r'.lastStop.row o⌝⦄ := by
  refine triple_iff.mpr fun s o r' hs e hr => ?_
  subst hs
  unfold attempt at e
  split at e
  case h_1 a r'' hp =>
    cases e
    obtain ⟨ht, hf⟩ := triple_iff.mp (h hr) s a r' rfl hp
    exact ⟨ht.toReaches, fun _ => ht, (fits_some a).mpr hf⟩
  case h_2 =>
    cases e
    exact ⟨.refl hr, nofun, fits_none⟩

/-! ### Repeated steps -/

theorem iterateFor_keeps {α : Type} {step : α → Parse (Option α)} {I : Reader → α → Prop}
    (h : ∀ a r', I r' a → ⦃At r'⦄ step a ⦃⇓? o r'' => ⌜I r'' (o.getD a)⌝⦄) (n : Nat) (a : α) :
    ⦃fun r' => ⌜I r' a⌝⦄ iterateFor step n a ⦃⇓? a r' => ⌜I r' a⌝⦄ := by
  induction n generalizing a with
  | zero => mvcgen [iterateFor]
  | succ n ih => mvcgen [iterateFor, h, ih]

/-- What every step of a repetition keeps holds after it. -/
theorem iterate_keeps {α : Type} {step : α → Parse (Option α)} {a : α} {I : Reader → α → Prop}
    (h : ∀ a r', I r' a → ⦃At r'⦄ step a ⦃⇓? o r'' => ⌜I r'' (o.getD a)⌝⦄) (ha : I r a) :
    ⦃At r⦄ iterate step a ⦃⇓? a r' => ⌜I r' a⌝⦄ := by
  have hn := iterateFor_keeps h
  mvcgen [iterate, hn]
  grind

@[spec] theorem iterate_spec {step : α → Parse (Option α)} {a : α}
    (h : ∀ a r', r.Reaches r' → fits r'.lastStop.row a → ⦃At r'⦄ step a ⦃Ends r'.Reaches⦄) :
    ⦃At r⦄ iterate step a ⦃⇓? a' r' => ⌜r.IsSound → fits r.lastStop.row a →
      r.Reaches r' ∧ fits r'.lastStop.row a'⌝⦄ := by
  apply triple_of_sound
  intro hr
  refine triple_iff.mpr fun s a' r' hs e ha => ?_
  refine triple_iff.mp (@iterate_keeps r α step a
    (fun r' a => r.Reaches r' ∧ fits r'.lastStop.row a) ?_ ⟨.refl hr, ha⟩) s a' r' hs e
  refine fun b r' ⟨hm, hb⟩ => triple_iff.mpr fun s o r'' hs e => ?_
  obtain ⟨hm', ho⟩ := triple_iff.mp (h b r' hm hb) s o r'' hs e
  refine ⟨hm.trans hm', ?_⟩
  cases o with
  | none => exact Fitting.mono hb hm'.stop
  | some c => exact (fits_some c).mp ho

end Grammar
end SelectiveTrace
