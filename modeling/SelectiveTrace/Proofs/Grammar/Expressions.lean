import SelectiveTrace.Proofs.Grammar.Reading

/-! Expressions span lines in order. -/
namespace SelectiveTrace.Grammar
open Std.Do
set_option mvcgen.warning false

variable {r : Reader} {g : Nested} {m : Mode}

structure Nested.IsSound (g : Nested) : Prop where
  expression : ∀ m r, ⦃At r⦄ g.expression m ⦃Took r⦄
  disjunction : ∀ m r, ⦃At r⦄ g.disjunction m ⦃Took r⦄
  negation : ∀ m r, ⦃At r⦄ g.negation m ⦃Took r⦄
  binary : ∀ m l r, ⦃At r⦄ g.binary m l ⦃Took r⦄
  interpolation : ∀ r, ⦃At r⦄ g.interpolation
    ⦃To r fun r' => r.Takes r' ∧ r'.IsSettled⦄

@[spec] theorem Nested.expression_spec (hg : g.IsSound) : ⦃At r⦄ g.expression m ⦃Took r⦄ :=
  hg.expression m r

@[spec] theorem Nested.disjunction_spec (hg : g.IsSound) : ⦃At r⦄ g.disjunction m ⦃Took r⦄ :=
  hg.disjunction m r

@[spec] theorem Nested.negation_spec (hg : g.IsSound) : ⦃At r⦄ g.negation m ⦃Took r⦄ :=
  hg.negation m r

@[spec] theorem Nested.binary_spec (hg : g.IsSound) {l : Nat} : ⦃At r⦄ g.binary m l ⦃Took r⦄ :=
  hg.binary m l r

@[spec] theorem Nested.interpolation_spec (hg : g.IsSound) : ⦃At r⦄ g.interpolation
    ⦃To r fun r' => r.Takes r' ∧ r'.IsSettled⦄ :=
  hg.interpolation r

@[spec] theorem elements_spec {item : Parse Term} {close : String} {first : Term}
    (h : ∀ r, ⦃At r⦄ item ⦃Past r⦄) :
    ⦃At r⦄ elements item close first
    ⦃⇓? p r' => ⌜r.IsSound → fits r.lastStop.row first →
      r.Reaches r' ∧ fits r'.lastStop.row p⌝⦄ := by
  apply triple_of_sound
  intro hr
  mvcgen [elements, h] with grind -linarith

@[spec] theorem expressionList_spec (hg : g.IsSound) : ⦃At r⦄ expressionList g m ⦃Took r⦄ := by
  apply triple_of_sound
  intro hr
  mvcgen [expressionList] with grind -linarith

@[spec] theorem yieldTerm_spec (hg : g.IsSound) : ⦃At r⦄ yieldTerm g m ⦃Took r⦄ := by
  apply triple_of_sound
  intro hr
  mvcgen [yieldTerm] with grind -linarith

@[spec] theorem element_spec (hg : g.IsSound) : ⦃At r⦄ element g ⦃Took r⦄ := by
  apply triple_of_sound
  intro hr
  mvcgen [element] with grind -linarith

variable {target : Parse Term}

@[spec] theorem targetList_spec (ht : ∀ r, ⦃At r⦄ target ⦃Took r⦄) :
    ⦃At r⦄ targetList target ⦃Took r⦄ := by
  apply triple_of_sound
  intro hr
  mvcgen [targetList, ht] with grind -linarith

@[spec] theorem clauses_spec (ht : ∀ r, ⦃At r⦄ target ⦃Took r⦄) (hg : g.IsSound) :
    ⦃At r⦄ clauses g target ⦃Past r⦄ := by
  apply triple_of_sound
  intro hr
  mvcgen [clauses, ht] with grind -linarith

@[spec] theorem isAtClause_spec : ⦃At r⦄ isAtClause ⦃Stays r⦄ := by
  mvcgen [isAtClause] with grind

@[spec] theorem display_spec (ht : ∀ r, ⦃At r⦄ target ⦃Took r⦄) (hg : g.IsSound) {close : String} :
    ⦃At r⦄ display g target close ⦃Took r⦄ := by
  apply triple_of_sound
  intro hr
  mvcgen [display, ht] with grind -linarith

@[spec] theorem parenthesized_spec (ht : ∀ r, ⦃At r⦄ target ⦃Took r⦄) (hg : g.IsSound) :
    ⦃At r⦄ parenthesized g target ⦃Took r⦄ := by
  apply triple_of_sound
  intro hr
  mvcgen [parenthesized, ht] with grind -linarith

@[spec] theorem listTerm_spec (ht : ∀ r, ⦃At r⦄ target ⦃Took r⦄) (hg : g.IsSound) :
    ⦃At r⦄ listTerm g target ⦃Took r⦄ := by
  apply triple_of_sound
  intro hr
  mvcgen [listTerm, ht] with grind -linarith

@[spec] theorem entry_spec (hg : g.IsSound) : ⦃At r⦄ entry g ⦃Took r⦄ := by
  apply triple_of_sound
  intro hr
  mvcgen [entry] with grind -linarith

@[spec] theorem braces_spec (ht : ∀ r, ⦃At r⦄ target ⦃Took r⦄) (hg : g.IsSound) :
    ⦃At r⦄ braces g target ⦃Took r⦄ := by
  apply triple_of_sound
  intro hr
  mvcgen [braces, ht] with grind -linarith

@[spec] theorem argument_spec (hg : g.IsSound) : ⦃At r⦄ argument g ⦃Took r⦄ := by
  apply triple_of_sound
  intro hr
  mvcgen [argument] with grind -linarith

@[spec] theorem arguments_spec (ht : ∀ r, ⦃At r⦄ target ⦃Took r⦄) (hg : g.IsSound) :
    ⦃At r⦄ arguments g target ⦃Took r⦄ := by
  apply triple_of_sound
  intro hr
  mvcgen [arguments, ht] with grind -linarith

@[spec] theorem bound_spec (hg : g.IsSound) : ⦃At r⦄ bound g ⦃Past r⦄ := by
  apply triple_of_sound
  intro hr
  mvcgen [bound] with grind -linarith

@[spec] theorem subscriptItem_spec (hg : g.IsSound) : ⦃At r⦄ subscriptItem g ⦃Past r⦄ := by
  apply triple_of_sound
  intro hr
  mvcgen [subscriptItem] with grind -linarith

@[spec] theorem subscripts_spec (hg : g.IsSound) : ⦃At r⦄ subscripts g ⦃Took r⦄ := by
  apply triple_of_sound
  intro hr
  mvcgen [subscripts] with grind -linarith

@[spec] theorem formatSpecification_spec (hg : g.IsSound) :
    ⦃At r⦄ formatSpecification g ⦃Took r⦄ := by
  apply triple_of_sound
  intro hr
  mvcgen [formatSpecification] with grind -linarith

@[spec] theorem interpolation_spec (hg : g.IsSound) : ⦃At r⦄ interpolation g
    ⦃To r fun r' => r.Takes r' ∧ r'.IsSettled⦄ := by
  mvcgen [interpolation] with grind -linarith

instance : Fitting StringParts where
  fits k s := fits k s.contentStart ∧ fits k s.contentParts ∧ fits k s.parts
  mono h hk := ⟨Fitting.mono h.1 hk, Fitting.mono h.2.1 hk, Fitting.mono h.2.2 hk⟩

@[grind =] theorem fits_parts {k : Nat} {s : StringParts} :
    fits k s ↔ fits k s.contentStart ∧ fits k s.contentParts ∧ fits k s.parts := .rfl

theorem fits_flush {s : StringParts} (hr : r.IsSound) (hp : r.IsSettled)
    (hs : fits r.lastStop.row s) : fits r.lastStop.row (s.flush r.place) := by
  unfold StringParts.flush
  split
  case h_1 start hstart =>
    have hle : start.row ≤ r.lastStop.row := hs.1 start hstart
    refine ⟨fits_none, fits_nil, (fits_cons ..).mpr ⟨?_, hs.2.2⟩⟩
    exact .node (hle.trans hr.stop) hp nofun ((fits_reverse _).mpr hs.2.1)
  case h_2 => exact hs

grind_pattern fits_flush => s.flush r.place

/-- Whether a format string is being read tells nothing about places. -/
theorem Reader.Reaches.inFormat {r' : Reader} {b : Bool} (h : r.Reaches r') :
    r.Reaches { r' with inFormat := b } :=
  ⟨⟨h.sound.stop, h.sound.ahead, h.sound.continuations⟩, h.place, h.stop, h.lastRow⟩

grind_pattern Reader.Reaches.inFormat => r.Reaches { r' with inFormat := b }

@[spec] theorem gather_spec {s : StringParts} {n : Nat} {isPart : Bool} :
    ⦃At r⦄ s.gather n isPart ⦃⇓? s' r' => ⌜r.IsSound → fits r.lastStop.row s →
      (r.Takes r' ∧ r'.IsSettled) ∧ fits r'.lastStop.row s'⌝⦄ := by
  apply triple_of_sound
  intro hr
  mvcgen [StringParts.gather] with grind -linarith

theorem stringPart_spec (hg : g.IsSound) {opening : StringStart} {s : StringParts} :
    ⦃At r⦄ stringPart g opening s ⦃⇓? o r' => ⌜r.IsSound → r.IsSettled → fits r.lastStop.row s →
      (r.Reaches r' ∧ r'.IsSettled) ∧ fits r'.lastStop.row (o.getD s)⌝⦄ := by
  apply triple_of_sound
  intro hr
  mvcgen [stringPart] with grind -linarith +zetaDelta [Reader.IsSettled]

@[spec high] theorem stringParts_spec (hg : g.IsSound) {opening : StringStart} {s : StringParts} :
    ⦃At r⦄ iterate (stringPart g opening) s
    ⦃⇓? s' r' => ⌜r.IsSound → r.IsSettled → fits r.lastStop.row s →
      r.Reaches r' ∧ fits r'.lastStop.row s'⌝⦄ := by
  refine triple_iff.mpr fun s a' r' hs e hr hp hf => ?_
  subst hs
  have hk := triple_iff.mp (@iterate_keeps s _ (stringPart g opening) _
    (fun r' a => (s.Reaches r' ∧ r'.IsSettled) ∧ fits r'.lastStop.row a) ?_ ⟨⟨.refl hr, hp⟩, hf⟩)
    s a' r' rfl e
  · exact ⟨hk.1.1, hk.2⟩
  rintro b r' ⟨⟨hm, hp⟩, hb⟩
  refine triple_iff.mpr fun s' o r'' hs e => ?_
  obtain ⟨⟨hm', hp'⟩, ho⟩ := triple_iff.mp (stringPart_spec hg) s' o r'' hs e hm.sound hp hb
  exact ⟨⟨hm.trans hm', hp'⟩, ho⟩

@[spec] theorem stringLiteral_spec (hg : g.IsSound) : ⦃At r⦄ stringLiteral g ⦃Took r⦄ := by
  apply triple_of_sound
  intro hr
  mvcgen [stringLiteral]
  case vc2.h_1.post.success.isTrue.post.success s hs opening rest stop hahead _ _ _ _ hparts _ _ =>
    subst hs
    obtain ⟨hplace, hlast⟩ := hr.ahead _ hahead
    have ht : s.Takes { s with
        rest, place := stop, lastStop := stop, inFormat := opening.isFormat, ahead := none } :=
      hr.stopAt rfl rfl rfl hplace hlast
    have hn : fits stop.row (SyntaxNode.node .plain s.place stop none []) :=
      .node hplace le_rfl nofun nofun
    obtain ⟨hm, hf⟩ := hparts ht.sound le_rfl
      ⟨fits_none, fits_nil, (fits_cons ..).mpr ⟨hn, fits_nil⟩⟩
    rintro rfl hplain
    have hstart := hplace.trans hm.stop
    exact ⟨⟨ht.toReaches.trans hm, hstart⟩, hplain hstart ((fits_reverse _).mpr hf.2.2)⟩

@[spec] theorem strings_spec (hg : g.IsSound) : ⦃At r⦄ strings g m ⦃Took r⦄ := by
  apply triple_of_sound
  intro hr
  mvcgen [strings] with grind -linarith

@[spec] theorem atom_spec (ht : ∀ r, ⦃At r⦄ target ⦃Took r⦄) (hg : g.IsSound) :
    ⦃At r⦄ atom g target m ⦃Took r⦄ := by
  apply triple_of_sound
  intro hr
  mvcgen [atom, ht] with grind -linarith

@[spec] theorem primary_spec (ht : ∀ r, ⦃At r⦄ target ⦃Took r⦄) (hg : g.IsSound) :
    ⦃At r⦄ primary g target m ⦃Took r⦄ := by
  apply triple_of_sound
  intro hr
  mvcgen [primary, ht] with grind -linarith

@[spec] theorem targetFor_spec (hg : g.IsSound) {n : Nat} : ⦃At r⦄ targetFor g n ⦃Took r⦄ := by
  induction n generalizing r with
  | zero => mvcgen [targetFor]
  | succ n ih =>
    apply triple_of_sound
    intro hr
    mvcgen [targetFor, ih] with grind -linarith

@[spec] theorem target_spec (hg : g.IsSound) : ⦃At r⦄ Grammar.target g ⦃Took r⦄ := by
  apply triple_of_sound
  intro hr
  mvcgen [Grammar.target] with grind -linarith

@[spec] theorem factor_spec (hg : g.IsSound) : ⦃At r⦄ factor g m ⦃Took r⦄ := by
  apply triple_of_sound
  intro hr
  mvcgen [factor] with grind -linarith

@[spec] theorem binaryAhead_spec : ⦃At r⦄ binaryAhead ⦃Stays r⦄ := by
  mvcgen [binaryAhead] invariants
  · ⇓? _ r' => ⌜r' = r⌝
  with grind

@[spec] theorem binaryTerm_spec (hg : g.IsSound) {level : Nat} :
    ⦃At r⦄ binaryTerm g m level ⦃Took r⦄ := by
  apply triple_of_sound
  intro hr
  mvcgen [binaryTerm] with grind -linarith

@[spec] theorem tryComparison_spec :
    ⦃At r⦄ tryComparison ⦃⇓? _ r' => ⌜r.IsSound → r.Reaches r'⌝⦄ := by
  apply triple_of_sound
  intro hr
  mvcgen [tryComparison] invariants
  · ⇓? _ r' => ⌜r.Reaches r'⌝
  · ⇓? _ r' => ⌜r.Reaches r'⌝
  with grind -linarith

@[spec] theorem comparison_spec (hg : g.IsSound) : ⦃At r⦄ comparison g m ⦃Took r⦄ := by
  apply triple_of_sound
  intro hr
  mvcgen [comparison] with grind -linarith

@[spec] theorem typeTerm_spec (hg : g.IsSound) : ⦃At r⦄ typeTerm g m ⦃Took r⦄ := by
  apply triple_of_sound
  intro hr
  mvcgen [typeTerm] with grind -linarith

@[spec] theorem defaultValue_spec (hg : g.IsSound) {start : Place} {ns : List SyntaxNode} :
    ⦃At r⦄ defaultValue g m start ns ⦃⇓? t r' =>
      ⌜r.IsSound → start.row ≤ r.lastStop.row → fits r.lastStop.row ns →
      r.Reaches r' ∧ fits r'.lastStop.row t⌝⦄ := by
  apply triple_of_sound
  intro hr
  mvcgen [defaultValue] with grind -linarith

@[spec] theorem annotation_spec (hg : g.IsSound) {typed : Bool} :
    ⦃At r⦄ annotation g m typed ⦃Past r⦄ := by
  apply triple_of_sound
  intro hr
  mvcgen [ annotation] with grind -linarith

@[spec] theorem parameter_spec (hg : g.IsSound) {typed : Bool} {close : String} :
    ⦃At r⦄ parameter g m typed close ⦃Took r⦄ := by
  apply triple_of_sound
  intro hr
  mvcgen [parameter] with grind -linarith

@[spec] theorem parameters_spec (hg : g.IsSound) {typed : Bool} {close : String} :
    ⦃At r⦄ parameters g m typed close ⦃⇓? ns r' =>
      ⌜r.IsSound → r.Reaches r' ∧ (ns.isEmpty = false → r.Takes r') ∧
      fits r'.lastStop.row ns⌝⦄ := by
  apply triple_of_sound
  intro hr
  mvcgen [parameters] with grind -linarith

@[spec] theorem lambda_spec (hg : g.IsSound) : ⦃At r⦄ lambda g m ⦃Took r⦄ := by
  apply triple_of_sound
  intro hr
  mvcgen [lambda] with grind -linarith

@[spec] theorem negation_spec (hg : g.IsSound) : ⦃At r⦄ negation g m ⦃Took r⦄ := by
  apply triple_of_sound
  intro hr
  mvcgen [negation] with grind -linarith

@[spec] theorem joinedBy_spec {word : String} {item : Parse Term} (h : ∀ r, ⦃At r⦄ item ⦃Took r⦄) :
    ⦃At r⦄ joinedBy word item m ⦃Took r⦄ := by
  apply triple_of_sound
  intro hr
  mvcgen [joinedBy, h] with grind -linarith

@[spec] theorem disjunction_spec (hg : g.IsSound) : ⦃At r⦄ disjunction g m ⦃Took r⦄ := by
  apply triple_of_sound
  intro hr
  mvcgen [disjunction] with grind -linarith

@[spec] theorem conditional_spec (hg : g.IsSound) : ⦃At r⦄ conditional g m ⦃Took r⦄ := by
  apply triple_of_sound
  intro hr
  mvcgen [conditional] with grind -linarith

@[spec] theorem expression_spec (hg : g.IsSound) : ⦃At r⦄ expression g m ⦃Took r⦄ := by
  apply triple_of_sound
  intro hr
  mvcgen [expression] with grind -linarith

theorem nested_isSound (n : Nat) : (nested n).IsSound := by
  induction n with
  | zero =>
    have fails {α : Type} (r : Reader) (Q : α → Reader → Prop) :
        ⦃At r⦄ (failure : Parse α) ⦃⇓? a r' => ⌜Q a r'⌝⦄ := by
      mvcgen
    exact ⟨fun _ r => fails r _, fun _ r => fails r _, fun _ r => fails r _,
      fun _ _ r => fails r _, fun r => fails r _⟩
  | succ n ih =>
    exact {
      expression := fun _ _ => expression_spec ih
      disjunction := fun _ _ => disjunction_spec ih
      negation := fun _ _ => negation_spec ih
      binary := fun _ _ _ => binaryTerm_spec ih
      interpolation := fun _ => interpolation_spec ih }

end SelectiveTrace.Grammar
