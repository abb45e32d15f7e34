import SelectiveTrace.Grammar.Statement
import SelectiveTrace.Proofs.Grammar.Patterns

/-! Statements, blocks and whole modules span lines in order. -/
namespace SelectiveTrace.Grammar
open Std.Do
set_option mvcgen.warning false

variable {r : Reader} {i : Inner} {m : Mode} {item : Parse SyntaxNode}

structure Inner.IsSound (i : Inner) : Prop where
  expressions : i.expressions.IsSound
  statement : ∀ r, ⦃At r⦄ i.statement ⦃Past r⦄

theorem Inner.IsSound.nested (hi : i.IsSound) : i.expressions.IsSound := hi.expressions

grind_pattern Inner.IsSound.nested => i.expressions.IsSound

@[spec] theorem Inner.statement_spec (hi : i.IsSound) : ⦃At r⦄ i.statement ⦃Past r⦄ :=
  hi.statement r

@[spec] theorem Inner_target_spec (hi : i.IsSound) : ⦃At r⦄ i.target ⦃Took r⦄ := by
  apply triple_of_sound
  intro hr
  mvcgen [Inner.target] with grind -linarith

@[spec] theorem Inner_expression_spec (hi : i.IsSound) : ⦃At r⦄ i.expression m ⦃Took r⦄ := by
  apply triple_of_sound
  intro hr
  mvcgen [Inner.expression] with grind -linarith

@[spec] theorem isAtLineEnd_spec :
    ⦃At r⦄ isAtLineEnd ⦃⇓? _ r' => ⌜r.IsSound → r.Reaches r'⌝⦄ := by
  apply triple_of_sound
  intro hr
  mvcgen [isAtLineEnd] with grind

@[spec] theorem commaList_spec (h : ∀ r, ⦃At r⦄ item ⦃Took r⦄) :
    ⦃At r⦄ commaList item ⦃Took r⦄ := by
  apply triple_of_sound
  intro hr
  mvcgen [commaList, h] with grind -linarith

@[spec] theorem commaListEnd_spec (h : ∀ r, ⦃At r⦄ item ⦃Took r⦄) :
    ⦃At r⦄ commaListEnd item ⦃Took r⦄ := by
  apply triple_of_sound
  intro hr
  mvcgen [commaListEnd, h] with grind -linarith

@[spec] theorem tryAugmented_spec :
    ⦃At r⦄ tryAugmented ⦃⇓? _ r' => ⌜r.IsSound → r.Reaches r'⌝⦄ := by
  apply triple_of_sound
  intro hr
  mvcgen [tryAugmented] invariants
  · ⇓? _ r' => ⌜r.Reaches r'⌝
  with grind -linarith

@[spec] theorem assignable_spec (hi : i.IsSound) {n : Nat} : ⦃At r⦄ assignable i n ⦃Took r⦄ := by
  induction n generalizing r with
  | zero => mvcgen [assignable]
  | succ n ih =>
    apply triple_of_sound
    intro hr
    mvcgen [assignable, ih] with grind -linarith

@[spec] theorem expressionStatement_spec (hi : i.IsSound) :
    ⦃At r⦄ expressionStatement i ⦃Took r⦄ := by
  apply triple_of_sound
  intro hr
  mvcgen [expressionStatement] with grind -linarith

@[spec] theorem wholeExpression_spec (hi : i.IsSound) : ⦃At r⦄ wholeExpression i ⦃Took r⦄ := by
  apply triple_of_sound
  intro hr
  mvcgen [wholeExpression] with grind -linarith

@[spec] theorem dottedName_spec {w : Want} : ⦃At r⦄ dottedName w ⦃Took r⦄ := by
  apply triple_of_sound
  intro hr
  mvcgen [dottedName] with grind -linarith

@[spec] theorem importedName_spec {w : Want} : ⦃At r⦄ importedName w ⦃Took r⦄ := by
  apply triple_of_sound
  intro hr
  mvcgen [importedName] with grind -linarith

@[spec] theorem importedNames_spec : ⦃At r⦄ importedNames ⦃Took r⦄ := by
  apply triple_of_sound
  intro hr
  mvcgen [importedNames] with grind -linarith

/-- Dots in front of the name of a module; if there is one, text has been taken. -/
@[spec high] theorem dots_spec :
    ⦃At r⦄ iterate (fun (n : Nat) => do
      let _ ← look {}
      if ← tryText "." then return some (n + 1) else return none) 0
    ⦃⇓? n r' => ⌜r.IsSound → r.Reaches r' ∧ (n ≠ 0 → r.Takes r')⌝⦄ := by
  apply triple_of_sound
  intro hr
  refine @iterate_keeps r Nat _ 0 (fun r' n => r.Reaches r' ∧ (n ≠ 0 → r.Takes r')) ?_
    ⟨.refl hr, nofun⟩
  rintro n r' ⟨hm, hn⟩
  mvcgen with grind -linarith

@[spec] theorem importSource_spec : ⦃At r⦄ importSource ⦃Took r⦄ := by
  apply triple_of_sound
  intro hr
  mvcgen [importSource] with grind -linarith

@[spec] theorem importFrom_spec : ⦃At r⦄ importFrom ⦃Took r⦄ := by
  apply triple_of_sound
  intro hr
  mvcgen [importFrom] with grind -linarith

@[spec] theorem optionalExpressions_spec (hi : i.IsSound) :
    ⦃At r⦄ optionalExpressions i ⦃Past r⦄ := by
  apply triple_of_sound
  intro hr
  mvcgen [optionalExpressions] with grind -linarith

@[spec] theorem raiseStatement_spec (hi : i.IsSound) : ⦃At r⦄ raiseStatement i ⦃Took r⦄ := by
  apply triple_of_sound
  intro hr
  mvcgen [raiseStatement] with grind -linarith

@[spec] theorem namesStatement_spec {word : String} : ⦃At r⦄ namesStatement word ⦃Took r⦄ := by
  apply triple_of_sound
  intro hr
  mvcgen [namesStatement] with grind -linarith

@[spec] theorem printStatement_spec (hi : i.IsSound) : ⦃At r⦄ printStatement i ⦃Took r⦄ := by
  apply triple_of_sound
  intro hr
  mvcgen [printStatement] with grind -linarith

@[spec] theorem execStatement_spec (hi : i.IsSound) : ⦃At r⦄ execStatement i ⦃Took r⦄ := by
  apply triple_of_sound
  intro hr
  mvcgen [execStatement] with grind -linarith

@[spec] theorem typeStatement_spec (hi : i.IsSound) : ⦃At r⦄ typeStatement i ⦃Took r⦄ := by
  apply triple_of_sound
  intro hr
  mvcgen [typeStatement] with grind -linarith

@[spec] theorem softStatement_spec (hi : i.IsSound) (h : ∀ r, ⦃At r⦄ item ⦃Took r⦄) :
    ⦃At r⦄ softStatement i item ⦃Took r⦄ := by
  apply triple_of_sound
  intro hr
  mvcgen [softStatement, h] with grind -linarith

@[spec] theorem simpleStatement_spec (hi : i.IsSound) : ⦃At r⦄ simpleStatement i ⦃Took r⦄ := by
  apply triple_of_sound
  intro hr
  mvcgen [simpleStatement] with grind -linarith

@[spec] theorem simpleStatements_spec (hi : i.IsSound) : ⦃At r⦄ simpleStatements i ⦃Took r⦄ := by
  apply triple_of_sound
  intro hr
  mvcgen [simpleStatements] with grind -linarith

@[spec] theorem block_spec (hi : i.IsSound) : ⦃At r⦄ block i ⦃Took r⦄ := by
  apply triple_of_sound
  intro hr
  mvcgen [block] with grind -linarith

@[spec] theorem suite_spec (hi : i.IsSound) : ⦃At r⦄ suite i ⦃Took r⦄ := by
  apply triple_of_sound
  intro hr
  mvcgen [suite] with grind -linarith

@[spec] theorem conditionSuite_spec (hi : i.IsSound) : ⦃At r⦄ conditionSuite i ⦃Took r⦄ := by
  apply triple_of_sound
  intro hr
  mvcgen [conditionSuite] with grind -linarith

@[spec] theorem wordClause_spec (hi : i.IsSound) {word : String} {kind : NodeKind} :
    ⦃At r⦄ wordClause i word kind ⦃Past r⦄ := by
  apply triple_of_sound
  intro hr
  mvcgen [wordClause] with grind -linarith

@[spec] theorem ifStatement_spec (hi : i.IsSound) : ⦃At r⦄ ifStatement i ⦃Took r⦄ := by
  apply triple_of_sound
  intro hr
  mvcgen [ifStatement] with grind -linarith

@[spec] theorem whileStatement_spec (hi : i.IsSound) : ⦃At r⦄ whileStatement i ⦃Took r⦄ := by
  apply triple_of_sound
  intro hr
  mvcgen [whileStatement] with grind -linarith

@[spec] theorem forStatement_spec (hi : i.IsSound) {start : Place} :
    ⦃At r⦄ forStatement i start ⦃TookSince r start⦄ := by
  apply triple_of_sound
  intro hr
  mvcgen [forStatement] with grind -linarith

@[spec] theorem exceptClause_spec (hi : i.IsSound) {word : String} :
    ⦃At r⦄ exceptClause i word ⦃Took r⦄ := by
  apply triple_of_sound
  intro hr
  mvcgen [exceptClause] with grind -linarith

@[spec] theorem tryStatement_spec (hi : i.IsSound) : ⦃At r⦄ tryStatement i ⦃Took r⦄ := by
  apply triple_of_sound
  intro hr
  mvcgen [tryStatement] with grind -linarith

@[spec] theorem withStatement_spec (hi : i.IsSound) {start : Place} :
    ⦃At r⦄ withStatement i start ⦃TookSince r start⦄ := by
  apply triple_of_sound
  intro hr
  mvcgen [withStatement] with grind -linarith

@[spec] theorem typeParameters_spec (hi : i.IsSound) : ⦃At r⦄ typeParameters i ⦃Past r⦄ := by
  apply triple_of_sound
  intro hr
  mvcgen [typeParameters] with grind -linarith

@[spec] theorem functionDefinition_spec (hi : i.IsSound) {start : Place} :
    ⦃At r⦄ functionDefinition i start ⦃TookSince r start⦄ := by
  apply triple_of_sound
  intro hr
  mvcgen [functionDefinition] with grind -linarith

@[spec] theorem classDefinition_spec (hi : i.IsSound) {start : Place} :
    ⦃At r⦄ classDefinition i start ⦃TookSince r start⦄ := by
  apply triple_of_sound
  intro hr
  mvcgen [classDefinition] with grind -linarith

@[spec] theorem definition_spec (hi : i.IsSound) : ⦃At r⦄ definition i ⦃Took r⦄ := by
  apply triple_of_sound
  intro hr
  mvcgen [definition] with grind -linarith

@[spec] theorem decorated_spec (hi : i.IsSound) : ⦃At r⦄ decorated i ⦃Took r⦄ := by
  apply triple_of_sound
  intro hr
  mvcgen [decorated] with grind -linarith

@[spec] theorem caseClause_spec (hi : i.IsSound) : ⦃At r⦄ caseClause i ⦃Took r⦄ := by
  apply triple_of_sound
  intro hr
  mvcgen [caseClause] with grind -linarith

@[spec] theorem matchBlock_spec (hi : i.IsSound) : ⦃At r⦄ matchBlock i ⦃Took r⦄ := by
  apply triple_of_sound
  intro hr
  mvcgen [matchBlock] with grind -linarith

@[spec] theorem matchStatement_spec (hi : i.IsSound) : ⦃At r⦄ matchStatement i ⦃Took r⦄ := by
  apply triple_of_sound
  intro hr
  mvcgen [matchStatement] with grind -linarith

@[spec] theorem asyncStatement_spec (hi : i.IsSound) : ⦃At r⦄ asyncStatement i ⦃Past r⦄ := by
  apply triple_of_sound
  intro hr
  mvcgen [asyncStatement] with grind -linarith

@[spec] theorem statement_spec (hi : i.IsSound) : ⦃At r⦄ statement i ⦃Past r⦄ := by
  apply triple_of_sound
  intro hr
  mvcgen [statement] with grind -linarith

theorem inner_isSound {g : Nested} (hg : g.IsSound) (n : Nat) : (inner g n).IsSound := by
  induction n with
  | zero =>
    refine ⟨hg, fun r => ?_⟩
    show ⦃At r⦄ (failure : Parse (List SyntaxNode)) ⦃Past r⦄
    mvcgen
  | succ n ih => exact ⟨hg, fun _ => statement_spec ih⟩

theorem module_spec : ⦃At r⦄ module ⦃⇓? root r' => ⌜r.IsSound →
    r.Reaches r' ∧ fits r'.place.row root.children⌝⦄ := by
  apply triple_of_sound
  intro hr
  have hi (n : Nat) := inner_isSound (nested_isSound n) n
  mvcgen [module]
  case vc6.post.success s hs _ _ _ r' h =>
    subst hs
    obtain ⟨hm, hn⟩ := h hr fits_nil
    exact ⟨hm, (fits_append ..).mpr ⟨Fitting.mono hn hm.sound.stop, hm.sound.continuations⟩⟩
  all_goals grind -linarith

/-- The constructs of a text lie in it, each with its lines in order. -/
theorem fits_of_parse {source : String} {root : SyntaxNode} (h : parse source = some root) :
    ∀ n ∈ root.children, n.Fits (source.toList.count '\n') := by
  obtain ⟨⟨root, r'⟩, hrun, rfl⟩ := Option.map_eq_some_iff.mp h
  have hr : ({ rest := source.toList } : Reader).IsSound := ⟨le_rfl, nofun, nofun⟩
  obtain ⟨hm, hn⟩ := triple_iff.mp module_spec _ root r' rfl hrun hr
  have hlast := hm.lastRow
  simp only [Reader.lastRow] at hlast
  exact fun n hmem => (hn n hmem).mono (by omega)

end SelectiveTrace.Grammar
