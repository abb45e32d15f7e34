import SelectiveTrace.Grammar.Pattern
import SelectiveTrace.Proofs.Grammar.Expressions

/-! Patterns span lines in order. -/
namespace SelectiveTrace.Grammar
open Std.Do
set_option mvcgen.warning false

variable {r : Reader} {g : Nested} {between : Want} {pattern item : Parse SyntaxNode}

@[spec] theorem namedPattern_spec (hp : ∀ r, ⦃At r⦄ pattern ⦃Took r⦄) :
    ⦃At r⦄ namedPattern pattern between ⦃Took r⦄ := by
  apply triple_of_sound
  intro hr
  mvcgen [namedPattern, hp] with grind -linarith

@[spec] theorem patternGroup_spec (h : ∀ r, ⦃At r⦄ item ⦃Took r⦄) {close : String} :
    ⦃At r⦄ patternGroup item close ⦃Took r⦄ := by
  apply triple_of_sound
  intro hr
  mvcgen [patternGroup, h] with grind -linarith

@[spec] theorem numberPattern_number_spec : ⦃At r⦄ numberPattern.number ⦃Took r⦄ := by
  apply triple_of_sound
  intro hr
  mvcgen [numberPattern.number] with grind -linarith

@[spec] theorem numberPattern_spec : ⦃At r⦄ numberPattern between ⦃Took r⦄ := by
  apply triple_of_sound
  intro hr
  mvcgen [numberPattern] with grind -linarith

@[spec] theorem closedPattern_spec (hg : g.IsSound) (hp : ∀ r, ⦃At r⦄ pattern ⦃Took r⦄) :
    ⦃At r⦄ closedPattern g pattern between ⦃Took r⦄ := by
  apply triple_of_sound
  intro hr
  mvcgen [closedPattern, hp] with grind -linarith

@[spec] theorem patternWithin_spec (hg : g.IsSound) {n : Nat} :
    ⦃At r⦄ patternWithin g n between ⦃Took r⦄ := by
  induction n generalizing r between with
  | zero => mvcgen [patternWithin]
  | succ n ih =>
    apply triple_of_sound
    intro hr
    mvcgen [patternWithin, ih] with grind -linarith

@[spec] theorem casePattern_spec (hg : g.IsSound) : ⦃At r⦄ casePattern g ⦃Took r⦄ := by
  apply triple_of_sound
  intro hr
  mvcgen [casePattern] with grind -linarith

end SelectiveTrace.Grammar
