/-
This file shows that layout does not matter: sources with the same tokens make the same program, or
fail with errors of the same variant.
-/

import SmallScheme.Proofs.Program.Respelling

namespace SmallScheme

/-- Data that are alike spell their quotations alike. -/
theorem SExpr.Alike.respelled {first second : SExpr} (alike : first.Alike second) :
    first.Respelled second := by
  induction first using of_elements generalizing second with | step first all =>
  have requoted := alike.requoted
  cases alike with
  | vector | abbreviation | atom => exact .datum rfl requoted
  | @list _ _ elements others each =>
      by_cases quotes : specialForm? elements = some .quote
      · exact .datum (beq_iff_eq.mpr quotes) requoted
      have respelled := forall₂_of_mem each all
      by_cases defines : specialForm? elements = some .define
      · exact .definition defines (List.forall₂_take 2 each) (List.forall₂_drop 2 respelled)
      · exact .list quotes defines respelled

namespace Program

/-- Sources without parse errors and with the same tokens make the same program, or fail with errors
of the same variant. Trivia and the spelling of tokens do not matter. -/
theorem layout_does_not_matter {first second : String} (left : (Parse.ofSource first).errors = [])
    (right : (Parse.ofSource second).errors = [])
    (same : (solidLexemes first).map Lexeme.token = (solidLexemes second).map Lexeme.token) :
    (ofSource first).mapError SyntaxError.variant =
      (ofSource second).mapError SyntaxError.variant := by
  have alike := Parse.alike_of_tokens left right same
  exact same_ofSource left right (alike.imp fun _ _ => SExpr.Alike.respelled)

/-- Comments and line ends stand between the tokens, and two of them have other spellings. -/
def looseSource : String :=
  "(;first\ndefine\rx #TRUE) ' ;second\n\t( quote +05\n)"

/-- The same tokens with as little between them as possible. -/
def tightSource : String :=
  "(define x #t)'(quote 5)"

/-- Both sources make one program, although their texts differ. -/
theorem looseSource_makes_tightSource :
    (solidLexemes looseSource).map Lexeme.text ≠ (solidLexemes tightSource).map Lexeme.text ∧
      ∃ program, ofSource looseSource = .ok program ∧ ofSource tightSource = .ok program := by
  have left : (Parse.ofSource looseSource).errors = [] := by decide +kernel
  have right : (Parse.ofSource tightSource).errors = [] := by decide +kernel
  have same : (solidLexemes looseSource).map Lexeme.token =
      (solidLexemes tightSource).map Lexeme.token := by decide +kernel
  have accepted : (ofSource tightSource).isOk = true := by decide +kernel
  have results := layout_does_not_matter left right same
  refine ⟨by decide +kernel, ?_⟩
  cases second : ofSource tightSource with
  | error error => rw [second] at accepted; cases accepted
  | ok program =>
      rw [second] at results
      cases first : ofSource looseSource with
      | error error => rw [first] at results; cases results
      | ok other =>
          rw [first] at results
          obtain rfl : other = program := Except.ok.inj results
          exact ⟨other, rfl, rfl⟩

end Program

end SmallScheme
