/-
This file shows that the two spellings of a quotation agree: a program does not depend on which of them
stands where it evaluates or quotes a datum.
-/

import SmallScheme.Proofs.Program.Places
import SmallScheme.Proofs.Tree.Inside

namespace SmallScheme

/-- Both spellings of a quotation lower to one form, and to one error where it fails. -/
theorem SExpr.toForm_quotation {head : SExpr} (named : head.identifier? = some "quote")
    (source other : Tree) (datum : SExpr) :
    (abbreviation source [datum]).toForm = (list other [head, datum]).toForm := by
  have holds : (list other [head, datum]).holdsData = true :=
    beq_iff_eq.mpr (specialForm?_quote named [datum])
  rw [toForm_of_holdsData holds, toExpression_quoteList named, ← toExpression_abbreviation]
  exact toForm_of_holdsData rfl

namespace Program

/-- Both spellings of one quotation give one result, errors with the texts that they quote included. -/
theorem ofSource_quotation {source : String} {datum : SExpr}
    (unreported : (Parse.ofSource source).errors = [])
    (single : (Parse.ofSource source).data = [datum]) :
    ofSource ("'" ++ source) = ofSource ("(quote " ++ source ++ "\n)") := by
  obtain ⟨left, short, abbreviated⟩ := Parse.data_abbreviation unreported single
  obtain ⟨right, long, spelled⟩ := Parse.data_quoteList unreported single
  have named : (SExpr.atom "quote" .symbol).identifier? = some "quote" := by decide +kernel
  rw [ofSource_of_errors left, ofSource_of_errors right, ofParse, ofParse, abbreviated, spelled]
  simp only [SExpr.allToForms, SExpr.toForm_quotation named short long datum]

/-- Respelled sources with respelled data give the same program, or both give none. -/
theorem ofSource_respelled {first second : String}
    (respelling : Respelling (solidLexemes first) (solidLexemes second))
    (placed : (Parse.ofSource first).errors = [] →
      List.Forall₂ SExpr.Respelled (Parse.ofSource first).data (Parse.ofSource second).data) :
    SExpr.SameResult (ofSource first) (ofSource second) := by
  have clean := Parse.errors_iff_of_respelling respelling
  by_cases unreported : (Parse.ofSource first).errors = []
  · exact same_ofSource unreported (clean.mp unreported) (placed unreported)
  · rw [ofSource_of_reported unreported, ofSource_of_reported (mt clean.mpr unreported)]
    exact SExpr.same_error rfl

/-- The two spellings of a quotation agree. A source that holds one datum gives the same result behind
a quote and in a list after the name. Sources that differ in how data are quoted, where these are
evaluated or stand inside quoted data, give the same program, or both give none. The places where the
first source evaluates or quotes a datum say which of its quotations may be respelled. -/
theorem spellings_of_quotation_agree :
    (∀ source, (Parse.ofSource source).errors = [] → (Parse.ofSource source).data.length = 1 →
        ofSource ("'" ++ source) = ofSource ("(quote " ++ source ++ "\n)")) ∧
      (∀ first second, Respelling (solidLexemes first) (solidLexemes second) →
        ((Parse.ofSource first).errors = [] →
          List.Forall₂ SExpr.Respelled (Parse.ofSource first).data (Parse.ofSource second).data) →
        (∃ program, ofSource first = .ok program ∧ ofSource second = .ok program) ∨
          ∃ error other, ofSource first = .error error ∧ ofSource second = .error other ∧
            error.variant = other.variant) ∧
      ∀ first second places, RespellingAt places (solidLexemes first) (solidLexemes second) →
        ((Parse.ofSource first).errors = [] →
          places = SExpr.allPlaces (Parse.ofSource first).data) →
        (∃ program, ofSource first = .ok program ∧ ofSource second = .ok program) ∨
          ∃ error other, ofSource first = .error error ∧ ofSource second = .error other ∧
            error.variant = other.variant := by
  refine ⟨?_, ?_, ?_⟩
  · intro source unreported counted
    obtain ⟨datum, single⟩ := List.length_eq_one_iff.mp counted
    exact ofSource_quotation unreported single
  · intro first second respelling placed
    exact SExpr.same_cases (ofSource_respelled respelling placed)
  · intro first second places respelled located
    apply SExpr.same_cases
    apply ofSource_respelled respelled.respelling
    intro unreported
    obtain rfl := located unreported
    exact Parse.respelled_of_places unreported respelled

/-- A source that gives a program gives no error. -/
theorem ofSource_ne_error {source : String} (accepted : (ofSource source).isOk = true)
    (error : SyntaxError) : ofSource source ≠ .error error := by
  intro rejected
  rw [rejected] at accepted
  cases accepted

/-- Comments stand around the datum, and the last one ends only with the line. -/
def framedSource : String :=
  " ;first\n'(a #(\"b\") (quote c)) ;last"

/-- The outer quotation is abbreviated and the inner one is spelled out. -/
def innerSource : String :=
  "(define x '(quote a))"

/-- The outer quotation is spelled out and the inner one is abbreviated. -/
def outerSource : String :=
  "(define x (quote 'a))"

/-- The operand is abbreviated. -/
def shortSource : String :=
  "(f 'a)"

/-- The operand is spelled out. -/
def longSource : String :=
  "(f (quote a))"

/-- Comments do not separate the spellings, and neither quotations inside one another nor operands
depend on them. -/
theorem outerSource_makes_innerSource :
    ofSource ("'" ++ framedSource) = ofSource ("(quote " ++ framedSource ++ "\n)") ∧
      (∃ program, ofSource innerSource = .ok program ∧ ofSource outerSource = .ok program) ∧
      ∃ program, ofSource shortSource = .ok program ∧ ofSource longSource = .ok program := by
  have inner : lexemes innerSource = [⟨.ok .leftParen, "(", ⟨0, 1⟩⟩,
      ⟨.ok (.identifier "define"), "define", ⟨1, 7⟩⟩, ⟨.ok .whitespace, " ", ⟨7, 8⟩⟩,
      ⟨.ok (.identifier "x"), "x", ⟨8, 9⟩⟩, ⟨.ok .whitespace, " ", ⟨9, 10⟩⟩,
      ⟨.ok .quote, "'", ⟨10, 11⟩⟩, ⟨.ok .leftParen, "(", ⟨11, 12⟩⟩,
      ⟨.ok (.identifier "quote"), "quote", ⟨12, 17⟩⟩, ⟨.ok .whitespace, " ", ⟨17, 18⟩⟩,
      ⟨.ok (.identifier "a"), "a", ⟨18, 19⟩⟩, ⟨.ok .rightParen, ")", ⟨19, 20⟩⟩,
      ⟨.ok .rightParen, ")", ⟨20, 21⟩⟩] := by decide +kernel
  have outer : lexemes outerSource = [⟨.ok .leftParen, "(", ⟨0, 1⟩⟩,
      ⟨.ok (.identifier "define"), "define", ⟨1, 7⟩⟩, ⟨.ok .whitespace, " ", ⟨7, 8⟩⟩,
      ⟨.ok (.identifier "x"), "x", ⟨8, 9⟩⟩, ⟨.ok .whitespace, " ", ⟨9, 10⟩⟩,
      ⟨.ok .leftParen, "(", ⟨10, 11⟩⟩, ⟨.ok (.identifier "quote"), "quote", ⟨11, 16⟩⟩,
      ⟨.ok .whitespace, " ", ⟨16, 17⟩⟩, ⟨.ok .quote, "'", ⟨17, 18⟩⟩,
      ⟨.ok (.identifier "a"), "a", ⟨18, 19⟩⟩, ⟨.ok .rightParen, ")", ⟨19, 20⟩⟩,
      ⟨.ok .rightParen, ")", ⟨20, 21⟩⟩] := by decide +kernel
  have named : (SExpr.atom "quote" .symbol).identifier? = some "quote" := by decide +kernel
  have respelling : Respelling (solidLexemes innerSource) (solidLexemes outerSource) := by
    rw [solidLexemes, solidLexemes, inner, outer]
    apply Respelling.keep rfl
    apply Respelling.keep rfl
    apply Respelling.keep rfl
    let quoted : List Reading := [.atom .symbol "quote", .atom .symbol "a"]
    apply @Respelling.spellOut _ _ _ _ [_, _, _, _] [_, _] [_] [_] (.enclosed .list quoted)
      ⟨rfl, rfl, rfl, rfl⟩
    · have head := @Derives.atom ⟨_, "quote", ⟨12, 17⟩⟩ (.identifier "quote") _ rfl rfl
      have last := @Derives.atom ⟨_, "a", ⟨18, 19⟩⟩ (.identifier "a") _ rfl rfl
      have elements := DerivesAll.cons head (.singleton last)
      exact @Derives.enclosed .list _ _ _ quoted rfl elements rfl
    · exact @Respelling.abbreviate _ _ _ _ [_] [_] [] [] _ ⟨rfl, rfl, rfl, rfl⟩
        (@Derives.atom _ (.identifier "a") _ rfl rfl) (.keep rfl .nil) .nil
    · exact .keep rfl .nil
  have placed : List.Forall₂ SExpr.Respelled (Parse.ofSource innerSource).data
      (Parse.ofSource outerSource).data := by
    rw [Parse.ofSource, Parse.ofSource, inner, outer]
    apply List.Forall₂.cons _ .nil
    apply SExpr.Respelled.definition
    · decide +kernel
    · exact .cons (.atom rfl) (.cons (.atom rfl) .nil)
    · exact .cons (.datum rfl (.spellOut named (.abbreviate named (.atom rfl)))) .nil
  have short : solidLexemes shortSource = [⟨.ok .leftParen, "(", ⟨0, 1⟩⟩,
      ⟨.ok (.identifier "f"), "f", ⟨1, 2⟩⟩, ⟨.ok .quote, "'", ⟨3, 4⟩⟩,
      ⟨.ok (.identifier "a"), "a", ⟨4, 5⟩⟩, ⟨.ok .rightParen, ")", ⟨5, 6⟩⟩] := by decide +kernel
  have long : solidLexemes longSource = [⟨.ok .leftParen, "(", ⟨0, 1⟩⟩,
      ⟨.ok (.identifier "f"), "f", ⟨1, 2⟩⟩, ⟨.ok .leftParen, "(", ⟨3, 4⟩⟩,
      ⟨.ok (.identifier "quote"), "quote", ⟨4, 9⟩⟩, ⟨.ok (.identifier "a"), "a", ⟨10, 11⟩⟩,
      ⟨.ok .rightParen, ")", ⟨11, 12⟩⟩, ⟨.ok .rightParen, ")", ⟨12, 13⟩⟩] := by decide +kernel
  have operand : RespellingAt [false, true, true, true, false] (solidLexemes shortSource)
      (solidLexemes longSource) := by
    rw [short, long]
    apply RespellingAt.keep rfl
    apply RespellingAt.keep rfl
    exact @RespellingAt.spellOut _ _ _ _ [_] _ [_] [_] [_] [_] _ ⟨rfl, rfl, rfl, rfl⟩
      (@Derives.atom _ (.identifier "a") _ rfl rfl) (.keep rfl .nil) (.keep rfl .nil)
  have located : [false, true, true, true, false] =
      SExpr.allPlaces (Parse.ofSource shortSource).data := by decide +kernel
  have accepted : ∀ error, ofSource innerSource ≠ .error error :=
    ofSource_ne_error (by decide +kernel)
  have acceptedShort : ∀ error, ofSource shortSource ≠ .error error :=
    ofSource_ne_error (by decide +kernel)
  obtain ⟨framed, respelled, respelledAt⟩ := spellings_of_quotation_agree
  refine ⟨framed framedSource (by decide +kernel) (by decide +kernel), ?_, ?_⟩
  · apply (respelled innerSource outerSource respelling fun _ => placed).resolve_right
    rintro ⟨error, _, rejected, _⟩
    exact accepted error rejected
  · apply (respelledAt shortSource longSource _ operand fun _ => located).resolve_right
    rintro ⟨error, _, rejected, _⟩
    exact acceptedShort error rejected

end Program

end SmallScheme
