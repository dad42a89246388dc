/-
This file relates sources that differ in how quotations are spelled, and shows that either both of them
have errors or none of them has.
-/

import SmallScheme.Proofs.Tree.Recognition

namespace SmallScheme

/-- The lexemes of the two spellings of a quotation, apart from its datum. -/
structure QuoteMarks (mark opener name closer : Lexeme) : Prop where
  quotes : mark.token = .ok .quote
  opens : opener.token = .ok .leftParen
  names : name.token = .ok (.identifier "quote")
  closes : closer.token = .ok .rightParen

/-- The lexemes differ in the spelling of quotations, at any depth and any number of times. -/
inductive Respelling : List Lexeme → List Lexeme → Prop
  | nil : Respelling [] []
  | keep {lexeme other : Lexeme} {first second : List Lexeme} (same : lexeme.token = other.token)
      (rest : Respelling first second) : Respelling (lexeme :: first) (other :: second)
  | spellOut {mark opener name closer : Lexeme} {inner other first second : List Lexeme}
      {datum : Reading} (marks : QuoteMarks mark opener name closer) (derives : Derives inner datum)
      (within : Respelling inner other) (rest : Respelling first second) :
      Respelling (mark :: (inner ++ first)) (opener :: name :: (other ++ closer :: second))
  | abbreviate {mark opener name closer : Lexeme} {inner other first second : List Lexeme}
      {datum : Reading} (marks : QuoteMarks mark opener name closer) (derives : Derives inner datum)
      (within : Respelling inner other) (rest : Respelling first second) :
      Respelling (opener :: name :: (inner ++ closer :: first)) (mark :: (other ++ second))

/-- The open nodes from the innermost outwards, each with whether it is a quote. -/
def Outline.nesting (outline : Outline) : List Bool :=
  outline.opened.map fun frame =>
    match frame with
    | .quote => true
    | .enclosed _ _ => false

namespace Nesting

/-- A datum completes the quotes that wait for it. -/
def settle (nesting : List Bool) : List Bool :=
  nesting.dropWhile id

/-- What a lexeme opens and closes. -/
def read? (nesting : List Bool) : Except LexError Token → Option (List Bool)
  | .error _ => none
  | .ok token =>
      match token with
      | .whitespace => some nesting
      | .lineEnding => some nesting
      | .comment => some nesting
      | .leftParen => some (false :: nesting)
      | .startVector => some (false :: nesting)
      | .quote => some (true :: nesting)
      | .rightParen =>
          match nesting with
          | false :: outer => some (settle outer)
          | _ => none
      | _ => some (settle nesting)

/-- What some lexemes leave open. -/
def run? (nesting : List Bool) (lexemes : List Lexeme) : Option (List Bool) :=
  lexemes.foldlM (fun nesting lexeme => read? nesting lexeme.token) nesting

end Nesting

namespace Outline

/-- A datum completes the same quotes in the outline. -/
theorem nesting_put (finished : List Reading) (opened : List Frame) (datum : Reading) :
    (put finished opened datum).nesting = Nesting.settle (nesting ⟨opened, finished⟩) := by
  induction opened generalizing datum with
  | nil => rfl
  | cons frame outer ih =>
      cases frame with
      | enclosed bracket elements => rfl
      | quote => exact ih _

/-- How a step changes the nesting depends on the nesting and the token alone. -/
theorem nesting_step? (outline : Outline) (lexeme : Lexeme) :
    (outline.step? lexeme).map nesting = Nesting.read? outline.nesting lexeme.token := by
  obtain ⟨token, text, span⟩ := lexeme
  obtain ⟨opened, finished⟩ := outline
  cases token with
  | error error => rfl
  | ok token =>
      cases token with
      | whitespace | lineEnding | comment | leftParen | startVector | quote => rfl
      | identifier | boolean | character | string | number =>
          exact congrArg some (nesting_put finished opened _)
      | rightParen =>
          cases opened with
          | nil => rfl
          | cons frame outer =>
              cases frame with
              | enclosed bracket elements => exact congrArg some (nesting_put finished outer _)
              | quote => rfl

/-- What the machine leaves open depends on the nesting and the tokens alone. -/
theorem nesting_run? (outline : Outline) (lexemes : List Lexeme) :
    (outline.run? lexemes).map nesting = Nesting.run? outline.nesting lexemes := by
  induction lexemes generalizing outline with
  | nil => rfl
  | cons lexeme rest ih =>
      rw [run?, Nesting.run?, List.foldlM_cons, ← nesting_step?]
      cases outline.step? lexeme with
      | none => rfl
      | some next => exact ih next

end Outline

namespace Nesting

/-- The lexemes of a datum leave nothing open, and complete the quotes before them. -/
theorem run?_of_derives {lexemes : List Lexeme} {datum : Reading} (derives : Derives lexemes datum)
    (nesting : List Bool) : run? nesting lexemes = some (settle nesting) := by
  let outline : Outline := ⟨nesting.map fun quotes => if quotes then .quote else .enclosed .list [], []⟩
  have shape : outline.nesting = nesting := by
    simp only [Outline.nesting, outline, List.map_map]
    apply List.map_id''
    intro quotes
    cases quotes <;> rfl
  rw [← shape, ← Outline.nesting_run?, Outline.run?_of_derives derives]
  exact congrArg some (Outline.nesting_put [] outline.opened datum)

/-- Two lists of lexemes open and close one after the other. -/
theorem run?_append (nesting : List Bool) (first second : List Lexeme) :
    run? nesting (first ++ second) = (run? nesting first).bind (run? · second) :=
  List.foldlM_append

/-- The first lexeme leaves the rest to read. -/
theorem run?_cons {lexeme : Lexeme} {nesting next : List Bool}
    (read : read? nesting lexeme.token = some next) (rest : List Lexeme) :
    run? nesting (lexeme :: rest) = run? next rest := by
  rw [run?, List.foldlM_cons, read]
  rfl

section Quotation

variable {mark opener name closer : Lexeme} {inner : List Lexeme}
  (marks : QuoteMarks mark opener name closer)
  (datum : ∀ nesting, run? nesting inner = some (settle nesting)) (nesting : List Bool)
  (rest : List Lexeme)

include marks datum

/-- An abbreviated quotation counts as one datum. -/
theorem run?_abbreviation : run? nesting (mark :: (inner ++ rest)) = run? (settle nesting) rest := by
  have read : read? nesting mark.token = some (true :: nesting) := by rw [marks.quotes]; rfl
  rw [run?_cons read, run?_append, datum]
  rfl

/-- A quotation that is spelled out counts as one datum. -/
theorem run?_quoteList :
    run? nesting (opener :: name :: (inner ++ closer :: rest)) = run? (settle nesting) rest := by
  have opened : read? nesting opener.token = some (false :: nesting) := by rw [marks.opens]; rfl
  have named : read? (false :: nesting) name.token = some (false :: nesting) := by
    rw [marks.names]
    rfl
  have closed : read? (false :: nesting) closer.token = some (settle nesting) := by
    rw [marks.closes]
    rfl
  rw [run?_cons opened, run?_cons named, run?_append, datum]
  exact run?_cons closed rest

end Quotation

/-- Both spellings open and close the same. -/
theorem run?_of_respelling {first second : List Lexeme} (respelled : Respelling first second)
    (nesting : List Bool) : run? nesting first = run? nesting second := by
  induction respelled generalizing nesting with
  | nil => rfl
  | @keep lexeme other _ _ same _ ih =>
      rw [run?, run?, List.foldlM_cons, List.foldlM_cons, same]
      exact congrArg _ (funext ih)
  | @spellOut _ _ _ _ _ other _ _ _ marks derives _ _ within ih =>
      have datum := run?_of_derives derives
      have again (nesting : List Bool) : run? nesting other = some (settle nesting) :=
        within nesting ▸ datum nesting
      rw [run?_abbreviation marks datum, run?_quoteList marks again, ih]
  | @abbreviate _ _ _ _ _ other _ _ _ marks derives _ _ within ih =>
      have datum := run?_of_derives derives
      have again (nesting : List Bool) : run? nesting other = some (settle nesting) :=
        within nesting ▸ datum nesting
      rw [run?_quoteList marks datum, run?_abbreviation marks again, ih]

end Nesting

namespace Parse

/-- The parser reports nothing exactly if the lexemes that are no trivia leave nothing open. -/
theorem errors_eq_nil_iff_nesting (source : String) :
    (ofSource source).errors = [] ↔ Nesting.run? [] (solidLexemes source) = some [] := by
  have shape := Outline.nesting_run? .empty (solidLexemes source)
  rw [solidLexemes, Outline.run?_filter] at shape
  constructor
  · intro unreported
    obtain ⟨data, ran⟩ := Builder.shows_empty.run?_of_errors unreported
    rw [ran] at shape
    exact shape.symm
  · intro closed
    obtain ⟨⟨opened, data⟩, ran, nothing⟩ := Option.map_eq_some_iff.mp (shape.trans closed)
    obtain rfl : opened = [] := List.map_eq_nil_iff.mp nothing
    exact (Builder.shows_empty.finish_of_run? ran).1

/-- Of two sources that are respelled either both have errors or none has. -/
theorem errors_iff_of_respelling {first second : String}
    (respelled : Respelling (solidLexemes first) (solidLexemes second)) :
    (ofSource first).errors = [] ↔ (ofSource second).errors = [] := by
  rw [errors_eq_nil_iff_nesting, errors_eq_nil_iff_nesting, Nesting.run?_of_respelling respelled]

end Parse

end SmallScheme
