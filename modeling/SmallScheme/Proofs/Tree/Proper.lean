/-
This file shows that the data of a source without errors are proper: every atom reads again as its
token, and every quote has its datum.
-/

import SmallScheme.Proofs.Token.Lexeme
import SmallScheme.Proofs.Tree.Recognition

namespace SmallScheme

/-- The text on its own is a token of the kind, and an identifier is named by its text. -/
def AtomKind.Reads (kind : AtomKind) (text : String) : Prop :=
  ∃ token, Token.ofText? text = some token ∧ AtomKind.ofLeaf? (.token token.kind) = some kind ∧
    ∀ name, token = .identifier name → name = text

namespace SpecialForm

/-- The identifier that invokes the form. -/
def name : SpecialForm → String
  | .quote => "quote"
  | .define => "define"
  | .begin => "begin"
  | .conditional => "if"

/-- A name invokes the form that it names. -/
theorem ofName?_eq_some_iff {form : SpecialForm} {name : String} :
    ofName? name = some form ↔ name = form.name := by
  constructor
  · intro special
    unfold ofName? at special
    split at special <;> cases special <;> rfl
  · rintro rfl
    cases form <;> rfl

end SpecialForm

namespace SExpr

mutual

/-- Nothing in the datum is unknown, its atoms can be read again, and its quotes have their data. -/
def Proper : SExpr → Prop
  | .list _ elements => AllProper elements
  | .vector _ elements => AllProper elements
  | .abbreviation _ elements => elements.length = 1 ∧ AllProper elements
  | .atom text kind => kind.Reads text
  | .unknown _ => False

def AllProper : List SExpr → Prop
  | [] => True
  | datum :: rest => datum.Proper ∧ AllProper rest

end

/-- A proper datum is an identifier exactly if it is the symbol of the name. -/
theorem identifier?_eq_some_iff {datum : SExpr} {name : String} (proper : datum.Proper) :
    datum.identifier? = some name ↔ datum = .atom name .symbol := by
  unfold identifier?
  split
  · rename_i text
    obtain ⟨token, read, kind, named⟩ := proper
    rw [read]
    cases token with
    | identifier own =>
        obtain rfl := named own rfl
        simp
    | _ => cases kind
  · rename_i other
    constructor
    · intro absent
      cases absent
    · intro same
      exact absurd same (other name)

/-- A proper list invokes the form whose name stands at its head. -/
theorem specialForm?_eq_some_iff {elements : List SExpr} (proper : AllProper elements)
    {form : SpecialForm} :
    specialForm? elements = some form ↔ elements.head? = some (.atom form.name .symbol) := by
  cases elements with
  | nil => simp [specialForm?, headIdentifier?]
  | cons head rest =>
      rw [specialForm?, headIdentifier?, Option.bind_eq_some_iff, List.head?_cons,
        Option.some.injEq, ← identifier?_eq_some_iff proper.1]
      constructor
      · rintro ⟨name, named, special⟩
        rw [SpecialForm.ofName?_eq_some_iff] at special
        rw [named, special]
      · intro named
        exact ⟨form.name, named, SpecialForm.ofName?_eq_some_iff.mpr rfl⟩

/-- A proper list is a definition exactly if `define` stands at its head. -/
theorem isDefinition_iff {source : Tree} {elements : List SExpr} (proper : AllProper elements) :
    (list source elements).isDefinition = true ↔
      elements.head? = some (.atom "define" .symbol) := by
  rw [isDefinition, beq_iff_eq]
  exact specialForm?_eq_some_iff proper

end SExpr

/-- If the lexeme is an atom, its text on its own is an atom of the same kind. -/
def Lexeme.Readable (lexeme : Lexeme) : Prop :=
  ∀ token kind, lexeme.token = .ok token → AtomKind.ofLeaf? (.token token.kind) = some kind →
    kind.Reads lexeme.text

/-- Every lexeme of a source is readable. -/
theorem Lexeme.readable_of_mem {start : Nat} {chars : List Char} {lexeme : Lexeme}
    (member : lexeme ∈ ofChars start chars) : lexeme.Readable := by
  intro token kind read atomic
  refine ⟨token, ofText?_of_mem member read, atomic, ?_⟩
  rintro name rfl
  have spelled : Except.ok (Token.identifier (String.ofList lexeme.text.toList)) =
      (.ok (.identifier name) : Except LexError Token) := (matches_of_mem member read).2
  rw [String.ofList_toList] at spelled
  cases spelled
  rfl

namespace SExpr

variable {datum : SExpr}

/-- Only an atom shows an atom. -/
theorem eq_atom_of_reading? {kind : AtomKind} {text : String}
    (read : datum.reading? = some (.atom kind text)) : datum = .atom text kind := by
  unfold reading? at read
  split at read
  all_goals simp_all

/-- Only a list or a vector shows one, and its elements show what is inside. -/
theorem exists_of_enclosed {bracket : Bracket} {data : List Reading}
    (read : datum.reading? = some (.enclosed bracket data)) :
    ∃ source elements, allReadings? elements = some data ∧
      datum = match bracket with
        | .list => .list source elements
        | .vector => .vector source elements := by
  unfold reading? at read
  split at read
  · obtain ⟨inner, inside, same⟩ := Option.map_eq_some_iff.mp read
    cases same
    exact ⟨_, _, inside, rfl⟩
  · obtain ⟨inner, inside, same⟩ := Option.map_eq_some_iff.mp read
    cases same
    exact ⟨_, _, inside, rfl⟩
  all_goals simp at read

/-- Only an abbreviation shows a quotation, and its datum shows what is quoted. -/
theorem exists_of_quotation {quoted : Reading}
    (read : datum.reading? = some (.quotation quoted)) :
    ∃ source inner, datum = .abbreviation source [inner] ∧ inner.reading? = some quoted := by
  unfold reading? at read
  split at read
  case h_3 source inner =>
    obtain ⟨shown, inside, same⟩ := Option.map_eq_some_iff.mp read
    cases same
    exact ⟨source, inner, rfl, inside⟩
  all_goals simp at read

/-- The first datum shows the first reading, and the others show the rest. -/
theorem exists_of_allReadings?_cons {data : List SExpr} {reading : Reading}
    {readings : List Reading} (read : allReadings? data = some (reading :: readings)) :
    ∃ datum rest, data = datum :: rest ∧ datum.reading? = some reading ∧
      allReadings? rest = some readings := by
  cases data with
  | nil => cases read
  | cons datum rest =>
      obtain ⟨first, shown, read⟩ := Option.bind_eq_some_iff.mp read
      obtain ⟨others, shownRest, read⟩ := Option.bind_eq_some_iff.mp read
      cases read
      exact ⟨datum, rest, rfl, shown, shownRest⟩

mutual

/-- A datum that shows what readable lexemes derive is proper. -/
theorem proper_of_derives {datum : SExpr} {lexemes : List Lexeme} {reading : Reading}
    (derives : Derives lexemes reading) (readable : ∀ lexeme ∈ lexemes, lexeme.Readable)
    (read : datum.reading? = some reading) : datum.Proper := by
  cases derives with
  | @atom lexeme token kind token? atomic =>
      obtain rfl := eq_atom_of_reading? read
      exact readable lexeme (List.mem_singleton_self lexeme) token kind token? atomic
  | @enclosed bracket _ _ _ _ opens derives closes =>
      obtain ⟨source, elements, shown, rfl⟩ := exists_of_enclosed read
      have proper := allProper_of_derives derives (fun lexeme member =>
        readable lexeme (List.mem_cons_of_mem _ (List.mem_append_left _ member))) shown
      cases bracket <;> exact proper
  | quotation quotes derives =>
      obtain ⟨source, inner, rfl, shown⟩ := exists_of_quotation read
      have proper := proper_of_derives derives
        (fun lexeme member => readable lexeme (List.mem_cons_of_mem _ member)) shown
      exact ⟨rfl, proper, trivial⟩

/-- Data that show what readable lexemes derive are proper. -/
theorem allProper_of_derives {data : List SExpr} {lexemes : List Lexeme} {readings : List Reading}
    (derives : DerivesAll lexemes readings) (readable : ∀ lexeme ∈ lexemes, lexeme.Readable)
    (read : allReadings? data = some readings) : AllProper data := by
  cases derives with
  | nil =>
      obtain rfl := eq_nil_of_allReadings? read
      trivial
  | cons derives derivesRest =>
      obtain ⟨datum, rest, rfl, shown, shownRest⟩ := exists_of_allReadings?_cons read
      constructor
      · exact proper_of_derives derives
          (fun lexeme member => readable lexeme (List.mem_append_left _ member)) shown
      · exact allProper_of_derives derivesRest
          (fun lexeme member => readable lexeme (List.mem_append_right _ member)) shownRest

end

end SExpr

/-- The data of a source without errors are proper. -/
theorem Parse.allProper_of_errors {source : String}
    (unreported : (Parse.ofSource source).errors = []) :
    SExpr.AllProper (Parse.ofSource source).data := by
  obtain ⟨_, readings, derives, shown⟩ := derives_of_errors unreported
  refine SExpr.allProper_of_derives derives ?_ shown
  exact fun lexeme member => Lexeme.readable_of_mem (List.mem_of_mem_filter member)

end SmallScheme
