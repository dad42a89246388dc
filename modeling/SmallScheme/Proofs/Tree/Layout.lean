/-
This file shows that sources with the same tokens have the same data, whatever stands between the
tokens and however each token is spelled.
-/

import SmallScheme.Proofs.Tree.Proper

namespace SmallScheme

namespace SExpr

/-- The data have one shape, and their atoms read as the same tokens. -/
inductive Alike : SExpr → SExpr → Prop
  | list {source other : Tree} {first second : List SExpr}
      (elements : List.Forall₂ Alike first second) : Alike (.list source first) (.list other second)
  | vector {source other : Tree} {first second : List SExpr}
      (elements : List.Forall₂ Alike first second) :
      Alike (.vector source first) (.vector other second)
  | abbreviation {source other : Tree} {first second : SExpr} (datum : Alike first second) :
      Alike (.abbreviation source [first]) (.abbreviation other [second])
  | atom {text other : String} {kind : AtomKind} (read : Token.ofText? text = Token.ofText? other) :
      Alike (.atom text kind) (.atom other kind)

end SExpr

/-- The token of a lexeme, with the one that its text is on its own. -/
def Lexeme.tokens (lexeme : Lexeme) : Except LexError Token × Option Token :=
  (lexeme.token, Token.ofText? lexeme.text)

open SExpr

mutual

/-- Lexemes with the same tokens derive a datum that is alike. -/
theorem Derives.alike {lexemes others : List Lexeme} {reading : Reading}
    (derives : Derives lexemes reading)
    (same : others.map Lexeme.tokens = lexemes.map Lexeme.tokens) :
    ∃ shown, Derives others shown ∧ ∀ first second : SExpr, first.reading? = some reading →
      second.reading? = some shown → first.Alike second := by
  cases derives with
  | @atom lexeme token kind read atomic =>
      obtain ⟨other, rfl, equal⟩ := List.map_eq_singleton_iff.mp same
      obtain ⟨tokens, texts⟩ := Prod.mk.inj equal
      refine ⟨.atom kind other.text, .atom (tokens.trans read) atomic, ?_⟩
      intro first second firstRead secondRead
      obtain rfl := eq_atom_of_reading? firstRead
      obtain rfl := eq_atom_of_reading? secondRead
      exact .atom texts.symm
  | @enclosed bracket opener closer inner elements opens derives closes =>
      rw [List.map_cons, List.map_append] at same
      obtain ⟨mark, rest, rfl, opened, same⟩ := List.map_eq_cons_iff.mp same
      obtain ⟨between, ending, rfl, inside, closed⟩ := List.map_eq_append_iff.mp same
      obtain ⟨last, rfl, ended⟩ := List.map_eq_singleton_iff.mp closed
      obtain ⟨shown, shows, alike⟩ := derives.alike inside
      refine ⟨.enclosed bracket shown, .enclosed ?_ shows ?_, ?_⟩
      · exact (Prod.mk.inj opened).1.trans opens
      · exact (Prod.mk.inj ended).1.trans closes
      · intro first second firstRead secondRead
        obtain ⟨_, early, earlyRead, rfl⟩ := exists_of_enclosed firstRead
        obtain ⟨_, late, lateRead, rfl⟩ := exists_of_enclosed secondRead
        cases bracket with
        | list => exact .list (alike early late earlyRead lateRead)
        | vector => exact .vector (alike early late earlyRead lateRead)
  | @quotation mark inner datum quotes derives =>
      obtain ⟨sign, rest, rfl, marked, inside⟩ := List.map_eq_cons_iff.mp same
      obtain ⟨shown, shows, alike⟩ := derives.alike inside
      refine ⟨.quotation shown, .quotation ((Prod.mk.inj marked).1.trans quotes) shows, ?_⟩
      intro first second firstRead secondRead
      obtain ⟨_, early, rfl, earlyRead⟩ := exists_of_quotation firstRead
      obtain ⟨_, late, rfl, lateRead⟩ := exists_of_quotation secondRead
      exact .abbreviation (alike early late earlyRead lateRead)

/-- Lexemes with the same tokens derive data that are alike. -/
theorem DerivesAll.alike {lexemes others : List Lexeme} {readings : List Reading}
    (derives : DerivesAll lexemes readings)
    (same : others.map Lexeme.tokens = lexemes.map Lexeme.tokens) :
    ∃ shown, DerivesAll others shown ∧ ∀ first second : List SExpr,
      allReadings? first = some readings → allReadings? second = some shown →
        List.Forall₂ Alike first second := by
  cases derives with
  | nil =>
      obtain rfl := List.map_eq_nil_iff.mp same
      refine ⟨[], .nil, ?_⟩
      intro first second firstRead secondRead
      obtain rfl := eq_nil_of_allReadings? firstRead
      obtain rfl := eq_nil_of_allReadings? secondRead
      exact .nil
  | cons derives derivesRest =>
      rw [List.map_append] at same
      obtain ⟨early, late, rfl, earlySame, lateSame⟩ := List.map_eq_append_iff.mp same
      obtain ⟨shown, shows, alike⟩ := derives.alike earlySame
      obtain ⟨others, showsRest, alikeRest⟩ := derivesRest.alike lateSame
      refine ⟨shown :: others, .cons shows showsRest, ?_⟩
      intro first second firstRead secondRead
      obtain ⟨datum, rest, rfl, datumRead, restRead⟩ := exists_of_allReadings?_cons firstRead
      obtain ⟨other, more, rfl, otherRead, moreRead⟩ := exists_of_allReadings?_cons secondRead
      exact .cons (alike datum other datumRead otherRead) (alikeRest rest more restRead moreRead)

end

/-- The machine reads some lexemes in one way only. -/
theorem DerivesAll.deterministic {lexemes : List Lexeme} {data others : List Reading}
    (derives : DerivesAll lexemes data) (again : DerivesAll lexemes others) : data = others := by
  have once := Outline.run?_of_derivesAll derives .empty
  rw [Outline.run?_of_derivesAll again, Outline.empty, Outline.foldl_accept_nil,
    Outline.foldl_accept_nil] at once
  simpa using once.symm

/-- A token of a source is the token of its text. -/
theorem Lexeme.tokens_of_mem {lexeme : Lexeme} {source : String} (member : lexeme ∈ lexemes source)
    (read : ∃ token, lexeme.token = .ok token) :
    lexeme.tokens = (lexeme.token, lexeme.token.toOption) := by
  obtain ⟨token, read⟩ := read
  rw [tokens, ofText?_of_mem member read, read]
  rfl

namespace Parse

variable {first second : String}

/-- The texts of a source without errors say nothing that its tokens do not. -/
theorem map_tokens (unreported : (ofSource first).errors = []) :
    (solidLexemes first).map Lexeme.tokens =
      ((solidLexemes first).map Lexeme.token).map fun token => (token, token.toOption) := by
  obtain ⟨read, _⟩ := derives_of_errors unreported
  rw [List.map_map]
  refine List.map_congr_left fun lexeme member => ?_
  have inside : lexeme ∈ lexemes first := List.mem_of_mem_filter member
  exact Lexeme.tokens_of_mem inside (read lexeme inside)

/-- Sources without errors and with the same tokens have data that are alike. -/
theorem alike_of_tokens (left : (ofSource first).errors = []) (right : (ofSource second).errors = [])
    (same : (solidLexemes first).map Lexeme.token = (solidLexemes second).map Lexeme.token) :
    List.Forall₂ Alike (ofSource first).data (ofSource second).data := by
  obtain ⟨_, early, derives, earlyRead⟩ := derives_of_errors left
  obtain ⟨tokens, late, derivesLate, lateRead⟩ := derives_of_errors right
  have equal : (solidLexemes second).map Lexeme.tokens = (solidLexemes first).map Lexeme.tokens := by
    rw [map_tokens left, map_tokens right, same]
  obtain ⟨shown, shows, alike⟩ := derives.alike equal
  obtain rfl := shows.deterministic derivesLate
  exact alike _ _ earlyRead lateRead

end Parse

end SmallScheme
