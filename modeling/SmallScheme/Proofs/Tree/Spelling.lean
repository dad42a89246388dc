/-
This file follows the builder through the texts that spell a tree: atoms, quotations and the tokens of
lists and vectors.
-/

import SmallScheme.Proofs.Token.Lexeme
import SmallScheme.Tree.SExpr

namespace SmallScheme

open Pattern Token Lexeme

/-- The source ends here, or goes on with a blank or a closing parenthesis. -/
def Delimits (rest : List Char) : Prop :=
  ∀ c ∈ rest.head?, c = ' ' ∨ c = ')'

/-- Wherever the text ends, the builder places the tree and goes on with the rest of the source. -/
structure Spells (text : List Char) (tree : Tree) : Prop where
  starts : ∃ first more, text = first :: more ∧ isBlank first = false
  builds : ∀ rest, Delimits rest → ∀ (start : Nat) (builder : Builder), ∃ stop,
    (ofChars start (text ++ rest)).foldl Builder.step builder =
      (ofChars stop rest).foldl Builder.step (builder.place tree)

/-- The token that opens a node. -/
def OpenerKind.token : OpenerKind → Token
  | .list => .leftParen
  | .vector => .startVector
  | .quote => .quote

/-- The text that opens a node. -/
def OpenerKind.chars : OpenerKind → List Char
  | .list => ['(']
  | .vector => ['#', '(']
  | .quote => ['\x27']

/-- The leaf of the text that opens a node. -/
def OpenerKind.leaf (opener : OpenerKind) : Tree :=
  .leaf (.token opener.token.kind) (String.ofList opener.chars)

/-- The leaf of a single blank. -/
def Tree.blank : Tree :=
  .leaf (.token .whitespace) " "

/-- The leaf of a closing parenthesis. -/
def Tree.closing : Tree :=
  .leaf (.token .rightParen) ")"

/-- The node of elements that single blanks separate. -/
def Tree.enclosed (opener : OpenerKind) (elements : List Tree) : Tree :=
  .node opener.nodeKind (opener.leaf :: (elements.intersperse .blank ++ [.closing]))

variable {kind : Token.Kind} {text rest : List Char} {tree : Tree}

/-- The builder reads a token that ends before the rest, and goes on with the rest. -/
theorem foldl_token (matched : Matches kind.pattern text)
    (stops : ∀ c ∈ rest.head?, kind.continues c = false) (start : Nat) (builder : Builder) :
    ∃ span stop, (ofChars start (text ++ rest)).foldl Builder.step builder =
      (ofChars stop rest).foldl Builder.step
        (builder.step ⟨kind.read text, String.ofList text, span⟩) := by
  rw [ofChars_append matched stops]
  exact ⟨_, _, rfl⟩

/-- An atom ends at every delimiter. -/
theorem continues_eq_false_of_atom {atom : AtomKind}
    (atomic : AtomKind.ofLeaf? (.token kind) = some atom) (delimits : Delimits rest) :
    ∀ c ∈ rest.head?, kind.continues c = false := by
  intro c head
  have stops : kind.continues ' ' = false ∧ kind.continues ')' = false := by
    cases kind with
    | identifier | boolean | character | string | number => decide
    | _ => contradiction
  obtain rfl | rfl := delimits c head
  · exact stops.1
  · exact stops.2

/-- The text of an atom spells a datum with its leaf. -/
theorem spells_atom {token : Token} {atom : AtomKind} (matched : Matches kind.pattern text)
    (read : kind.read text = .ok token) (atomic : AtomKind.ofLeaf? (.token kind) = some atom) :
    Spells text (.node .datum [.leaf (.token kind) (String.ofList text)]) where
  starts := by
    apply exists_cons_of_matches matched
    intro blank
    subst blank
    contradiction
  builds := by
    intro rest delimits start builder
    have stops := continues_eq_false_of_atom atomic delimits
    obtain ⟨span, stop, stepped⟩ := foldl_token matched stops start builder
    refine ⟨stop, stepped.trans ?_⟩
    have same := kind_of_read read
    rw [read]
    congr 1
    subst same
    cases token with
    | identifier | boolean | character | string | number => rfl
    | _ => contradiction

/-- An opening token starts a node that waits for its children. -/
theorem foldl_opener (opener : OpenerKind) (rest : List Char) (start : Nat) (builder : Builder) :
    ∃ span stop, (ofChars start (opener.chars ++ rest)).foldl Builder.step builder =
      (ofChars stop rest).foldl Builder.step
        { builder with opened := ⟨opener, span, [opener.leaf]⟩ :: builder.opened } := by
  have matched : Matches opener.token.kind.pattern opener.chars := by
    cases opener <;> exact matches_verbatim.mpr rfl
  have stops : ∀ c ∈ rest.head?, opener.token.kind.continues c = false := by
    intro c _
    cases opener <;> rfl
  obtain ⟨span, stop, built⟩ := foldl_token matched stops start builder
  refine ⟨span, stop, built.trans ?_⟩
  congr 1
  cases opener <;> rfl

/-- A quote before a text that spells a tree spells its quotation. -/
theorem spells_quotation (spelled : Spells text tree) :
    Spells (OpenerKind.quote.chars ++ text)
      (.node .datum [.node .abbreviation [OpenerKind.leaf .quote, tree]]) where
  starts := ⟨'\x27', text, rfl, rfl⟩
  builds := by
    intro rest delimits start builder
    obtain ⟨span, next, opened⟩ := foldl_opener .quote (text ++ rest) start builder
    obtain ⟨stop, built⟩ := spelled.builds rest delimits next _
    rw [List.append_assoc]
    exact ⟨stop, opened.trans built⟩

/-- An open list or vector takes the tree as its next child. -/
theorem place_of_unquoted {node : OpenNode} (unquoted : node.kind ≠ .quote)
    (outer : List OpenNode) (finished : List Tree) (errors : List ParseError) (tree : Tree) :
    Builder.place ⟨node :: outer, finished, errors⟩ tree =
      ⟨node.add tree :: outer, finished, errors⟩ := by
  unfold Builder.place Builder.placeIn
  cases kind : node.kind <;> simp_all

/-- A single blank between two elements is a leaf of the open node. -/
theorem foldl_blank {node : OpenNode} {outer : List OpenNode} {finished : List Tree}
    {errors : List ParseError} (solid : ∀ c ∈ rest.head?, isBlank c = false) (start : Nat) :
    ∃ stop, (ofChars start (' ' :: rest)).foldl Builder.step ⟨node :: outer, finished, errors⟩ =
      (ofChars stop rest).foldl Builder.step ⟨node.add .blank :: outer, finished, errors⟩ := by
  have matched : Matches Token.Kind.whitespace.pattern [' '] := by decide
  obtain ⟨_, stop, stepped⟩ := foldl_token matched solid start ⟨node :: outer, finished, errors⟩
  exact ⟨stop, stepped⟩

/-- A closing parenthesis finishes the open list or vector. -/
theorem foldl_closing (node : OpenNode) (unquoted : node.kind ≠ .quote) (outer : List OpenNode)
    (finished : List Tree) (errors : List ParseError) (rest : List Char) (start : Nat) :
    ∃ stop, (ofChars start (')' :: rest)).foldl Builder.step ⟨node :: outer, finished, errors⟩ =
      (ofChars stop rest).foldl Builder.step
        (Builder.place ⟨outer, finished, errors⟩ (node.close [.closing])) := by
  have matched : Matches Token.Kind.rightParen.pattern [')'] := by decide
  have stops : ∀ c ∈ rest.head?, Token.Kind.rightParen.continues c = false := fun _ _ => rfl
  obtain ⟨span, stop, stepped⟩ := foldl_token matched stops start ⟨node :: outer, finished, errors⟩
  refine ⟨stop, stepped.trans ?_⟩
  congr 1
  simp only [Token.Kind.read, Builder.step, Builder.abandonQuote]
  cases kind : node.kind with
  | quote => contradiction
  | _ => rfl

/-- A source that spells one tree parses to that tree and reports nothing. -/
theorem Parse.ofSource_of_spells {source : String} (spelled : Spells source.toList tree) :
    Parse.ofSource source = ⟨.node .root [tree], []⟩ := by
  obtain ⟨stop, built⟩ := spelled.builds [] (by simp [Delimits]) 0 .empty
  rw [List.append_nil] at built
  rw [Parse.ofSource, Parse.ofLexemes, lexemes, built, ofChars]
  rfl

end SmallScheme
