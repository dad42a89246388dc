/-
This file builds the tree of a source from its lexemes and reports what is malformed.
The builder keeps the nodes that are still open on a stack.
-/

import SmallScheme.Tree.Basic

namespace SmallScheme

inductive ParseError where
  | lexical (span : Span) (error : LexError)
  | unexpectedParen (span : Span)
  | unclosed (span : Span)
  | danglingQuote (span : Span)
  deriving DecidableEq, Repr

namespace ParseError

def message : ParseError → String
  | .lexical _ error => error.message
  | .unexpectedParen _ => "unexpected `)`"
  | .unclosed _ => "unclosed list"
  | .danglingQuote _ => "quote is missing its datum"

def span : ParseError → Span
  | .lexical span _ => span
  | .unexpectedParen span => span
  | .unclosed span => span
  | .danglingQuote span => span

end ParseError

inductive OpenerKind where
  | list
  | vector
  | quote
  deriving DecidableEq, Repr

def OpenerKind.nodeKind : OpenerKind → NodeKind
  | .list => .list
  | .vector => .vector
  | .quote => .abbreviation

/-- A node that still waits for children. The newest child comes first. -/
structure OpenNode where
  kind : OpenerKind
  span : Span
  children : List Tree

namespace OpenNode

def add (node : OpenNode) (tree : Tree) : OpenNode :=
  { node with children := tree :: node.children }

/-- The finished datum, with its last children. -/
def close (node : OpenNode) (last : List Tree) : Tree :=
  .node .datum [.node node.kind.nodeKind (node.children.reverse ++ last)]

/-- The report on a node that the source leaves open. A quote is at fault only if no datum
follows it. -/
def reportOpen (node : OpenNode) (last : List Tree) : List ParseError :=
  match node.kind with
  | .quote => if last.isEmpty then [.danglingQuote node.span] else []
  | _ => [.unclosed node.span]

end OpenNode

/-- The open nodes, the finished children of the root and the reports, each with the newest
first. -/
structure Builder where
  opened : List OpenNode
  finished : List Tree
  errors : List ParseError

structure Parse where
  tree : Tree
  errors : List ParseError

namespace Builder

def empty : Builder :=
  ⟨[], [], []⟩

def report (builder : Builder) (error : ParseError) : Builder :=
  { builder with errors := error :: builder.errors }

/-- The innermost open node takes a leaf that stands for no datum. -/
def add (builder : Builder) (tree : Tree) : Builder :=
  match builder.opened with
  | [] => { builder with finished := tree :: builder.finished }
  | innermost :: outer => { builder with opened := innermost.add tree :: outer }

/-- A placed tree also closes the quotes that wait for it. -/
def placeIn (tree : Tree) : List OpenNode → List Tree → List OpenNode × List Tree
  | [], finished => ([], tree :: finished)
  | innermost :: outer, finished =>
      match innermost.kind with
      | .quote => placeIn (innermost.close [tree]) outer finished
      | _ => (innermost.add tree :: outer, finished)

def place (builder : Builder) (tree : Tree) : Builder :=
  let (opened, finished) := placeIn tree builder.opened builder.finished
  { builder with opened := opened, finished := finished }

def start (builder : Builder) (kind : OpenerKind) (lexeme : Lexeme) : Builder :=
  { builder with opened := ⟨kind, lexeme.span, [lexeme.leaf]⟩ :: builder.opened }

/-- A quote that meets a closing parenthesis has no datum. -/
def abandonQuote (builder : Builder) : Builder :=
  match builder.opened with
  | innermost :: outer =>
      match innermost.kind with
      | .quote =>
          ({ builder with opened := outer }.report (.danglingQuote innermost.span)).place
            (innermost.close [])
      | _ => builder
  | [] => builder

/-- A closing parenthesis outside of every list is an error leaf of the root. -/
def close (builder : Builder) (lexeme : Lexeme) : Builder :=
  match builder.opened with
  | innermost :: outer =>
      { builder with opened := outer }.place (innermost.close [lexeme.leaf])
  | [] => (builder.report (.unexpectedParen lexeme.span)).add (.leaf .error lexeme.text)

def step (builder : Builder) (lexeme : Lexeme) : Builder :=
  match lexeme.token with
  | .error error => (builder.report (.lexical lexeme.span error)).place lexeme.leaf
  | .ok token =>
      match token with
      | .whitespace => builder.add lexeme.leaf
      | .lineEnding => builder.add lexeme.leaf
      | .comment => builder.add lexeme.leaf
      | .leftParen => builder.start .list lexeme
      | .startVector => builder.start .vector lexeme
      | .quote => builder.start .quote lexeme
      | .rightParen => builder.abandonQuote.close lexeme
      | _ => builder.place (.node .datum [lexeme.leaf])

/-- The end of the source closes every open node from the innermost outwards. -/
def closeAll (finished : List Tree) (errors : List ParseError) :
    List OpenNode → List Tree → List Tree × List ParseError
  | [], last => (last ++ finished, errors)
  | innermost :: outer, last =>
      closeAll finished (innermost.reportOpen last ++ errors) outer [innermost.close last]

def finish (builder : Builder) : Parse :=
  let (finished, errors) := closeAll builder.finished builder.errors builder.opened []
  ⟨.node .root finished.reverse, errors.reverse⟩

end Builder

def Parse.ofLexemes (lexemes : List Lexeme) : Parse :=
  (lexemes.foldl Builder.step .empty).finish

def Parse.ofSource (source : String) : Parse :=
  .ofLexemes (lexemes source)

end SmallScheme
