/-
This file reads the data of a tree as S-expressions, each with the tree it came from.
-/

import SmallScheme.Tree.Parse

namespace SmallScheme

inductive AtomKind where
  | symbol
  | number
  | string
  | character
  | boolean
  deriving DecidableEq, Repr

/-- An abbreviation has one element, or none if its quote has no datum. -/
inductive SExpr where
  | list (source : Tree) (elements : List SExpr)
  | vector (source : Tree) (elements : List SExpr)
  | abbreviation (source : Tree) (elements : List SExpr)
  | atom (text : String) (kind : AtomKind)
  | unknown (source : Tree)

def AtomKind.ofLeaf? : LeafKind → Option AtomKind
  | .token .identifier => some .symbol
  | .token .number => some .number
  | .token .string => some .string
  | .token .character => some .character
  | .token .boolean => some .boolean
  | _ => none

namespace Tree

mutual

/-- The datum of a `datum` node with exactly one child. -/
def datum? : Tree → Option SExpr
  | .node .datum [child] => some child.sexpr
  | _ => none

def sexpr : Tree → SExpr
  | .node .list children => .list (.node .list children) (data children)
  | .node .vector children => .vector (.node .vector children) (data children)
  | .node .abbreviation children => .abbreviation (.node .abbreviation children) (data children)
  | .node kind children => .unknown (.node kind children)
  | .leaf kind text =>
      match AtomKind.ofLeaf? kind with
      | some atom => .atom text atom
      | none => .unknown (.leaf kind text)

/-- The data among the children of a node, in order. -/
def data : List Tree → List SExpr
  | [] => []
  | tree :: rest =>
      match tree.datum? with
      | some datum => datum :: data rest
      | none => data rest

end

end Tree

/-- The children of the root, if the tree is one. -/
def Parse.module? (parse : Parse) : Option (List Tree) :=
  match parse.tree with
  | .node .root children => some children
  | _ => none

/-- The top-level data of a source. -/
def Parse.data (parse : Parse) : List SExpr :=
  Tree.data (parse.module?.getD [])

/-- The forms that a list can invoke by its head. -/
inductive SpecialForm where
  | quote
  | define
  | begin
  | conditional
  deriving DecidableEq, Repr

def SpecialForm.ofName? : String → Option SpecialForm
  | "quote" => some .quote
  | "define" => some .define
  | "begin" => some .begin
  | "if" => some .conditional
  | _ => none

namespace SExpr

/-- The source text of the datum. -/
def text : SExpr → String
  | .list source _ => source.text
  | .vector source _ => source.text
  | .abbreviation source _ => source.text
  | .atom text _ => text
  | .unknown source => source.text

def identifier? : SExpr → Option String
  | .atom text .symbol =>
      match Token.ofText? text with
      | some (.identifier name) => some name
      | _ => none
  | _ => none

/-- The identifier at the head of a list of elements. -/
def headIdentifier? : List SExpr → Option String
  | [] => none
  | head :: _ => head.identifier?

def specialForm? (elements : List SExpr) : Option SpecialForm :=
  (headIdentifier? elements).bind SpecialForm.ofName?

/-- Whether the datum is a list that invokes a definition. -/
def isDefinition : SExpr → Bool
  | .list _ elements => specialForm? elements == some .define
  | _ => false

end SExpr

end SmallScheme
