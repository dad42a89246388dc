/-
This file gives the lossless tree of a source, which keeps every lexeme as a leaf.
-/

import SmallScheme.Token.Lexeme

namespace SmallScheme

inductive LeafKind where
  | token (kind : Token.Kind)
  | error
  deriving DecidableEq, Repr

/-- A `datum` node wraps every finished datum. -/
inductive NodeKind where
  | root
  | datum
  | list
  | vector
  | abbreviation
  deriving DecidableEq, Repr

inductive Tree where
  | leaf (kind : LeafKind) (text : String)
  | node (kind : NodeKind) (children : List Tree)

namespace Tree

mutual

/-- The leaves in source order. -/
def leaves : Tree → List (LeafKind × String)
  | .leaf kind text => [(kind, text)]
  | .node _ children => allLeaves children

def allLeaves : List Tree → List (LeafKind × String)
  | [] => []
  | tree :: rest => tree.leaves ++ allLeaves rest

end

/-- The source text that the tree stands for. -/
def text (tree : Tree) : String :=
  String.join (tree.leaves.map Prod.snd)

end Tree

def LeafKind.ofToken : Except LexError Token → LeafKind
  | .ok read => .token read.kind
  | .error _ => .error

def Lexeme.leaf (lexeme : Lexeme) : Tree :=
  .leaf (.ofToken lexeme.token) lexeme.text

end SmallScheme
