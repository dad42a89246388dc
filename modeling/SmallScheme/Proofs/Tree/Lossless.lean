/-
This file shows that the tree of a source has one leaf for each lexeme, in source order, so that the
texts of the leaves are the source.
-/

import SmallScheme.Proofs.Tree.Reports

namespace SmallScheme

/-- The leaves of two lists of trees come one after the other. -/
theorem Tree.allLeaves_append (first second : List Tree) :
    allLeaves (first ++ second) = allLeaves first ++ allLeaves second := by
  induction first with
  | nil => rfl
  | cons tree rest ih => rw [List.cons_append, allLeaves, ih, allLeaves, List.append_assoc]

/-- The leaves of one tree are its own. -/
theorem Tree.allLeaves_singleton (tree : Tree) : allLeaves [tree] = tree.leaves :=
  List.append_nil tree.leaves

namespace Lexeme

/-- A closing parenthesis is stray outside of every list and vector. -/
def isStray (waiting : List Span) (lexeme : Lexeme) : Bool :=
  lexeme.isClosing && waiting.isEmpty

/-- The kind and the text of the leaf, after the given openers. -/
def leafAfter (waiting : List Span) (lexeme : Lexeme) : LeafKind × String :=
  (if lexeme.isStray waiting then .error else .ofToken lexeme.token, lexeme.text)

/-- The leaves of the lexemes, after the given openers. -/
def leavesAfter (waiting : List Span) : List Lexeme → List (LeafKind × String)
  | [] => []
  | lexeme :: rest =>
      lexeme.leafAfter waiting :: leavesAfter (waitingAfter waiting lexeme) rest

/-- A lexeme that is not stray is the leaf that it is read as. -/
theorem leafAfter_of_not_isStray {waiting : List Span} {lexeme : Lexeme}
    (solid : lexeme.isStray waiting = false) : lexeme.leaf.leaves = [lexeme.leafAfter waiting] := by
  rw [leafAfter, solid]
  rfl

/-- The leaf at a place is that of the lexeme there, after the openers before it. -/
theorem getElem?_leavesAfter (waiting : List Span) (lexemes : List Lexeme) (index : Nat) :
    (leavesAfter waiting lexemes)[index]? =
      lexemes[index]?.map (leafAfter ((lexemes.take index).foldl waitingAfter waiting)) := by
  induction lexemes generalizing waiting index with
  | nil => rfl
  | cons lexeme rest ih =>
      cases index with
      | zero => rfl
      | succ index => exact ih (waitingAfter waiting lexeme) index

/-- The texts of the leaves are those of the lexemes. -/
theorem map_snd_leavesAfter (waiting : List Span) (lexemes : List Lexeme) :
    (leavesAfter waiting lexemes).map Prod.snd = lexemes.map text := by
  induction lexemes generalizing waiting with
  | nil => rfl
  | cons lexeme rest ih => rw [leavesAfter, List.map_cons, ih, List.map_cons, leafAfter]

/-- The texts of the lexemes are the characters, and none of them is empty. -/
theorem join_ofChars (start : Nat) (chars : List Char) :
    String.join ((ofChars start chars).map text) = String.ofList chars ∧
      (ofChars start chars).length ≤ chars.length := by
  fun_induction ofChars start chars with
  | case1 start => exact ⟨rfl, Nat.le_refl 0⟩
  | case2 start first rest token length scanned text stop ih =>
      obtain ⟨joined, bounded⟩ := ih
      rw [List.length_drop] at bounded
      constructor
      · rw [List.map_cons, String.join_cons, joined, ← String.ofList_append, List.cons_append,
          List.take_append_drop]
      · rw [List.length_cons, List.length_cons]
        omega

end Lexeme

namespace OpenNode

/-- The leaves of an open node, in source order. -/
def leaves (node : OpenNode) : List (LeafKind × String) :=
  Tree.allLeaves node.children.reverse

/-- A node takes the leaves of a tree after its own. -/
theorem leaves_add (node : OpenNode) (tree : Tree) :
    (node.add tree).leaves = node.leaves ++ tree.leaves := by
  rw [leaves, add, List.reverse_cons, Tree.allLeaves_append, Tree.allLeaves_singleton, leaves]

/-- A node that closes keeps its leaves. -/
theorem leaves_close (node : OpenNode) (last : List Tree) :
    (node.close last).leaves = node.leaves ++ Tree.allLeaves last := by
  rw [close, Tree.leaves, Tree.allLeaves_singleton, Tree.leaves, Tree.allLeaves_append, leaves]

end OpenNode

namespace Builder

/-- The leaves of the open nodes, the outermost first. -/
def openLeaves : List OpenNode → List (LeafKind × String)
  | [] => []
  | innermost :: outer => openLeaves outer ++ innermost.leaves

/-- The leaves built so far, in source order. -/
def leaves (builder : Builder) : List (LeafKind × String) :=
  Tree.allLeaves builder.finished.reverse ++ openLeaves builder.opened

section Add

variable (builder : Builder) (tree : Tree)

/-- A builder takes the leaves of a tree after its own. -/
theorem leaves_add : (builder.add tree).leaves = builder.leaves ++ tree.leaves := by
  obtain ⟨opened, finished, errors⟩ := builder
  cases opened with
  | nil => simp [add, leaves, openLeaves, Tree.allLeaves_append, Tree.allLeaves_singleton]
  | cons innermost outer => simp [add, leaves, openLeaves, OpenNode.leaves_add]

/-- A quote that closes passes its leaves on, with those of its datum. -/
theorem leaves_placeIn (opened : List OpenNode) (finished : List Tree) :
    Tree.allLeaves (placeIn tree opened finished).2.reverse ++
        openLeaves (placeIn tree opened finished).1 =
      Tree.allLeaves finished.reverse ++ openLeaves opened ++ tree.leaves := by
  induction opened generalizing tree with
  | nil => simp [placeIn, openLeaves, Tree.allLeaves_append, Tree.allLeaves_singleton]
  | cons innermost outer ih =>
      have here : Tree.allLeaves finished.reverse ++ openLeaves (innermost.add tree :: outer) =
          Tree.allLeaves finished.reverse ++ openLeaves (innermost :: outer) ++ tree.leaves := by
        simp [openLeaves, OpenNode.leaves_add]
      rw [placeIn]
      cases innermost.kind with
      | list => exact here
      | vector => exact here
      | quote =>
          dsimp only
          rw [ih, OpenNode.leaves_close, Tree.allLeaves_singleton, openLeaves]
          simp only [List.append_assoc]

/-- A placed tree comes after the leaves built so far. -/
theorem leaves_place : (builder.place tree).leaves = builder.leaves ++ tree.leaves :=
  leaves_placeIn tree builder.opened builder.finished

/-- A report adds no leaf. -/
theorem leaves_report (error : ParseError) : (builder.report error).leaves = builder.leaves := rfl

/-- An opening lexeme is the first leaf of its node. -/
theorem leaves_start (kind : OpenerKind) (lexeme : Lexeme) :
    (builder.start kind lexeme).leaves = builder.leaves ++ lexeme.leaf.leaves := by
  simp [start, leaves, openLeaves, OpenNode.leaves, Tree.allLeaves_singleton]

/-- An abandoned quote keeps its leaves. -/
theorem leaves_abandonQuote : builder.abandonQuote.leaves = builder.leaves := by
  obtain ⟨opened, finished, errors⟩ := builder
  cases opened with
  | nil => rfl
  | cons innermost outer =>
      obtain ⟨kind, span, children⟩ := innermost
      cases kind with
      | list => rfl
      | vector => rfl
      | quote =>
          have passed := leaves_place ⟨outer, finished, .danglingQuote span :: errors⟩
            (OpenNode.close ⟨.quote, span, children⟩ [])
          rw [OpenNode.leaves_close] at passed
          refine passed.trans ?_
          simp [leaves, openLeaves, Tree.allLeaves]

end Add

/-- A closing parenthesis is a leaf of the node that it ends, and without one it is stray. -/
theorem leaves_close {builder : Builder} (settled : Settled builder.opened) {lexeme : Lexeme}
    (closing : lexeme.isClosing = true) :
    (builder.close lexeme).leaves =
      builder.leaves ++ [lexeme.leafAfter (waiting builder.opened)] := by
  obtain ⟨opened, finished, errors⟩ := builder
  cases opened with
  | nil =>
      have stray : lexeme.isStray (waiting []) = true := by rw [Lexeme.isStray, closing]; rfl
      rw [close, leaves_add, leaves_report, Lexeme.leafAfter, stray]
      rfl
  | cons innermost outer =>
      have inside : lexeme.isStray (waiting (innermost :: outer)) = false := by
        rw [Lexeme.isStray, waiting_cons, settled innermost rfl]
        simp
      rw [← Lexeme.leafAfter_of_not_isStray inside, close, leaves_place, OpenNode.leaves_close,
        Tree.allLeaves_singleton]
      simp [leaves, openLeaves]

/-- Every step adds the leaf of its lexeme after the others. -/
theorem leaves_step (builder : Builder) (lexeme : Lexeme) :
    (builder.step lexeme).leaves =
      builder.leaves ++ [lexeme.leafAfter (waiting builder.opened)] := by
  have solid (other : lexeme.isClosing = false) :
      lexeme.leaf.leaves = [lexeme.leafAfter (waiting builder.opened)] := by
    apply Lexeme.leafAfter_of_not_isStray
    rw [Lexeme.isStray, other]
    rfl
  cases token : lexeme.token with
  | error error =>
      rw [← solid (by rw [Lexeme.isClosing, token]), step, token]
      exact leaves_place (builder.report (.lexical lexeme.span error)) lexeme.leaf
  | ok read =>
      cases read with
      | rightParen =>
          have closing : lexeme.isClosing = true := by rw [Lexeme.isClosing, token]
          obtain ⟨settled, same⟩ := settled_abandonQuote builder
          rw [step, token, ← same, ← leaves_abandonQuote builder]
          exact leaves_close settled closing
      | whitespace | lineEnding | comment =>
          rw [← solid (by rw [Lexeme.isClosing, token]), step, token]
          exact leaves_add builder lexeme.leaf
      | leftParen | startVector | quote =>
          rw [← solid (by rw [Lexeme.isClosing, token]), step, token]
          exact leaves_start builder _ lexeme
      | identifier | boolean | character | string | number =>
          rw [← solid (by rw [Lexeme.isClosing, token]), step, token,
            ← Tree.allLeaves_singleton lexeme.leaf]
          exact leaves_place builder (.node .datum [lexeme.leaf])

/-- The builder has one leaf for each lexeme that it has read. -/
theorem leaves_foldl (builder : Builder) (lexemes : List Lexeme) :
    (lexemes.foldl step builder).leaves =
      builder.leaves ++ Lexeme.leavesAfter (waiting builder.opened) lexemes := by
  induction lexemes generalizing builder with
  | nil => exact (List.append_nil builder.leaves).symm
  | cons lexeme rest ih =>
      rw [List.foldl_cons, ih, leaves_step, waiting_step, Lexeme.leavesAfter, List.append_assoc,
        List.singleton_append]

/-- The end of the source closes the open nodes around what was closed last. -/
theorem leaves_closeAll (finished : List Tree) (errors : List ParseError)
    (opened : List OpenNode) {last : List Tree} (single : last.reverse = last) :
    Tree.allLeaves (closeAll finished errors opened last).1.reverse =
      Tree.allLeaves finished.reverse ++ openLeaves opened ++ Tree.allLeaves last := by
  induction opened generalizing errors last with
  | nil => simp [closeAll, openLeaves, Tree.allLeaves_append, single]
  | cons innermost outer ih =>
      rw [closeAll, ih _ rfl, Tree.allLeaves_singleton, OpenNode.leaves_close, openLeaves]
      simp only [List.append_assoc]

/-- The tree has the leaves of the builder. -/
theorem leaves_finish (builder : Builder) : builder.finish.tree.leaves = builder.leaves := by
  have closed := leaves_closeAll builder.finished builder.errors builder.opened List.reverse_nil
  exact closed.trans (List.append_nil _)

end Builder

namespace Parse

/-- The tree of a source has the leaves of its lexemes. -/
theorem leaves_ofSource (source : String) :
    (ofSource source).tree.leaves = Lexeme.leavesAfter [] (lexemes source) := by
  rw [ofSource, ofLexemes, Builder.leaves_finish, Builder.leaves_foldl]
  rfl

/-- The texts of the leaves are the source, whatever is wrong with it, and there are at most as many
leaves as characters. Each leaf has the kind of its token, only that of a stray parenthesis is an
error. -/
theorem tree_is_lossless (source : String) :
    (ofSource source).tree.text = source ∧
      (ofSource source).tree.leaves.length ≤ source.length ∧
      ∀ index, (ofSource source).tree.leaves[index]? =
        (lexemes source)[index]?.map
          (Lexeme.leafAfter (((lexemes source).take index).foldl Lexeme.waitingAfter [])) := by
  obtain ⟨joined, bounded⟩ := Lexeme.join_ofChars 0 source.toList
  rw [Tree.text, leaves_ofSource, Lexeme.map_snd_leavesAfter]
  refine ⟨?_, ?_, Lexeme.getElem?_leavesAfter [] (lexemes source)⟩
  · rw [lexemes, joined, String.ofList_toList]
  · have counted := congrArg List.length (Lexeme.map_snd_leavesAfter [] (lexemes source))
    rw [List.length_map, List.length_map] at counted
    rw [counted, ← String.length_toList]
    exact bounded

end Parse

end SmallScheme
