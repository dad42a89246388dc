/-
This file shows that the parser reads two sources on two lines as it reads each of them, with the data
of the one followed by the data of the other.
-/

import SmallScheme.Proofs.Token.Lines
import SmallScheme.Proofs.Tree.Recognition

namespace SmallScheme

/-- The open node at a later place. -/
def OpenNode.shift (offset : Nat) (node : OpenNode) : OpenNode :=
  { node with span := node.span.shift offset }

/-- The report at a later place. -/
def ParseError.shift (offset : Nat) : ParseError → ParseError
  | .lexical span error => .lexical (span.shift offset) error
  | .unexpectedParen span => .unexpectedParen (span.shift offset)
  | .unclosed span => .unclosed (span.shift offset)
  | .danglingQuote span => .danglingQuote (span.shift offset)

namespace Builder

section Moved

/-- The builder at a later place in the source, after other children of the root. -/
def moved (offset : Nat) (before : List Tree) (builder : Builder) : Builder :=
  ⟨builder.opened.map (OpenNode.shift offset), builder.finished ++ before,
    builder.errors.map (ParseError.shift offset)⟩

variable (offset : Nat) (before : List Tree) (builder : Builder)

/-- Adding a tree does not depend on the place. -/
theorem add_moved (tree : Tree) :
    (builder.moved offset before).add tree = (builder.add tree).moved offset before := by
  obtain ⟨opened, finished, errors⟩ := builder
  cases opened <;> rfl

/-- Where a tree is placed does not depend on the place in the source. -/
theorem placeIn_moved (tree : Tree) (opened : List OpenNode) (finished : List Tree) :
    placeIn tree (opened.map (OpenNode.shift offset)) (finished ++ before) =
      ((placeIn tree opened finished).1.map (OpenNode.shift offset),
        (placeIn tree opened finished).2 ++ before) := by
  induction opened generalizing tree with
  | nil => rfl
  | cons innermost outer ih =>
      obtain ⟨kind, span, children⟩ := innermost
      cases kind with
      | quote => exact ih _
      | list => rfl
      | vector => rfl

/-- Placing a tree does not depend on the place in the source. -/
theorem place_moved (tree : Tree) :
    (builder.moved offset before).place tree = (builder.place tree).moved offset before := by
  simp only [place, moved, placeIn_moved]

/-- Abandoning a quote does not depend on the place. -/
theorem abandonQuote_moved :
    (builder.moved offset before).abandonQuote = builder.abandonQuote.moved offset before := by
  obtain ⟨opened, finished, errors⟩ := builder
  cases opened with
  | nil => rfl
  | cons innermost outer =>
      obtain ⟨kind, span, children⟩ := innermost
      cases kind with
      | quote =>
          exact place_moved offset before ⟨outer, finished, .danglingQuote span :: errors⟩
            (OpenNode.close ⟨.quote, span, children⟩ [])
      | list => rfl
      | vector => rfl

/-- Closing a node does not depend on the place. -/
theorem close_moved (lexeme : Lexeme) :
    (builder.moved offset before).close (lexeme.shift offset) =
      (builder.close lexeme).moved offset before := by
  obtain ⟨opened, finished, errors⟩ := builder
  cases opened with
  | nil => rfl
  | cons innermost outer => exact place_moved offset before ⟨outer, finished, errors⟩ _

/-- A step depends neither on the place in the source nor on the children before. -/
theorem step_moved (lexeme : Lexeme) :
    (builder.moved offset before).step (lexeme.shift offset) =
      (builder.step lexeme).moved offset before := by
  obtain ⟨token, text, span⟩ := lexeme
  cases token with
  | error error =>
      exact place_moved offset before (builder.report (.lexical span error)) (.leaf .error text)
  | ok token =>
      cases token with
      | whitespace | lineEnding | comment => exact add_moved offset before builder _
      | leftParen | startVector | quote => rfl
      | rightParen =>
          show (builder.moved offset before).abandonQuote.close (Lexeme.shift offset _) = _
          rw [abandonQuote_moved, close_moved]
          rfl
      | identifier | boolean | character | string | number =>
          exact place_moved offset before builder (.node .datum [.leaf _ text])

/-- Reading does not depend on the place. -/
theorem foldl_step_moved (lexemes : List Lexeme) :
    (lexemes.map (Lexeme.shift offset)).foldl step (builder.moved offset before) =
      (lexemes.foldl step builder).moved offset before := by
  induction lexemes generalizing builder with
  | nil => rfl
  | cons lexeme rest ih => rw [List.map_cons, List.foldl_cons, step_moved, ih, List.foldl_cons]

end Moved

section Trivia

variable {builder : Builder} {lexemes : List Lexeme}

/-- Trivia are leaves and do nothing else. -/
theorem step_of_trivia {lexeme : Lexeme} (trivia : lexeme.isTrivia = true) (builder : Builder) :
    builder.step lexeme = builder.add lexeme.leaf := by
  unfold Lexeme.isTrivia at trivia
  unfold step
  cases read : lexeme.token with
  | error error => rw [read] at trivia; cases trivia
  | ok token =>
      rw [read] at trivia
      cases token with
      | whitespace | lineEnding | comment => rfl
      | _ => cases trivia

/-- Trivia outside of every node are leaves of the root and hold no data. -/
theorem foldl_step_trivia (closed : builder.opened = [])
    (trivia : ∀ lexeme ∈ lexemes, lexeme.isTrivia = true) :
    ∃ leaves, lexemes.foldl step builder = { builder with finished := leaves ++ builder.finished } ∧
      Tree.data leaves.reverse = [] := by
  induction lexemes generalizing builder with
  | nil => exact ⟨[], rfl, rfl⟩
  | cons lexeme rest ih =>
      rw [List.forall_mem_cons] at trivia
      have added : builder.step lexeme =
          { builder with finished := lexeme.leaf :: builder.finished } := by
        rw [step_of_trivia trivia.1, add, closed]
      rw [List.foldl_cons, added]
      obtain ⟨leaves, ended, data⟩ :=
        @ih { builder with finished := lexeme.leaf :: builder.finished } closed trivia.2
      refine ⟨leaves ++ [lexeme.leaf], by simp [ended], ?_⟩
      rw [List.reverse_append, Tree.data_append, data]
      rfl

/-- Trivia close no node, so none was open before them. -/
theorem closed_of_foldl_trivia (trivia : ∀ lexeme ∈ lexemes, lexeme.isTrivia = true)
    (closed : (lexemes.foldl step builder).opened = []) : builder.opened = [] := by
  induction lexemes generalizing builder with
  | nil => exact closed
  | cons lexeme rest ih =>
      rw [List.forall_mem_cons] at trivia
      rw [List.foldl_cons, step_of_trivia trivia.1] at closed
      have before := ih trivia.2 closed
      unfold add at before
      split at before
      · assumption
      · cases before

/-- A builder with no open node and no report. -/
def Finished (builder : Builder) : Prop :=
  builder.opened = [] ∧ builder.errors = []

/-- A finished builder makes a tree of its children and reports nothing. -/
theorem Finished.finish (finished : builder.Finished) :
    builder.finish = ⟨.node .root builder.finished.reverse, []⟩ := by
  obtain ⟨closed, unreported⟩ := finished
  rw [Builder.finish, closed, unreported]
  rfl

end Trivia

end Builder

namespace Parse

/-- A source without errors leaves a finished builder. -/
theorem finished_of_errors {source : String} (unreported : (ofSource source).errors = []) :
    ((lexemes source).foldl Builder.step .empty).Finished :=
  ((Builder.errors_finish _).mp unreported).symm

/-- The data of a source without errors are those of the children of its root. -/
theorem data_of_errors {source : String} (unreported : (ofSource source).errors = []) :
    (ofSource source).data =
      Tree.data ((lexemes source).foldl Builder.step .empty).finished.reverse := by
  rw [ofSource, ofLexemes, (finished_of_errors unreported).finish]
  rfl

/-- A builder that ends in trivia was finished before them, with the same data. -/
theorem finished_before_trivia {kept last : List Lexeme}
    (trivia : ∀ lexeme ∈ last, lexeme.isTrivia = true)
    (finished : ((kept ++ last).foldl Builder.step .empty).Finished) :
    (kept.foldl Builder.step .empty).Finished ∧
      Tree.data ((kept ++ last).foldl Builder.step .empty).finished.reverse =
        Tree.data (kept.foldl Builder.step .empty).finished.reverse := by
  rw [List.foldl_append] at finished ⊢
  have closed := Builder.closed_of_foldl_trivia trivia finished.1
  obtain ⟨leaves, ended, bare⟩ := Builder.foldl_step_trivia closed trivia
  rw [ended] at finished ⊢
  refine ⟨⟨closed, finished.2⟩, ?_⟩
  rw [List.reverse_append, Tree.data_append, bare, List.append_nil]

/-- Two sources without errors have none on two lines, and their data come one after the other. -/
theorem ofSource_append_newline {first second : String} (left : (ofSource first).errors = [])
    (right : (ofSource second).errors = []) :
    (ofSource (first ++ "\n" ++ second)).errors = [] ∧
      (ofSource (first ++ "\n" ++ second)).data = (ofSource first).data ++ (ofSource second).data := by
  obtain ⟨tokens, _⟩ := derives_of_errors left
  obtain ⟨kept, last, ending, stop, parts, trivia, joined⟩ :=
    Lexeme.ofChars_newline 0 first.toList tokens
  rw [List.forall_mem_append] at trivia
  have lexed : lexemes (first ++ "\n" ++ second) =
      kept ++ ending ++ (lexemes second).map (Lexeme.shift stop) := by
    have shifted := Lexeme.ofChars_shift stop 0 second.toList
    rw [Nat.zero_add] at shifted
    rw [lexemes, String.toList_append, String.toList_append, List.append_assoc]
    exact (joined second.toList).trans (congrArg _ shifted)
  have whole : lexemes first = kept ++ last := parts
  obtain ⟨before, same⟩ := finished_before_trivia trivia.1 (whole ▸ finished_of_errors left)
  have after := finished_of_errors right
  obtain ⟨leaves, ended, bare⟩ := Builder.foldl_step_trivia before.1 trivia.2
  -- The second line starts from a builder that differs from the empty one in its place only.
  have started : (kept ++ ending).foldl Builder.step .empty =
      Builder.empty.moved stop (leaves ++ (kept.foldl Builder.step .empty).finished) := by
    rw [List.foldl_append, ended, before.1, before.2]
    rfl
  have built : (lexemes (first ++ "\n" ++ second)).foldl Builder.step .empty =
      ((lexemes second).foldl Builder.step .empty).moved stop
        (leaves ++ (kept.foldl Builder.step .empty).finished) := by
    rw [lexed, List.foldl_append, started, Builder.foldl_step_moved]
  have finished : ((lexemes (first ++ "\n" ++ second)).foldl Builder.step .empty).Finished := by
    rw [built]
    exact ⟨congrArg (List.map _) after.1, congrArg (List.map _) after.2⟩
  have unreported : (ofSource (first ++ "\n" ++ second)).errors = [] :=
    (Builder.errors_finish _).mpr finished.symm
  refine ⟨unreported, ?_⟩
  rw [data_of_errors unreported, data_of_errors left, data_of_errors right, built, whole, same]
  simp only [Builder.moved, List.reverse_append, Tree.data_append, bare, List.append_nil]

end Parse

end SmallScheme
