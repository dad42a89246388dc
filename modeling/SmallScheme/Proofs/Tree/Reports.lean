/-
This file says which errors the lexemes of a source contain, and shows that the parser reports exactly
these.
-/

import Mathlib.Data.List.Basic
import SmallScheme.Tree.Parse

namespace SmallScheme

namespace Lexeme

/-- Blanks, line ends and comments stand between the other lexemes. -/
def isTrivia (lexeme : Lexeme) : Bool :=
  match lexeme.token with
  | .ok .whitespace => true
  | .ok .lineEnding => true
  | .ok .comment => true
  | _ => false

/-- Whether the lexeme is a closing parenthesis. -/
def isClosing (lexeme : Lexeme) : Bool :=
  match lexeme.token with
  | .ok .rightParen => true
  | _ => false

/-- The openers that wait for a closing parenthesis after the lexeme, the innermost first. -/
def waitingAfter (waiting : List Span) (lexeme : Lexeme) : List Span :=
  match lexeme.token with
  | .ok .leftParen => lexeme.span :: waiting
  | .ok .startVector => lexeme.span :: waiting
  | .ok .rightParen => waiting.tail
  | _ => waiting

/-- A quote has no datum if a closing parenthesis or the end of the source comes next. -/
def dangles (rest : List Lexeme) : Bool :=
  match rest.find? (!·.isTrivia) with
  | some next => next.isClosing
  | none => true

/-- The error of one lexeme, which depends on the openers before it and on what follows it. -/
def fault? (waiting : List Span) (lexeme : Lexeme) (rest : List Lexeme) : Option ParseError :=
  match lexeme.token with
  | .error error => some (.lexical lexeme.span error)
  | .ok .rightParen => if waiting.isEmpty then some (.unexpectedParen lexeme.span) else none
  | .ok .quote => if dangles rest then some (.danglingQuote lexeme.span) else none
  | _ => none

/-- The errors of the lexemes in source order, after the given openers. -/
def faults (waiting : List Span) : List Lexeme → List ParseError
  | [] => []
  | lexeme :: rest =>
      (fault? waiting lexeme rest).toList ++ faults (waitingAfter waiting lexeme) rest

/-- An error is reported where its lexeme stands. -/
theorem span_of_fault? {waiting : List Span} {lexeme : Lexeme} {rest : List Lexeme}
    {error : ParseError} (faulty : fault? waiting lexeme rest = some error) :
    error.span = lexeme.span := by
  unfold fault? at faulty
  grind [ParseError.span]

/-- The errors stand in the order of the lexemes. -/
theorem sublist_faults (waiting : List Span) (lexemes : List Lexeme) :
    ((faults waiting lexemes).map ParseError.span).Sublist (lexemes.map Lexeme.span) := by
  induction lexemes generalizing waiting with
  | nil => exact List.Sublist.slnil
  | cons lexeme rest inductionHypothesis =>
      have later := inductionHypothesis (waitingAfter waiting lexeme)
      rw [faults, List.map_append, List.map_cons]
      cases faulty : fault? waiting lexeme rest with
      | none => exact later.cons _
      | some error =>
          rw [Option.toList_some, List.map_singleton, span_of_fault? faulty]
          exact later.cons_cons _

/-- An error belongs to the place in the source where the openers before it and the lexemes after it
make it one. -/
theorem mem_faults {waiting : List Span} {lexemes : List Lexeme} {error : ParseError} :
    error ∈ faults waiting lexemes ↔
      ∃ before lexeme rest, lexemes = before ++ lexeme :: rest ∧
        fault? (before.foldl waitingAfter waiting) lexeme rest = some error := by
  induction lexemes generalizing waiting with
  | nil => simp [faults]
  | cons first others inductionHypothesis =>
      rw [faults, List.mem_append, Option.mem_toList, inductionHypothesis]
      constructor
      · rintro (faulty | ⟨before, lexeme, rest, rfl, faulty⟩)
        · exact ⟨[], first, others, rfl, faulty⟩
        · exact ⟨first :: before, lexeme, rest, rfl, faulty⟩
      · rintro ⟨before, lexeme, rest, parts, faulty⟩
        cases before with
        | nil =>
            obtain ⟨rfl, rfl⟩ := List.cons.inj parts
            exact .inl faulty
        | cons head before =>
            obtain ⟨rfl, rfl⟩ := List.cons.inj parts
            exact .inr ⟨before, lexeme, rest, rfl, faulty⟩

/-- A text that is not empty has a byte. -/
theorem byteLength_pos (first : Char) (rest : List Char) : 0 < byteLength (first :: rest) := by
  have size := Char.utf8Size_pos first
  simp only [byteLength, List.foldr_cons]
  omega

/-- Every lexeme starts after the one before it. -/
theorem sorted_ofChars (start : Nat) (chars : List Char) :
    (ofChars start chars).Pairwise (fun first second => first.span.start < second.span.start) ∧
      ∀ lexeme ∈ ofChars start chars, start ≤ lexeme.span.start := by
  fun_induction ofChars start chars with
  | case1 start => simp
  | case2 start first rest token length scanned text stop inductionHypothesis =>
      have grows : start < stop := by
        have size := byteLength_pos first (rest.take length)
        simp only [stop, text]
        omega
      obtain ⟨sorted, bounded⟩ := inductionHypothesis
      rw [List.pairwise_cons, List.forall_mem_cons]
      refine ⟨⟨fun lexeme member => ?_, sorted⟩, Nat.le_refl start, fun lexeme member => ?_⟩
      · exact Nat.lt_of_lt_of_le grows (bounded lexeme member)
      · exact Nat.le_of_lt (Nat.lt_of_lt_of_le grows (bounded lexeme member))

/-- The errors of a source stand in strictly increasing order. -/
theorem sorted_faults (source : String) :
    ((faults [] (lexemes source)).map (·.span.start)).Pairwise (· < ·) := by
  have sorted := (sorted_ofChars 0 source.toList).1
  have ordered : ((lexemes source).map Lexeme.span).Pairwise fun first second =>
      first.start < second.start := List.pairwise_map.mpr sorted
  have kept := ordered.sublist (sublist_faults [] (lexemes source))
  rw [List.pairwise_map] at kept ⊢
  exact kept

end Lexeme

namespace OpenNode

/-- Whether the node is an open quote. -/
def isQuote (node : OpenNode) : Bool :=
  node.kind == .quote

end OpenNode

namespace Builder

/-- The lists and vectors among the open nodes. -/
def waiting (opened : List OpenNode) : List Span :=
  (opened.filter (!·.isQuote)).map OpenNode.span

/-- An open quote waits for no closing parenthesis. -/
theorem waiting_cons (node : OpenNode) (outer : List OpenNode) :
    waiting (node :: outer) =
      if node.isQuote then waiting outer else node.span :: waiting outer := by
  cases quote : node.isQuote <;> simp [waiting, quote]

/-- The innermost open node waits for no datum. -/
def Settled (opened : List OpenNode) : Prop :=
  ∀ node ∈ opened.head?, node.isQuote = false

/-- The report on an innermost quote that what follows leaves without a datum. Every other open quote
is followed by the node inside it. -/
def pending (opened : List OpenNode) (rest : List Lexeme) : List ParseError :=
  match opened with
  | [] => []
  | innermost :: _ =>
      if innermost.isQuote && Lexeme.dangles rest then [.danglingQuote innermost.span] else []

/-- The reports made so far and the one that what follows decides. -/
def reported (builder : Builder) (rest : List Lexeme) : List ParseError :=
  builder.errors.reverse ++ pending builder.opened rest

/-- Outside of every node nothing waits for a datum. -/
theorem settled_nil : Settled [] := by
  intro node member
  cases member

/-- Where no quote waits for a datum nothing is left to report. -/
theorem pending_of_settled {opened : List OpenNode} (settled : Settled opened)
    (rest : List Lexeme) : pending opened rest = [] := by
  cases opened with
  | nil => rfl
  | cons innermost outer =>
      have datum := settled innermost rfl
      simp [pending, datum]

/-- A datum that follows settles every quote. -/
theorem pending_of_not_dangles (opened : List OpenNode) {rest : List Lexeme}
    (followed : Lexeme.dangles rest = false) : pending opened rest = [] := by
  cases opened with
  | nil => rfl
  | cons innermost outer => simp [pending, followed]

section Add

variable (builder : Builder) (tree : Tree)

/-- A leaf opens and closes nothing. -/
theorem waiting_add : waiting (builder.add tree).opened = waiting builder.opened := by
  unfold add
  cases builder.opened with
  | nil => rfl
  | cons innermost outer =>
      show waiting (innermost.add tree :: outer) = waiting (innermost :: outer)
      rw [waiting_cons, waiting_cons]
      rfl

/-- A leaf changes no report. -/
theorem reported_add (rest : List Lexeme) :
    (builder.add tree).reported rest = builder.reported rest := by
  unfold add reported
  cases builder.opened with
  | nil => rfl
  | cons innermost outer => rfl

/-- A placed tree leaves no quote open that waits for it. -/
theorem settled_placeIn (opened : List OpenNode) (finished : List Tree) :
    Settled (placeIn tree opened finished).1 ∧
      waiting (placeIn tree opened finished).1 = waiting opened := by
  induction opened generalizing tree with
  | nil => exact ⟨settled_nil, rfl⟩
  | cons innermost outer inductionHypothesis =>
      obtain ⟨kind, span, children⟩ := innermost
      cases kind with
      | quote => exact inductionHypothesis _
      | list => exact ⟨by simp [placeIn, Settled, OpenNode.isQuote, OpenNode.add], rfl⟩
      | vector => exact ⟨by simp [placeIn, Settled, OpenNode.isQuote, OpenNode.add], rfl⟩

/-- After a placed tree no quote waits for a datum. -/
theorem settled_place : Settled (builder.place tree).opened :=
  (settled_placeIn tree builder.opened builder.finished).1

/-- A placed tree opens and closes nothing that waits for a closing parenthesis. -/
theorem waiting_place : waiting (builder.place tree).opened = waiting builder.opened :=
  (settled_placeIn tree builder.opened builder.finished).2

/-- A placed tree leaves only the reports made so far. -/
theorem reported_place (rest : List Lexeme) :
    (builder.place tree).reported rest = builder.errors.reverse := by
  rw [reported, pending_of_settled (settled_place builder tree), List.append_nil]
  rfl

end Add

/-- A report with its tree comes after those made so far. -/
theorem reported_report (builder : Builder) (error : ParseError) (tree : Tree)
    (rest : List Lexeme) :
    ((builder.report error).place tree).reported rest = builder.errors.reverse ++ [error] := by
  rw [reported_place]
  exact List.reverse_cons

/-- A lexeme that is no trivia settles the fate of a quote before it. -/
theorem reported_cons (builder : Builder) {lexeme : Lexeme} (solid : lexeme.isTrivia = false)
    (rest : List Lexeme) :
    builder.reported (lexeme :: rest) =
      builder.errors.reverse ++
        if lexeme.isClosing then pending builder.opened [] else [] := by
  have found : Lexeme.dangles (lexeme :: rest) = lexeme.isClosing := by
    simp [Lexeme.dangles, solid]
  cases closing : lexeme.isClosing with
  | false =>
      rw [closing] at found
      rw [reported, pending_of_not_dangles builder.opened found]
      rfl
  | true =>
      rw [closing] at found
      have ends : Lexeme.dangles [] = true := rfl
      unfold reported pending
      rw [found, ends]
      rfl

/-- Abandoning an innermost quote makes its report. -/
theorem reports_abandonQuote (builder : Builder) :
    builder.abandonQuote.errors.reverse = builder.errors.reverse ++ pending builder.opened [] := by
  obtain ⟨opened, finished, errors⟩ := builder
  cases opened with
  | nil => exact (List.append_nil _).symm
  | cons innermost outer =>
      obtain ⟨kind, span, children⟩ := innermost
      cases kind with
      | quote => exact List.reverse_cons
      | list => exact (List.append_nil _).symm
      | vector => exact (List.append_nil _).symm

/-- Abandoning an innermost quote closes nothing else. -/
theorem settled_abandonQuote (builder : Builder) :
    Settled builder.abandonQuote.opened ∧
      waiting builder.abandonQuote.opened = waiting builder.opened := by
  obtain ⟨opened, finished, errors⟩ := builder
  cases opened with
  | nil => exact ⟨settled_nil, rfl⟩
  | cons innermost outer =>
      obtain ⟨kind, span, children⟩ := innermost
      cases kind with
      | quote => exact settled_placeIn _ outer finished
      | list => exact ⟨by simp [abandonQuote, Settled, OpenNode.isQuote], rfl⟩
      | vector => exact ⟨by simp [abandonQuote, Settled, OpenNode.isQuote], rfl⟩

/-- A closing parenthesis ends the innermost list or vector, and without one it is unexpected. -/
theorem reported_close {builder : Builder} (settled : Settled builder.opened) (lexeme : Lexeme)
    (rest : List Lexeme) :
    (builder.close lexeme).reported rest =
        builder.errors.reverse ++
          (if (waiting builder.opened).isEmpty then [.unexpectedParen lexeme.span] else []) ∧
      waiting (builder.close lexeme).opened = (waiting builder.opened).tail := by
  obtain ⟨opened, finished, errors⟩ := builder
  cases opened with
  | nil =>
      refine ⟨?_, rfl⟩
      show (.unexpectedParen lexeme.span :: errors).reverse ++ [] = _
      simp [waiting]
  | cons innermost outer =>
      have datum := settled innermost rfl
      have listed : waiting (innermost :: outer) = innermost.span :: waiting outer := by
        rw [waiting_cons, datum]
        rfl
      unfold close
      rw [reported_place, waiting_place, listed]
      simp

/-- A quote that dangles will be reported, and no other opener is. -/
theorem reported_start (builder : Builder) (kind : OpenerKind) (lexeme : Lexeme)
    (rest : List Lexeme) :
    (builder.start kind lexeme).reported rest =
      builder.errors.reverse ++
        if kind = .quote ∧ Lexeme.dangles rest then [.danglingQuote lexeme.span] else [] := by
  cases kind <;> simp [start, reported, pending, OpenNode.isQuote]

/-- A list or vector waits for its closing parenthesis, and a quote does not. -/
theorem waiting_start (builder : Builder) (kind : OpenerKind) (lexeme : Lexeme) :
    waiting (builder.start kind lexeme).opened =
      if kind = .quote then waiting builder.opened else lexeme.span :: waiting builder.opened := by
  cases kind <;> simp [start, waiting_cons, OpenNode.isQuote]

/-- Trivia settle nothing. -/
theorem reported_of_trivia (builder : Builder) {lexeme : Lexeme} (trivia : lexeme.isTrivia = true)
    (rest : List Lexeme) : builder.reported (lexeme :: rest) = builder.reported rest := by
  have same : Lexeme.dangles (lexeme :: rest) = Lexeme.dangles rest := by
    simp [Lexeme.dangles, trivia]
  unfold reported pending
  rw [same]

/-- Every step adds the report on its lexeme, if there is one. -/
theorem reported_step (builder : Builder) (lexeme : Lexeme) (rest : List Lexeme) :
    (builder.step lexeme).reported rest =
      builder.reported (lexeme :: rest) ++
        (Lexeme.fault? (waiting builder.opened) lexeme rest).toList := by
  cases token : lexeme.token with
  | error error =>
      have solid : lexeme.isTrivia = false := by simp [Lexeme.isTrivia, token]
      rw [reported_cons builder solid]
      simp [step, Lexeme.fault?, Lexeme.isClosing, token, reported_report]
  | ok read =>
      cases read with
      | whitespace | lineEnding | comment =>
          have trivia : lexeme.isTrivia = true := by simp [Lexeme.isTrivia, token]
          rw [reported_of_trivia builder trivia]
          simp [step, Lexeme.fault?, token, reported_add]
      | rightParen =>
          have solid : lexeme.isTrivia = false := by simp [Lexeme.isTrivia, token]
          obtain ⟨settled, same⟩ := settled_abandonQuote builder
          rw [reported_cons builder solid]
          simp only [step, token, Lexeme.fault?, Lexeme.isClosing, (reported_close settled _ _).1,
            reports_abandonQuote, same]
          split <;> rfl
      | quote =>
          have solid : lexeme.isTrivia = false := by simp [Lexeme.isTrivia, token]
          rw [reported_cons builder solid]
          simp only [step, token, Lexeme.fault?, Lexeme.isClosing, reported_start]
          cases Lexeme.dangles rest <;> simp
      | _ =>
          have solid : lexeme.isTrivia = false := by simp [Lexeme.isTrivia, token]
          rw [reported_cons builder solid]
          simp [step, Lexeme.fault?, Lexeme.isClosing, token, reported_start, reported_place]

/-- Every step opens and closes what its lexeme opens and closes. -/
theorem waiting_step (builder : Builder) (lexeme : Lexeme) :
    waiting (builder.step lexeme).opened =
      Lexeme.waitingAfter (waiting builder.opened) lexeme := by
  cases token : lexeme.token with
  | error error =>
      simp only [step, Lexeme.waitingAfter, token, waiting_place]
      rfl
  | ok read =>
      cases read with
      | rightParen =>
          obtain ⟨settled, same⟩ := settled_abandonQuote builder
          simp only [step, Lexeme.waitingAfter, token, (reported_close settled lexeme []).2, same]
      | _ =>
          simp [step, Lexeme.waitingAfter, token, waiting_add, waiting_place, waiting_start]

/-- The end of the source reports every list and vector that is still open, the innermost first. -/
theorem errors_closeAll (finished : List Tree) (errors : List ParseError)
    (opened : List OpenNode) (last : List Tree) :
    (closeAll finished errors opened last).2.reverse =
      errors.reverse ++ (if last.isEmpty then pending opened [] else []) ++
        (waiting opened).map .unclosed := by
  induction opened generalizing errors last with
  | nil => cases last <;> simp [closeAll, pending, waiting]
  | cons innermost outer inductionHypothesis =>
      obtain ⟨kind, span, children⟩ := innermost
      rw [closeAll, inductionHypothesis, waiting_cons]
      cases kind <;> cases last <;>
        simp [OpenNode.reportOpen, OpenNode.isQuote, pending, Lexeme.dangles]

/-- The parser reports the errors of the lexemes that are left, and then what stays open. -/
theorem errors_foldl (builder : Builder) (lexemes : List Lexeme) :
    (lexemes.foldl step builder).finish.errors =
      builder.reported lexemes ++ Lexeme.faults (waiting builder.opened) lexemes ++
        (lexemes.foldl Lexeme.waitingAfter (waiting builder.opened)).map .unclosed := by
  induction lexemes generalizing builder with
  | nil =>
      show (closeAll builder.finished builder.errors builder.opened []).2.reverse = _
      rw [errors_closeAll]
      simp [reported, Lexeme.faults]
  | cons lexeme rest inductionHypothesis =>
      rw [List.foldl_cons, inductionHypothesis, reported_step, waiting_step, Lexeme.faults,
        List.foldl_cons]
      simp only [List.append_assoc]

end Builder

/-- The parser reports the error of each lexeme that has one, in strictly increasing order of the
positions, and then every opener that is left, the innermost first. A lexeme has an error if it is
none, if it closes what was never opened, or if it quotes nothing. -/
theorem Parse.errors_ofSource (source : String) :
    (Parse.ofSource source).errors =
        Lexeme.faults [] (lexemes source) ++
          ((lexemes source).foldl Lexeme.waitingAfter []).map .unclosed ∧
      ((Lexeme.faults [] (lexemes source)).map (·.span.start)).Pairwise (· < ·) ∧
      ∀ error, error ∈ Lexeme.faults [] (lexemes source) ↔
        ∃ before lexeme rest, lexemes source = before ++ lexeme :: rest ∧
          Lexeme.fault? (before.foldl Lexeme.waitingAfter []) lexeme rest = some error := by
  refine ⟨?_, Lexeme.sorted_faults source, fun error => Lexeme.mem_faults⟩
  exact Builder.errors_foldl .empty (lexemes source)

end SmallScheme
