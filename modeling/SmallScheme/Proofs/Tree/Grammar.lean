/-
This file gives the grammar of data and a machine with a stack of open nodes, and shows that the
machine reads exactly what the grammar derives.
-/

import SmallScheme.Proofs.Tree.Reports
import SmallScheme.Tree.SExpr

namespace SmallScheme

/-- The nodes that a closing parenthesis ends. -/
inductive Bracket where
  | list
  | vector

/-- The token that opens such a node. -/
def Bracket.token : Bracket → Token
  | .list => .leftParen
  | .vector => .startVector

/-- A datum of the grammar. -/
inductive Reading where
  | atom (kind : AtomKind) (text : String)
  | enclosed (bracket : Bracket) (elements : List Reading)
  | quotation (datum : Reading)

mutual

/-- The lexemes are derived as one datum. Trivia take no part in a derivation. -/
inductive Derives : List Lexeme → Reading → Prop
  | atom {lexeme : Lexeme} {token : Token} {kind : AtomKind} (read : lexeme.token = .ok token)
      (atomic : AtomKind.ofLeaf? (.token token.kind) = some kind) :
      Derives [lexeme] (.atom kind lexeme.text)
  | enclosed {bracket : Bracket} {opener closer : Lexeme} {inner : List Lexeme}
      {elements : List Reading} (opens : opener.token = .ok bracket.token)
      (derives : DerivesAll inner elements) (closes : closer.token = .ok .rightParen) :
      Derives (opener :: (inner ++ [closer])) (.enclosed bracket elements)
  | quotation {mark : Lexeme} {inner : List Lexeme} {datum : Reading}
      (quotes : mark.token = .ok .quote) (derives : Derives inner datum) :
      Derives (mark :: inner) (.quotation datum)

/-- The lexemes are derived as data, one after the other. -/
inductive DerivesAll : List Lexeme → List Reading → Prop
  | nil : DerivesAll [] []
  | cons {first rest : List Lexeme} {datum : Reading} {others : List Reading}
      (derives : Derives first datum) (derivesRest : DerivesAll rest others) :
      DerivesAll (first ++ rest) (datum :: others)

end

/-- Lexemes that derive data can follow one another. -/
theorem DerivesAll.append {first second : List Lexeme} {early late : List Reading}
    (left : DerivesAll first early) (right : DerivesAll second late) :
    DerivesAll (first ++ second) (early ++ late) := by
  induction early generalizing first with
  | nil =>
      cases left
      exact right
  | cons datum others ih =>
      cases left with
      | cons derives derivesRest =>
          rw [List.append_assoc]
          exact .cons derives (ih derivesRest)

/-- One datum is derived by itself. -/
theorem DerivesAll.singleton {lexemes : List Lexeme} {datum : Reading}
    (derives : Derives lexemes datum) : DerivesAll lexemes [datum] := by
  have alone := DerivesAll.cons derives .nil
  rwa [List.append_nil] at alone

/-- What an open node has read so far. An open quote has read nothing. -/
inductive Frame where
  | enclosed (bracket : Bracket) (elements : List Reading)
  | quote

/-- The open nodes, the innermost first, and the data outside of them in order. -/
structure Outline where
  opened : List Frame
  finished : List Reading

namespace Outline

/-- Nothing is open and nothing was read. -/
def empty : Outline :=
  ⟨[], []⟩

/-- A datum also completes the quotes that wait for it. -/
def put (finished : List Reading) : List Frame → Reading → Outline
  | [], datum => ⟨[], finished ++ [datum]⟩
  | .enclosed bracket elements :: outer, datum =>
      ⟨.enclosed bracket (elements ++ [datum]) :: outer, finished⟩
  | .quote :: outer, datum => put finished outer (.quotation datum)

/-- The outline after it has read a datum. -/
def accept (outline : Outline) (datum : Reading) : Outline :=
  put outline.finished outline.opened datum

/-- The outline inside a new node. -/
def start (outline : Outline) (frame : Frame) : Outline :=
  { outline with opened := frame :: outline.opened }

/-- A closing parenthesis needs an open list or vector. -/
def close? (outline : Outline) : Option Outline :=
  match outline.opened with
  | .enclosed bracket elements :: outer =>
      some (put outline.finished outer (.enclosed bracket elements))
  | _ => none

/-- The outline after a token, unless the machine stops there. -/
def read? (outline : Outline) (text : String) : Token → Option Outline
  | .whitespace => some outline
  | .lineEnding => some outline
  | .comment => some outline
  | .leftParen => some (outline.start (.enclosed .list []))
  | .startVector => some (outline.start (.enclosed .vector []))
  | .quote => some (outline.start .quote)
  | .rightParen => outline.close?
  | token =>
      (AtomKind.ofLeaf? (.token token.kind)).map fun kind => outline.accept (.atom kind text)

/-- The outline after a lexeme, which has to be a token. -/
def step? (outline : Outline) (lexeme : Lexeme) : Option Outline :=
  match lexeme.token with
  | .ok token => outline.read? lexeme.text token
  | .error _ => none

/-- The outline after some lexemes. -/
def run? (outline : Outline) : List Lexeme → Option Outline
  | [] => some outline
  | lexeme :: rest => (outline.step? lexeme).bind (run? · rest)

/-- The machine reads two lists of lexemes one after the other. -/
theorem run?_append (outline : Outline) (first second : List Lexeme) :
    outline.run? (first ++ second) = (outline.run? first).bind (·.run? second) := by
  induction first generalizing outline with
  | nil => rfl
  | cons lexeme rest ih =>
      rw [List.cons_append, run?, run?, Option.bind_assoc]
      exact congrArg _ (funext ih)

/-- A step of the machine leaves the rest to read. -/
theorem run?_of_step? {outline next : Outline} {lexeme : Lexeme}
    (stepped : outline.step? lexeme = some next) (rest : List Lexeme) :
    outline.run? (lexeme :: rest) = next.run? rest := by
  rw [run?, stepped]
  rfl

/-- The machine reads the token of a lexeme. -/
theorem step?_of_ok {lexeme : Lexeme} {token : Token} (read : lexeme.token = .ok token)
    (outline : Outline) : outline.step? lexeme = outline.read? lexeme.text token := by
  rw [step?, read]

/-- The machine does not see trivia. -/
theorem step?_of_trivia {lexeme : Lexeme} (trivia : lexeme.isTrivia = true) (outline : Outline) :
    outline.step? lexeme = some outline := by
  unfold Lexeme.isTrivia at trivia
  split at trivia
  · rw [step?_of_ok ‹_›]; rfl
  · rw [step?_of_ok ‹_›]; rfl
  · rw [step?_of_ok ‹_›]; rfl
  · cases trivia

/-- Trivia may stand between any two lexemes. -/
theorem run?_filter (outline : Outline) (lexemes : List Lexeme) :
    outline.run? (lexemes.filter (!·.isTrivia)) = outline.run? lexemes := by
  induction lexemes generalizing outline with
  | nil => rfl
  | cons lexeme rest ih =>
      cases trivia : lexeme.isTrivia with
      | true =>
          rw [List.filter_cons_of_neg (by simp [trivia]), ih,
            run?_of_step? (step?_of_trivia trivia outline)]
      | false =>
          rw [List.filter_cons_of_pos (by simp [trivia]), run?, run?]
          exact congrArg _ (funext ih)

/-- The machine stops at a lexeme that is no token. -/
theorem exists_token_of_run? {outline last : Outline} {lexemes : List Lexeme}
    (ran : outline.run? lexemes = some last) :
    ∀ lexeme ∈ lexemes, ∃ token, lexeme.token = .ok token := by
  induction lexemes generalizing outline with
  | nil => exact fun _ member => absurd member List.not_mem_nil
  | cons lexeme rest ih =>
      obtain ⟨next, stepped, ran⟩ := Option.bind_eq_some_iff.mp ran
      refine List.forall_mem_cons.mpr ⟨?_, ih ran⟩
      cases token : lexeme.token with
      | ok read => exact ⟨read, rfl⟩
      | error error =>
          rw [step?, token] at stepped
          cases stepped

section Complete

/-- An open list or vector takes the data as its next elements. -/
theorem foldl_accept_enclosed (finished : List Reading) (outer : List Frame) (bracket : Bracket)
    (elements data : List Reading) :
    data.foldl accept ⟨.enclosed bracket elements :: outer, finished⟩ =
      ⟨.enclosed bracket (elements ++ data) :: outer, finished⟩ := by
  induction data generalizing elements with
  | nil => rw [List.append_nil]; rfl
  | cons datum rest ih =>
      rw [List.foldl_cons, List.append_cons]
      exact ih (elements ++ [datum])

/-- Outside of every node the data are finished. -/
theorem foldl_accept_nil (finished data : List Reading) :
    data.foldl accept ⟨[], finished⟩ = ⟨[], finished ++ data⟩ := by
  induction data generalizing finished with
  | nil => rw [List.append_nil]; rfl
  | cons datum rest ih =>
      rw [List.foldl_cons, List.append_cons]
      exact ih (finished ++ [datum])

mutual

/-- The machine reads what is derived as one datum and accepts the datum. -/
theorem run?_of_derives {lexemes : List Lexeme} {datum : Reading}
    (derives : Derives lexemes datum) (outline : Outline) :
    outline.run? lexemes = some (outline.accept datum) := by
  cases derives with
  | @atom lexeme token kind read atomic =>
      have stepped : outline.step? lexeme = some (outline.accept (.atom kind lexeme.text)) := by
        rw [step?_of_ok read]
        cases token <;> cases atomic <;> rfl
      exact run?_of_step? stepped []
  | @enclosed bracket opener closer inner elements opens derives closes =>
      have started : outline.step? opener = some (outline.start (.enclosed bracket [])) := by
        rw [step?_of_ok opens]
        cases bracket <;> rfl
      rw [run?_of_step? started, run?_append, run?_of_derivesAll derives, start,
        foldl_accept_enclosed]
      exact run?_of_step? (step?_of_ok closes _) []
  | @quotation mark inner datum quotes derives =>
      rw [run?_of_step? (step?_of_ok quotes outline)]
      exact run?_of_derives derives (outline.start .quote)

/-- The machine reads what is derived as data and accepts them one by one. -/
theorem run?_of_derivesAll {lexemes : List Lexeme} {data : List Reading}
    (derives : DerivesAll lexemes data) (outline : Outline) :
    outline.run? lexemes = some (data.foldl accept outline) := by
  cases derives with
  | nil => rfl
  | cons derives derivesRest =>
      rw [run?_append, run?_of_derives derives]
      exact run?_of_derivesAll derivesRest _

end

end Complete

section Sound

/-- The token that opened the node. -/
def opener : Frame → Token
  | .enclosed bracket _ => bracket.token
  | .quote => .quote

/-- What the node has read. -/
def elements : Frame → List Reading
  | .enclosed _ elements => elements
  | .quote => []

/-- The lexemes open the nodes, and those after an opener derive what its node has read. -/
inductive Opens : List Lexeme → List Frame → Prop
  | nil : Opens [] []
  | cons {before inner : List Lexeme} {mark : Lexeme} {frame : Frame} {outer : List Frame}
      (opens : Opens before outer) (marks : mark.token = .ok (opener frame))
      (derives : DerivesAll inner (elements frame)) :
      Opens (before ++ mark :: inner) (frame :: outer)

/-- The lexemes derive the finished data and open the nodes. -/
def Explains (lexemes : List Lexeme) (outline : Outline) : Prop :=
  ∃ first second, lexemes = first ++ second ∧ DerivesAll first outline.finished ∧
    Opens second outline.opened

/-- A derived datum is read into the innermost node, or finished. -/
theorem explains_put {lexemes more : List Lexeme} {datum : Reading} {finished : List Reading}
    {opened : List Frame} (explains : Explains lexemes ⟨opened, finished⟩)
    (derives : Derives more datum) : Explains (lexemes ++ more) (put finished opened datum) := by
  obtain ⟨first, second, rfl, data, opens⟩ := explains
  induction opened generalizing second more datum with
  | nil =>
      cases opens
      refine ⟨first ++ more, [], by simp, ?_, .nil⟩
      exact data.append (.singleton derives)
  | cons frame outer ih =>
      cases opens with
      | @cons before inner mark _ _ opens marks inside =>
          cases frame with
          | enclosed bracket elements =>
              refine ⟨first, before ++ mark :: (inner ++ more), by simp, data, ?_⟩
              exact .cons opens marks (inside.append (.singleton derives))
          | quote =>
              cases inside
              have same : first ++ (before ++ [mark]) ++ more = first ++ before ++ mark :: more := by
                simp
              rw [same]
              exact ih (.quotation marks derives) before data opens

/-- An opening lexeme opens its node. -/
theorem explains_start {lexemes : List Lexeme} {outline : Outline} {frame : Frame} {mark : Lexeme}
    (explains : Explains lexemes outline) (marks : mark.token = .ok (opener frame))
    (unread : elements frame = []) : Explains (lexemes ++ [mark]) (outline.start frame) := by
  obtain ⟨first, second, rfl, data, opens⟩ := explains
  refine ⟨first, second ++ [mark], List.append_assoc first second [mark], data, ?_⟩
  exact .cons opens marks (unread ▸ .nil)

/-- A closing parenthesis makes a datum of the node that it ends. -/
theorem explains_close? {lexemes : List Lexeme} {outline next : Outline} {closer : Lexeme}
    (explains : Explains lexemes outline) (closes : closer.token = .ok .rightParen)
    (closed : outline.close? = some next) : Explains (lexemes ++ [closer]) next := by
  obtain ⟨opened, finished⟩ := outline
  obtain ⟨first, second, rfl, data, opens⟩ := explains
  cases opens with
  | nil => cases closed
  | @cons before inner mark frame outer opens marks inside =>
      have below : Explains (first ++ before) ⟨outer, finished⟩ := ⟨first, before, rfl, data, opens⟩
      have same : first ++ (before ++ mark :: inner) ++ [closer] =
          first ++ before ++ (mark :: (inner ++ [closer])) := by simp
      rw [same]
      cases frame with
      | enclosed bracket elements =>
          cases closed
          exact explains_put below (.enclosed marks inside closes)
      | quote => cases closed

/-- A lexeme that is no trivia is explained with those before it. -/
theorem explains_step? {lexemes : List Lexeme} {outline next : Outline} {lexeme : Lexeme}
    (explains : Explains lexemes outline) (solid : lexeme.isTrivia = false)
    (stepped : outline.step? lexeme = some next) : Explains (lexemes ++ [lexeme]) next := by
  cases read : lexeme.token with
  | error error =>
      rw [step?, read] at stepped
      cases stepped
  | ok token =>
      rw [step?_of_ok read] at stepped
      cases token with
      | whitespace | lineEnding | comment => simp [Lexeme.isTrivia, read] at solid
      | leftParen | startVector | quote =>
          cases stepped
          exact explains_start explains read rfl
      | rightParen => exact explains_close? explains read stepped
      | identifier | boolean | character | string | number =>
          cases stepped
          exact explains_put explains (.atom read rfl)

/-- The lexemes that the machine reads are explained by the outline that it ends in. -/
theorem explains_run? {lexemes before : List Lexeme} {outline last : Outline}
    (explains : Explains before outline) (solid : ∀ lexeme ∈ lexemes, lexeme.isTrivia = false)
    (ran : outline.run? lexemes = some last) : Explains (before ++ lexemes) last := by
  induction lexemes generalizing before outline with
  | nil =>
      cases ran
      rwa [List.append_nil]
  | cons lexeme rest ih =>
      obtain ⟨next, stepped, ran⟩ := Option.bind_eq_some_iff.mp ran
      rw [List.forall_mem_cons] at solid
      rw [List.append_cons]
      exact ih (explains_step? explains solid.1 stepped) solid.2 ran

end Sound

/-- The machine reads a source to its end exactly as the grammar derives it. -/
theorem run?_eq_some_iff (lexemes : List Lexeme) (data : List Reading) :
    empty.run? lexemes = some ⟨[], data⟩ ↔
      (∀ lexeme ∈ lexemes, ∃ token, lexeme.token = .ok token) ∧
        DerivesAll (lexemes.filter (!·.isTrivia)) data := by
  constructor
  · intro ran
    refine ⟨exists_token_of_run? ran, ?_⟩
    rw [← run?_filter] at ran
    have solid : ∀ lexeme ∈ lexemes.filter (!·.isTrivia), lexeme.isTrivia = false := by
      simp [List.mem_filter]
    obtain ⟨first, second, same, derives, opens⟩ :=
      explains_run? ⟨[], [], rfl, .nil, .nil⟩ solid ran
    cases opens
    have whole : lexemes.filter (!·.isTrivia) = first := by simpa using same
    exact whole ▸ derives
  · rintro ⟨_, derives⟩
    rw [← run?_filter, run?_of_derivesAll derives, empty, foldl_accept_nil]
    rfl

end Outline

end SmallScheme
