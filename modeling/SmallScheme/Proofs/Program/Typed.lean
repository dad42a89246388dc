/-
This file shows that lowering understands every datum of a source without errors, so that no source is
rejected for a malformed datum.
-/

import SmallScheme.Proofs.Program.Plain
import SmallScheme.Proofs.Tree.Typed

namespace SmallScheme

namespace SExpr

/-- Lowering has met no datum that it cannot read. -/
def Understood {A : Type} (result : Except SyntaxError A) : Prop :=
  ∀ text, result ≠ .error (.malformedDatum text)

section Understood

variable {A B : Type}

theorem understood_ok (value : A) : Understood (.ok value) := by
  simp [Understood]

/-- Any other error says that the datum was read. -/
theorem understood_error {error : SyntaxError} (other : ∀ text, error ≠ .malformedDatum text) :
    Understood (.error error : Except SyntaxError A) := by
  simpa [Understood] using other

/-- What is accepted is understood. -/
theorem understood_of_accepted {result : Except SyntaxError A} (accepted : Accepted result) :
    Understood result := by
  obtain ⟨value, rfl⟩ := accepted
  exact understood_ok value

/-- A sequence is understood if both parts are. -/
theorem understood_bind {first : Except SyntaxError A} {next : A → Except SyntaxError B}
    (understood : Understood first) (rests : ∀ value, Understood (next value)) :
    Understood (first >>= next) := by
  cases first with
  | error error =>
      intro text same
      exact understood text (congrArg Except.error (Except.error.inj same))
  | ok value => exact rests value

/-- What is made of a result is understood if the result is. -/
theorem understood_return {first : Except SyntaxError A} (understood : Understood first)
    (make : A → B) : Understood (do return make (← first)) :=
  understood_bind understood fun value => understood_ok (make value)

/-- Lowering element by element understands a list if it understands every element. -/
theorem understood_all (lower : SExpr → Except SyntaxError A)
    (all : List SExpr → Except SyntaxError (List A)) (nil : all [] = .ok [])
    (cons : ∀ element rest, all (element :: rest) = do return (← lower element) :: (← all rest))
    {elements : List SExpr} (each : ∀ element ∈ elements, Understood (lower element)) :
    Understood (all elements) := by
  induction elements with
  | nil =>
      rw [nil]
      exact understood_ok []
  | cons element rest ih =>
      rw [List.forall_mem_cons] at each
      rw [cons]
      apply understood_bind each.1
      intro value
      exact understood_return (ih each.2) (value :: ·)

end Understood

variable {datum : SExpr} {source : Tree} {elements : List SExpr}

/-- Data are proper if each of them is. -/
theorem allProper_iff : AllProper elements ↔ ∀ element ∈ elements, element.Proper := by
  induction elements with
  | nil => simp [AllProper]
  | cons element rest ih => simp [AllProper, ih]

/-- The elements of a proper datum are proper. -/
theorem proper_of_mem (proper : datum.Proper) : ∀ element ∈ datum.elements, element.Proper := by
  cases datum with
  | list source elements => exact allProper_iff.mp proper
  | vector source elements => exact allProper_iff.mp proper
  | abbreviation source elements => exact allProper_iff.mp proper.2
  | atom text kind => simp [SExpr.elements]
  | unknown source => simp [SExpr.elements]

/-- A quoted list is understood if its elements are. -/
theorem understood_toQuoted_list (each : ∀ element ∈ elements, Understood element.toQuoted) :
    Understood (list source elements).toQuoted := by
  by_cases quotes : specialForm? elements = some .quote
  · match elements with
    | [] => cases quotes
    | [_] | _ :: _ :: _ :: _ =>
        simp only [toQuoted, quotes]
        exact understood_error (by simp)
    | [_, quoted] =>
        simp only [toQuoted, quotes]
        exact understood_return (each quoted (by simp)) Quoted.quotation
  · rw [Datum.toQuoted_list quotes]
    exact understood_return (understood_all toQuoted allToQuoted rfl (fun _ _ => rfl) each) Quoted.list

/-- Quoting understands every proper datum. -/
theorem understood_toQuoted (proper : datum.Proper) : Understood datum.toQuoted := by
  induction datum using of_elements with | step datum all =>
  have each : ∀ element ∈ datum.elements, Understood element.toQuoted := fun element member =>
    all element member (proper_of_mem proper element member)
  cases datum with
  | unknown source => exact proper.elim
  | atom text kind => exact understood_of_accepted (toQuoted_atom proper)
  | list source elements => exact understood_toQuoted_list each
  | vector source elements =>
      exact understood_return (understood_all toQuoted allToQuoted rfl (fun _ _ => rfl) each)
        Quoted.vector
  | abbreviation source elements =>
      obtain ⟨quoted, rfl⟩ := List.length_eq_one_iff.mp proper.1
      exact understood_return (each quoted (by simp [SExpr.elements])) Quoted.quotation

theorem understood_toQuotation (proper : datum.Proper) : Understood datum.toQuotation := by
  apply understood_bind (understood_toQuoted proper)
  intro quoted
  cases quoted <;> exact understood_ok _

theorem understood_toQuoteForm (proper : datum.Proper) : Understood datum.toQuoteForm := by
  apply understood_bind (understood_toQuoted proper)
  intro quoted
  cases quoted with
  | quotation inner => exact understood_ok _
  | _ => exact understood_error (by simp)

/-- Every proper datum is understood as an expression. -/
theorem understood_toExpression (proper : datum.Proper) : Understood datum.toExpression := by
  induction datum using of_elements with | step datum all =>
  have each : ∀ element ∈ datum.elements, Understood element.toExpression := fun element member =>
    all element member (proper_of_mem proper element member)
  cases datum with
  | unknown source => exact proper.elim
  | atom text kind => exact understood_of_accepted (toExpression_atom proper)
  | vector source elements => exact understood_toQuotation proper
  | abbreviation source elements => exact understood_toQuotation proper
  | list source elements =>
      unfold toExpression
      split
      · exact understood_toQuoteForm proper
      · exact understood_error (by simp)
      · exact understood_error (by simp)
      · split
        · exact understood_error (by simp)
        · split
          · exact understood_error (by simp)
          · refine understood_return (understood_all toExpression allToExpressions rfl
              (fun _ _ => rfl) ?_) (Expression.application _)
            exact (List.forall_mem_cons.mp each).2

/-- A body of proper data is understood if the definitions in it are. -/
theorem understood_toBody (started : Bool) (proper : ∀ part ∈ elements, part.Proper)
    (each : ∀ part ∈ elements, Understood part.toDefinition) : Understood (toBody started elements) := by
  induction elements generalizing started with
  | nil => exact understood_ok _
  | cons part rest ih =>
      rw [List.forall_mem_cons] at proper each
      have later (started : Bool) := ih started proper.2 each.2
      rw [toBody]
      split
      · split
        · exact understood_error (by simp)
        · apply understood_bind each.1
          intro definition
          exact understood_return (later false) fun body => (definition :: body.1, body.2)
      · apply understood_bind (understood_toExpression proper.1)
        intro expression
        exact understood_return (later true) fun body => (body.1, expression :: body.2)

/-- A procedure is made or has no body, and both are understood. -/
theorem understood_procedureOf (name : String) (params : List String) (definitions : List Definition)
    (expressions : List Expression) :
    Understood (procedureOf name params definitions expressions) := by
  unfold procedureOf
  split
  · exact understood_error (by simp)
  · exact understood_ok _

/-- Every proper datum is understood as a definition. -/
theorem understood_toDefinition (proper : datum.Proper) : Understood datum.toDefinition := by
  induction datum using of_elements with | step datum all =>
  unfold toDefinition
  split
  · rename_i source head target parts
    have properParts : ∀ part ∈ parts, part.Proper := fun part member =>
      proper_of_mem proper part (List.mem_cons_of_mem _ (List.mem_cons_of_mem _ member))
    have each : ∀ part ∈ parts, Understood part.toDefinition := fun part member =>
      all part (List.mem_cons_of_mem _ (List.mem_cons_of_mem _ member)) (properParts part member)
    split
    · split
      · exact understood_return (understood_toExpression (properParts _ (by simp))) (Definition.value _)
      · exact understood_error (by simp)
    · split
      · split
        · exact understood_error (by simp)
        · apply understood_bind (understood_toBody false properParts each)
          intro body
          exact understood_procedureOf _ _ _ _
      · exact understood_error (by simp)
  · exact understood_error (by simp)

/-- Every proper datum is understood as a form. -/
theorem understood_toForm (proper : datum.Proper) : Understood datum.toForm := by
  induction datum using of_elements with | step datum all =>
  have each : ∀ element ∈ datum.elements, Understood element.toForm := fun element member =>
    all element member (proper_of_mem proper element member)
  cases datum with
  | list source elements =>
      unfold toForm
      split
      · exact understood_return (understood_toDefinition proper) Form.definition
      · cases elements with
        | nil => exact understood_ok _
        | cons head forms =>
            refine understood_return (understood_all toForm allToForms rfl (fun _ _ => rfl) ?_) Form.begin
            exact (List.forall_mem_cons.mp each).2
      · exact understood_return (understood_toExpression proper) Form.expression
  | _ => exact understood_return (understood_toExpression proper) Form.expression

end SExpr

namespace Program

/-- No source is rejected for a malformed datum. -/
theorem understood_ofSource (source : String) : SExpr.Understood (ofSource source) := by
  by_cases unreported : (Parse.ofSource source).errors = []
  · have proper := SExpr.allProper_iff.mp (Parse.allProper_of_errors unreported)
    rw [ofSource_of_errors unreported]
    refine SExpr.understood_return ?_ mk
    apply SExpr.understood_all SExpr.toForm SExpr.allToForms rfl (fun _ _ => rfl)
    intro datum member
    exact SExpr.understood_toForm (proper datum member)
  · rw [ofSource_of_reported unreported]
    exact SExpr.understood_error (by simp)

/-- A token is the only lexeme of its own text. Every datum of a tree has one child, and the typed layer
shows it: an atom gives what its token holds in the source. So no source has a malformed datum. -/
theorem typed_layer_keeps_tokens (source : String) :
    (∀ lexeme ∈ lexemes source, ∀ token, lexeme.token = .ok token →
        lexemes lexeme.text = [⟨.ok token, lexeme.text, ⟨0, lexeme.text.utf8ByteSize⟩⟩]) ∧
      (∀ offset children, (Parse.ofSource source).tree.At offset (.node .datum children) →
        ∃ child, children = [child] ∧ (Tree.node .datum children).datum? = some child.sexpr ∧
          child.Shown source offset) ∧
      ∀ text, ofSource source ≠ .error (.malformedDatum text) := by
  refine ⟨?_, ?_, understood_ofSource source⟩
  · intro lexeme member token read
    exact Lexeme.lexemes_text member read
  · intro offset children stands
    obtain ⟨child, rfl, shown⟩ := Parse.shown_of_at stands
    exact ⟨child, rfl, rfl, shown⟩

/-- The quote has no datum, which is an error of the source. -/
def danglingSource : String :=
  "(#T ')"

/-- What stands in the list after its parenthesis: the boolean, and a quote without a datum. -/
def danglingElements : List Tree :=
  [.node .datum [.leaf (.token .boolean) "#T"], .leaf (.token .whitespace) " ",
    .node .datum [.node .abbreviation [.leaf (.token .quote) "'"]], .leaf (.token .rightParen) ")"]

/-- The boolean keeps its token, its place and its text although the source has an error. -/
theorem danglingSource_keeps_boolean :
    ⟨.ok (.boolean true), "#T", ⟨1, 3⟩⟩ ∈ lexemes danglingSource ∧
      lexemes "#T" = [⟨.ok (.boolean true), "#T", ⟨0, 2⟩⟩] ∧
      (Parse.ofSource danglingSource).tree.At 1 (.node .datum [.leaf (.token .boolean) "#T"]) ∧
      (Tree.leaf (.token .boolean) "#T").Shown danglingSource 1 := by
  have lexed : lexemes danglingSource = [⟨.ok .leftParen, "(", ⟨0, 1⟩⟩,
      ⟨.ok (.boolean true), "#T", ⟨1, 3⟩⟩, ⟨.ok .whitespace, " ", ⟨3, 4⟩⟩, ⟨.ok .quote, "'", ⟨4, 5⟩⟩,
      ⟨.ok .rightParen, ")", ⟨5, 6⟩⟩] := by decide +kernel
  have tree : (Parse.ofSource danglingSource).tree = .node .root [.node .datum
      [.node .list (.leaf (.token .leftParen) "(" :: danglingElements)]] := by
    rw [Parse.ofSource, lexed]
    rfl
  have member : ⟨.ok (.boolean true), "#T", ⟨1, 3⟩⟩ ∈ lexemes danglingSource := by simp [lexed]
  have stands : (Parse.ofSource danglingSource).tree.At 1
      (.node .datum [.leaf (.token .boolean) "#T"]) := by
    have top := @Tree.At.root (Parse.ofSource danglingSource).tree
    rw [tree] at top ⊢
    -- From the root to the datum, to the list in it, and past the parenthesis.
    have datum := @Tree.At.child _ 0 .root [] [] _ top
    have list := @Tree.At.child _ 0 .datum [] [] _ datum
    exact @Tree.At.child _ 0 .list [.leaf (.token .leftParen) "("] (danglingElements.drop 1) _ list
  obtain ⟨again, shown, _⟩ := typed_layer_keeps_tokens danglingSource
  obtain ⟨child, same, _, shows⟩ := shown 1 _ stands
  obtain rfl := List.singleton_inj.mp same
  exact ⟨member, again _ member _ rfl, stands, shows⟩

end Program

end SmallScheme
