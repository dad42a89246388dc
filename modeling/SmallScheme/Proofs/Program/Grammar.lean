/-
This file gives the grammar of programs over proper data, and shows that lowering accepts exactly its
quotations and expressions.
-/

import SmallScheme.Proofs.Program.ReadBack
import SmallScheme.Proofs.Tree.Proper

namespace SmallScheme

namespace SExpr

mutual

/-- Every list inside the datum that is headed by `quote` has exactly two elements. -/
def Quotable : SExpr → Prop
  | .list _ elements =>
      (elements.head? = some (.atom "quote" .symbol) → elements.length = 2) ∧ AllQuotable elements
  | .vector _ elements => AllQuotable elements
  | .abbreviation _ elements => AllQuotable elements
  | .atom _ _ => True
  | .unknown _ => True

def AllQuotable : List SExpr → Prop
  | [] => True
  | datum :: rest => datum.Quotable ∧ AllQuotable rest

end

/-- Literals, identifiers, quotations and applications. -/
inductive IsExpression : SExpr → Prop
  | literal {text : String} {kind : AtomKind} (constant : kind ≠ .symbol) :
      IsExpression (.atom text kind)
  | identifier {name : String} : IsExpression (.atom name .symbol)
  | vector {source : Tree} {elements : List SExpr} (quotable : (vector source elements).Quotable) :
      IsExpression (.vector source elements)
  | abbreviation {source : Tree} {datum : SExpr} (quotable : datum.Quotable) :
      IsExpression (.abbreviation source [datum])
  | quotation {source : Tree} {datum : SExpr} (quotable : datum.Quotable) :
      IsExpression (.list source [.atom "quote" .symbol, datum])
  | application {source : Tree} {procedure : String} {operands : List SExpr}
      (ordinary : procedure ∉ ["quote", "define", "begin"])
      (expressions : ∀ operand ∈ operands, IsExpression operand) :
      IsExpression (.list source (.atom procedure .symbol :: operands))

mutual

/-- A definition gives a name to a value, or to the body of a procedure with its parameters. -/
inductive IsDefinition : SExpr → Prop
  | value {source : Tree} {name : String} {value : SExpr} (expression : IsExpression value) :
      IsDefinition (.list source [.atom "define" .symbol, .atom name .symbol, value])
  | procedure {source target : Tree} {name : String} {params : List String} {parts : List SExpr}
      (body : IsBody parts) :
      IsDefinition (.list source (.atom "define" .symbol ::
        .list target ((name :: params).map fun param => .atom param .symbol) :: parts))

/-- Definitions come first in a body, and then at least one expression. -/
inductive IsBody : List SExpr → Prop
  | result {parts : List SExpr} (present : parts ≠ [])
      (expressions : ∀ part ∈ parts, IsExpression part) : IsBody parts
  | definition {part : SExpr} {rest : List SExpr} (definition : IsDefinition part)
      (body : IsBody rest) : IsBody (part :: rest)

end

/-- Definitions, expressions and groups of forms. -/
inductive IsForm : SExpr → Prop
  | definition {datum : SExpr} (definition : IsDefinition datum) : IsForm datum
  | begin {source : Tree} {forms : List SExpr} (inner : ∀ form ∈ forms, IsForm form) :
      IsForm (.list source (.atom "begin" .symbol :: forms))
  | expression {datum : SExpr} (expression : IsExpression datum) : IsForm datum

/-- Lowering ends without an error. -/
def Accepted {A : Type} (result : Except SyntaxError A) : Prop :=
  ∃ value, result = .ok value

section Accepted

variable {A B C : Type} {first : Except SyntaxError A} {second : Except SyntaxError B}

theorem accepted_ok (value : A) : Accepted (.ok value) :=
  ⟨value, rfl⟩

theorem not_accepted_error (error : SyntaxError) :
    ¬Accepted (.error error : Except SyntaxError A) := by
  rintro ⟨value, same⟩
  cases same

/-- A sequence is accepted if its first part is, and its second part from that value. -/
theorem accepted_bind {next : A → Except SyntaxError B} :
    Accepted (first >>= next) ↔ ∃ value, first = .ok value ∧ Accepted (next value) := by
  cases first with
  | error error =>
      refine iff_of_false (not_accepted_error error) ?_
      rintro ⟨_, same, _⟩
      cases same
  | ok value =>
      constructor
      · exact fun accepted => ⟨value, rfl, accepted⟩
      · rintro ⟨_, same, accepted⟩
        cases same
        exact accepted

/-- What is made of a result is accepted if the result is. -/
theorem accepted_return (make : A → B) :
    Accepted (do return make (← first)) ↔ Accepted first := by
  rw [accepted_bind]
  constructor
  · rintro ⟨value, made, _⟩
    exact ⟨value, made⟩
  · rintro ⟨value, made⟩
    exact ⟨value, made, accepted_ok _⟩

/-- What is made of two results is accepted if both of them are. -/
theorem accepted_return_two (make : A → B → C) :
    Accepted (do return make (← first) (← second)) ↔ Accepted first ∧ Accepted second := by
  rw [accepted_bind]
  constructor
  · rintro ⟨value, made, accepted⟩
    exact ⟨⟨value, made⟩, (accepted_return _).mp accepted⟩
  · rintro ⟨⟨value, made⟩, accepted⟩
    exact ⟨value, made, (accepted_return _).mpr accepted⟩

end Accepted

/-- An atom that is read as a token and is no symbol is a literal. -/
theorem literal_of_reads {text : String} {kind : AtomKind} (reads : kind.Reads text)
    (constant : kind ≠ .symbol) : ∃ literal, Literal.ofAtom? text kind = some literal := by
  obtain ⟨token, read, same, _⟩ := reads
  unfold Literal.ofAtom?
  rw [read]
  cases token with
  | identifier name =>
      cases same
      contradiction
  | boolean | character | string | number =>
      cases same
      exact ⟨_, rfl⟩
  | _ => cases same

/-- Every proper atom can be quoted. -/
theorem toQuoted_atom {text : String} {kind : AtomKind} (proper : (atom text kind).Proper) :
    Accepted (atom text kind).toQuoted := by
  cases kind with
  | symbol =>
      rw [toQuoted, (identifier?_eq_some_iff proper).mpr rfl]
      exact accepted_ok _
  | _ =>
      obtain ⟨literal, read⟩ := literal_of_reads proper (by simp)
      simp only [toQuoted, read]
      exact accepted_ok _

/-- A symbol before a datum does not decide whether both can be quoted. -/
theorem accepted_pair_toQuoted {name : String} {quoted : SExpr}
    (proper : (atom name .symbol).Proper) :
    Accepted (allToQuoted [.atom name .symbol, quoted]) ↔ Accepted quoted.toQuoted := by
  rw [allToQuoted, accepted_return_two, allToQuoted, accepted_return_two]
  exact ⟨fun all => all.2.1, fun accepted => ⟨toQuoted_atom proper, accepted, accepted_ok []⟩⟩

/-- A list is quoted element by element, but one that is headed by `quote` needs two elements. -/
theorem accepted_toQuoted_list {source : Tree} {elements : List SExpr}
    (proper : AllProper elements) :
    Accepted (list source elements).toQuoted ↔
      (elements.head? = some (.atom "quote" .symbol) → elements.length = 2) ∧
        Accepted (allToQuoted elements) := by
  by_cases head : elements.head? = some (.atom "quote" .symbol)
  · have special : specialForm? elements = some .quote := (specialForm?_eq_some_iff proper).mpr head
    match elements with
    | [] => cases head
    | [_] | _ :: _ :: _ :: _ =>
        simp only [toQuoted, special]
        exact iff_of_false (not_accepted_error _) fun accepted => by simpa using accepted.1 head
    | [first, quoted] =>
        obtain rfl : first = .atom "quote" .symbol := by simpa using head
        simp only [toQuoted, special]
        rw [accepted_return, accepted_pair_toQuoted proper.1]
        exact ⟨fun accepted => ⟨fun _ => rfl, accepted⟩, fun accepted => accepted.2⟩
  · have plain : specialForm? elements ≠ some .quote :=
      fun special => head ((specialForm?_eq_some_iff proper).mp special)
    rw [Datum.toQuoted_list plain, accepted_return]
    exact ⟨fun accepted => ⟨fun headed => absurd headed head, accepted⟩, fun accepted => accepted.2⟩

/-- An abbreviation can be quoted if what it quotes can be. -/
theorem accepted_toQuoted_abbreviation {source : Tree} {elements : List SExpr}
    (counted : elements.length = 1) :
    Accepted (abbreviation source elements).toQuoted ↔ Accepted (allToQuoted elements) := by
  obtain ⟨quoted, rfl⟩ := List.length_eq_one_iff.mp counted
  rw [toQuoted, accepted_return, allToQuoted, accepted_return_two]
  exact ⟨fun accepted => ⟨accepted, accepted_ok []⟩, fun accepted => accepted.1⟩

mutual

/-- Exactly the quotable data can be quoted. -/
theorem accepted_toQuoted {datum : SExpr} (proper : datum.Proper) :
    Accepted datum.toQuoted ↔ datum.Quotable := by
  cases datum with
  | unknown source => exact proper.elim
  | atom text kind => exact ⟨fun _ => trivial, fun _ => toQuoted_atom proper⟩
  | vector source elements =>
      rw [toQuoted, accepted_return, accepted_allToQuoted proper]
      rfl
  | abbreviation source elements =>
      rw [accepted_toQuoted_abbreviation proper.1, accepted_allToQuoted proper.2]
      rfl
  | list source elements =>
      rw [accepted_toQuoted_list proper, accepted_allToQuoted proper]
      rfl

/-- Exactly the lists of quotable data can be quoted. -/
theorem accepted_allToQuoted {elements : List SExpr} (proper : AllProper elements) :
    Accepted (allToQuoted elements) ↔ AllQuotable elements := by
  cases elements with
  | nil => exact ⟨fun _ => trivial, fun _ => accepted_ok []⟩
  | cons element rest =>
      rw [allToQuoted, accepted_return_two, accepted_toQuoted proper.1,
        accepted_allToQuoted proper.2, AllQuotable]

end

/-- Quoting a datum keeps what it holds. -/
theorem accepted_toQuotation (datum : SExpr) :
    Accepted datum.toQuotation ↔ Accepted datum.toQuoted := by
  rw [toQuotation, accepted_bind]
  constructor
  · rintro ⟨quoted, made, _⟩
    exact ⟨quoted, made⟩
  · rintro ⟨quoted, made⟩
    refine ⟨quoted, made, ?_⟩
    cases quoted <;> exact accepted_ok _

/-- The form `quote` takes one datum. -/
theorem accepted_toQuoteForm {source : Tree} {operands : List SExpr}
    (proper : AllProper (.atom "quote" .symbol :: operands)) :
    Accepted (list source (.atom "quote" .symbol :: operands)).toQuoteForm ↔
      ∃ datum, operands = [datum] ∧ datum.Quotable := by
  have special : specialForm? (.atom "quote" .symbol :: operands) = some .quote :=
    (specialForm?_eq_some_iff proper).mpr rfl
  rw [toQuoteForm, accepted_bind]
  match operands with
  | [] | _ :: _ :: _ => simp [toQuoted, special]
  | [quoted] =>
      simp only [toQuoted, special]
      constructor
      · rintro ⟨value, made, _⟩
        exact ⟨quoted, rfl, (accepted_toQuoted proper.2.1).mp ((accepted_return _).mp ⟨value, made⟩)⟩
      · rintro ⟨datum, same, quotable⟩
        obtain rfl : quoted = datum := by simpa using same
        obtain ⟨inner, made⟩ := (accepted_toQuoted proper.2.1).mpr quotable
        exact ⟨.quotation inner, by rw [made]; rfl, accepted_ok _⟩

/-- Every proper atom is accepted as an expression. -/
theorem toExpression_atom {text : String} {kind : AtomKind} (proper : (atom text kind).Proper) :
    Accepted (atom text kind).toExpression := by
  cases kind with
  | symbol =>
      rw [toExpression, (identifier?_eq_some_iff proper).mpr rfl]
      exact accepted_ok _
  | _ =>
      obtain ⟨literal, read⟩ := literal_of_reads proper (by simp)
      simp only [toExpression, read]
      exact accepted_ok _

/-- Every atom is an expression of the grammar. -/
theorem isExpression_atom (text : String) (kind : AtomKind) : (atom text kind).IsExpression := by
  by_cases symbol : kind = .symbol
  · rw [symbol]
    exact .identifier
  · exact .literal symbol

/-- A list headed by a definition or by `begin` is no expression. -/
theorem not_isExpression_of_head {source : Tree} {name : String} {rest : List SExpr}
    (special : name = "define" ∨ name = "begin") :
    ¬(list source (.atom name .symbol :: rest)).IsExpression := by
  intro expression
  cases expression with
  | quotation quotable => simp at special
  | application ordinary expressions => rcases special with rfl | rfl <;> simp at ordinary

section Lists

variable {source : Tree} {elements : List SExpr}

/-- What lowering makes of a list that invokes no other form. -/
theorem toExpression_application {head : SExpr} {operands : List SExpr}
    (unquoted : specialForm? (head :: operands) ≠ some .quote)
    (undefined : specialForm? (head :: operands) ≠ some .define)
    (ungrouped : specialForm? (head :: operands) ≠ some .begin) :
    (list source (head :: operands)).toExpression =
      match head.identifier? with
      | none => .error (.invalidProcedure head.text)
      | some procedure => do return .application procedure (← allToExpressions operands) := by
  unfold toExpression
  split
  · contradiction
  · contradiction
  · contradiction
  · rfl

/-- A list headed by a name that is no special form is an application. -/
theorem toExpression_of_ordinary {procedure : String} {operands : List SExpr}
    (proper : AllProper (.atom procedure .symbol :: operands))
    (ordinary : procedure ∉ ["quote", "define", "begin"]) :
    (list source (.atom procedure .symbol :: operands)).toExpression =
      (do return .application procedure (← allToExpressions operands)) := by
  have named : (atom procedure .symbol).identifier? = some procedure :=
    (identifier?_eq_some_iff proper.1).mpr rfl
  have special : specialForm? (.atom procedure .symbol :: operands) =
      SpecialForm.ofName? procedure := by
    rw [specialForm?, headIdentifier?, named]
    rfl
  simp only [List.mem_cons, List.not_mem_nil, or_false, not_or] at ordinary
  rw [toExpression_application, named]
  · rw [special]
    exact fun found => ordinary.1 (SpecialForm.ofName?_eq_some_iff.mp found)
  · rw [special]
    exact fun found => ordinary.2.1 (SpecialForm.ofName?_eq_some_iff.mp found)
  · rw [special]
    exact fun found => ordinary.2.2 (SpecialForm.ofName?_eq_some_iff.mp found)

/-- The head of an application is an expression as well. -/
theorem accepted_application {procedure : String} {operands : List SExpr}
    (proper : AllProper (.atom procedure .symbol :: operands))
    (ordinary : procedure ∉ ["quote", "define", "begin"])
    (all : Accepted (allToExpressions (.atom procedure .symbol :: operands)) ↔
      ∀ element ∈ atom procedure .symbol :: operands, element.IsExpression) :
    Accepted (list source (.atom procedure .symbol :: operands)).toExpression ↔
      (list source (.atom procedure .symbol :: operands)).IsExpression := by
  have operandsIff : Accepted (allToExpressions operands) ↔
      ∀ operand ∈ operands, operand.IsExpression := by
    rw [allToExpressions, accepted_return_two, List.forall_mem_cons] at all
    have first := toExpression_atom proper.1
    have head := isExpression_atom procedure .symbol
    exact ⟨fun accepted => (all.mp ⟨first, accepted⟩).2, fun valid => (all.mpr ⟨head, valid⟩).2⟩
  rw [toExpression_of_ordinary proper ordinary, accepted_return, operandsIff]
  constructor
  · exact .application ordinary
  · intro expression
    cases expression with
    | quotation quotable => simp at ordinary
    | application _ valid => exact valid

/-- A list that starts with `quote` is accepted exactly if it quotes one quotable datum. -/
theorem accepted_quote {operands : List SExpr}
    (proper : AllProper (.atom "quote" .symbol :: operands)) :
    Accepted (list source (.atom "quote" .symbol :: operands)).toExpression ↔
      (list source (.atom "quote" .symbol :: operands)).IsExpression := by
  have special : specialForm? (.atom "quote" .symbol :: operands) = some .quote :=
    (specialForm?_eq_some_iff proper).mpr rfl
  simp only [toExpression, special]
  rw [accepted_toQuoteForm proper]
  constructor
  · rintro ⟨datum, rfl, quotable⟩
    exact .quotation quotable
  · intro expression
    cases expression with
    | quotation quotable => exact ⟨_, rfl, quotable⟩
    | application ordinary expressions => simp at ordinary

/-- A definition or a group is not accepted as an expression. -/
theorem not_accepted_of_head {name : String} {rest : List SExpr}
    (proper : AllProper (.atom name .symbol :: rest)) (special : name = "define" ∨ name = "begin") :
    ¬Accepted (list source (.atom name .symbol :: rest)).toExpression := by
  rcases special with rfl | rfl
  · have special : specialForm? (.atom "define" .symbol :: rest) = some .define :=
      (specialForm?_eq_some_iff proper).mpr rfl
    simp only [toExpression, special]
    exact not_accepted_error _
  · have special : specialForm? (.atom "begin" .symbol :: rest) = some .begin :=
      (specialForm?_eq_some_iff proper).mpr rfl
    simp only [toExpression, special]
    exact not_accepted_error _

/-- A list is called by the identifier at its head. -/
theorem not_accepted_of_unnamed {head : SExpr} {operands : List SExpr}
    (unnamed : head.identifier? = none) :
    ¬Accepted (list source (head :: operands)).toExpression := by
  have special : specialForm? (head :: operands) = none := by
    rw [specialForm?, headIdentifier?, unnamed]
    rfl
  simp only [toExpression, special, unnamed]
  exact not_accepted_error _

/-- A list is accepted exactly as an expression of the grammar, if its elements are. -/
theorem accepted_toExpression_list (proper : AllProper elements)
    (all : Accepted (allToExpressions elements) ↔ ∀ element ∈ elements, element.IsExpression) :
    Accepted (list source elements).toExpression ↔ (list source elements).IsExpression := by
  cases elements with
  | nil =>
      refine iff_of_false (not_accepted_error _) fun expression => ?_
      cases expression
  | cons head operands =>
      cases named : head.identifier? with
      | none =>
          refine iff_of_false (not_accepted_of_unnamed named) fun expression => ?_
          have unnamed (name : String) : head ≠ .atom name .symbol := by
            intro same
            rw [(identifier?_eq_some_iff proper.1).mpr same] at named
            cases named
          cases expression <;> exact absurd rfl (unnamed _)
      | some procedure =>
          obtain rfl := (identifier?_eq_some_iff proper.1).mp named
          by_cases ordinary : procedure ∈ ["quote", "define", "begin"]
          · rcases List.mem_cons.mp ordinary with rfl | special
            · exact accepted_quote proper
            · have special : procedure = "define" ∨ procedure = "begin" := by simpa using special
              exact iff_of_false (not_accepted_of_head proper special)
                (not_isExpression_of_head special)
          · exact accepted_application proper ordinary all

end Lists

mutual

/-- Lowering accepts exactly the expressions of the grammar. -/
theorem accepted_toExpression {datum : SExpr} (proper : datum.Proper) :
    Accepted datum.toExpression ↔ datum.IsExpression := by
  cases datum with
  | unknown source => exact proper.elim
  | atom text kind => exact ⟨fun _ => isExpression_atom text kind, fun _ => toExpression_atom proper⟩
  | vector source elements =>
      rw [toExpression, accepted_toQuotation, accepted_toQuoted proper]
      refine ⟨.vector, fun expression => ?_⟩
      cases expression with
      | vector quotable => exact quotable
  | abbreviation source elements =>
      obtain ⟨datum, rfl⟩ := List.length_eq_one_iff.mp proper.1
      rw [toExpression, accepted_toQuotation, accepted_toQuoted proper]
      refine ⟨fun quotable => .abbreviation quotable.1, fun expression => ?_⟩
      cases expression with
      | abbreviation quotable => exact ⟨quotable, trivial⟩
  | list source elements => exact accepted_toExpression_list proper (accepted_allToExpressions proper)

/-- Lowering accepts some data exactly if all of them are expressions. -/
theorem accepted_allToExpressions {elements : List SExpr} (proper : AllProper elements) :
    Accepted (allToExpressions elements) ↔ ∀ element ∈ elements, element.IsExpression := by
  cases elements with
  | nil => exact ⟨fun _ _ member => absurd member List.not_mem_nil, fun _ => accepted_ok []⟩
  | cons element rest =>
      rw [allToExpressions, accepted_return_two, accepted_toExpression proper.1,
        accepted_allToExpressions proper.2, List.forall_mem_cons]

end

end SExpr

end SmallScheme
