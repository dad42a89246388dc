/-
This file shows that no special form is left in a lowered program, and which sources give a program.
-/

import SmallScheme.Proofs.Program.Forms

namespace SmallScheme

mutual

/-- No list inside begins with the symbol `quote`. -/
def Quoted.Plain : Quoted → Prop
  | .constant _ => True
  | .symbol _ => True
  | .list elements => (∀ rest, elements ≠ .symbol "quote" :: rest) ∧ Quoted.AllPlain elements
  | .vector elements => Quoted.AllPlain elements
  | .quotation quoted => quoted.Plain

def Quoted.AllPlain : List Quoted → Prop
  | [] => True
  | quoted :: rest => quoted.Plain ∧ Quoted.AllPlain rest

end

mutual

/-- No application inside is headed by `quote`, `define` or `begin`, and what is quoted is plain. -/
def Expression.Plain : Expression → Prop
  | .constant _ => True
  | .identifier _ => True
  | .application procedure operands =>
      procedure ∉ ["quote", "define", "begin"] ∧ Expression.AllPlain operands
  | .quotation quoted => quoted.Plain

def Expression.AllPlain : List Expression → Prop
  | [] => True
  | expression :: rest => expression.Plain ∧ Expression.AllPlain rest

end

mutual

/-- What the definition gives to its name is plain. -/
def Definition.Plain : Definition → Prop
  | .value _ expression => expression.Plain
  | .procedure procedure => procedure.Plain

/-- The internal definitions, the effects and the result are plain. -/
def Procedure.Plain : Procedure → Prop
  | ⟨_, _, definitions, effects, body⟩ =>
      Definition.AllPlain definitions ∧ Expression.AllPlain effects ∧ body.Plain

def Definition.AllPlain : List Definition → Prop
  | [] => True
  | definition :: rest => definition.Plain ∧ Definition.AllPlain rest

end

mutual

/-- Everything that the form evaluates or defines is plain. -/
def Form.Plain : Form → Prop
  | .expression made => made.Plain
  | .definition made => made.Plain
  | .begin forms => Form.AllPlain forms

def Form.AllPlain : List Form → Prop
  | [] => True
  | form :: rest => form.Plain ∧ Form.AllPlain rest

end

/-- No special form is left in the program. -/
def Program.Plain (program : Program) : Prop :=
  Form.AllPlain program.forms

/-- Expressions are plain if each of them is. -/
theorem Expression.allPlain_iff {expressions : List Expression} :
    AllPlain expressions ↔ ∀ expression ∈ expressions, expression.Plain := by
  induction expressions with
  | nil => exact ⟨fun _ _ member => absurd member List.not_mem_nil, fun _ => trivial⟩
  | cons expression rest ih => rw [AllPlain, ih, List.forall_mem_cons]

namespace SExpr

/-- The data directly inside a datum. -/
def elements : SExpr → List SExpr
  | .list _ elements => elements
  | .vector _ elements => elements
  | .abbreviation _ elements => elements
  | .atom _ _ => []
  | .unknown _ => []

mutual

/-- What passes from the elements to the datum holds of every datum. -/
theorem of_elements {motive : SExpr → Prop}
    (step : ∀ datum, (∀ element ∈ datum.elements, motive element) → motive datum)
    (datum : SExpr) : motive datum := by
  apply step
  cases datum with
  | list source elements => exact all_of_elements step elements
  | vector source elements => exact all_of_elements step elements
  | abbreviation source elements => exact all_of_elements step elements
  | atom text kind => exact fun _ member => absurd member List.not_mem_nil
  | unknown source => exact fun _ member => absurd member List.not_mem_nil

/-- What passes from the elements to the datum holds of all data. -/
theorem all_of_elements {motive : SExpr → Prop}
    (step : ∀ datum, (∀ element ∈ datum.elements, motive element) → motive datum)
    (elements : List SExpr) : ∀ element ∈ elements, motive element := by
  cases elements with
  | nil => exact fun _ member => absurd member List.not_mem_nil
  | cons element rest =>
      exact List.forall_mem_cons.mpr ⟨of_elements step element, all_of_elements step rest⟩

end

/-- Whatever lowering makes has the property. -/
def Makes {A : Type} (property : A → Prop) (result : Except SyntaxError A) : Prop :=
  ∀ value, result = .ok value → property value

section Makes

variable {A B : Type} {before : A → Prop} {after : B → Prop}

/-- An error makes nothing. -/
theorem makes_error (error : SyntaxError) : Makes before (.error error) := by
  intro value made
  cases made

/-- A value with the property is made with it. -/
theorem makes_ok {value : A} (holds : before value) : Makes before (.ok value) := by
  intro other made
  cases made
  exact holds

/-- A sequence makes what its second part makes of what the first one made. -/
theorem makes_bind {first : Except SyntaxError A} {next : A → Except SyntaxError B}
    (makes : Makes before first)
    (rests : ∀ value, first = .ok value → before value → Makes after (next value)) :
    Makes after (first >>= next) := by
  cases first with
  | error error => exact makes_error error
  | ok value => exact rests value rfl (makes value rfl)

/-- What is made of a result keeps what the maker keeps. -/
theorem makes_return {first : Except SyntaxError A} {make : A → B} (makes : Makes before first)
    (holds : ∀ value, before value → after (make value)) :
    Makes after (do return make (← first)) :=
  makes_bind makes fun value _ known => makes_ok (holds value known)

theorem makes_any (result : Except SyntaxError A) : Makes (fun _ => True) result :=
  fun _ _ => trivial

end Makes

/-- What is required is what was found. -/
theorem makes_required {A : Type} (text : String) (found : Option A) :
    Makes (fun value => found = some value) (required text found) := by
  cases found with
  | none => exact makes_error _
  | some value => exact makes_ok rfl

/-- Only an identifier is quoted as a symbol. -/
def SymbolOf (datum : SExpr) (quoted : Quoted) : Prop :=
  ∀ name, quoted = .symbol name → datum.identifier? = some name

/-- A datum is quoted as a symbol only if it is an identifier. -/
theorem makes_symbolOf (datum : SExpr) : Makes datum.SymbolOf datum.toQuoted := by
  cases datum with
  | unknown source => exact makes_error _
  | atom text kind =>
      cases kind with
      | symbol =>
          refine makes_return (makes_required _ _) fun own named name same => ?_
          cases same
          exact named
      | _ => exact makes_return (makes_any _) fun literal _ _ same => by cases same
  | vector source elements =>
      exact makes_return (makes_any _) fun parts _ _ same => by cases same
  | abbreviation source elements =>
      cases elements with
      | nil => exact makes_error _
      | cons quoted rest =>
          exact makes_return (makes_any _) fun inner _ _ same => by cases same
  | list source elements =>
      unfold toQuoted
      split
      · exact makes_return (makes_any _) fun inner _ _ same => by cases same
      · exact makes_error _
      · exact makes_return (makes_any _) fun parts _ _ same => by cases same

/-- Quoted data are plain if each of them is. -/
theorem makes_allToQuoted {elements : List SExpr}
    (all : ∀ element ∈ elements, Makes Quoted.Plain element.toQuoted) :
    Makes Quoted.AllPlain (allToQuoted elements) := by
  induction elements with
  | nil => exact makes_ok trivial
  | cons element rest ih =>
      rw [List.forall_mem_cons] at all
      refine makes_bind all.1 fun quoted _ plain => ?_
      exact makes_return (ih all.2) fun _ plainRest => ⟨plain, plainRest⟩

/-- A list that is quoted as a list does not begin with `quote`. -/
theorem makes_toQuoted_list {source : Tree} {elements : List SExpr}
    (all : ∀ element ∈ elements, Makes Quoted.Plain element.toQuoted) :
    Makes Quoted.Plain (list source elements).toQuoted := by
  by_cases special : specialForm? elements = some .quote
  · match elements with
    | [] => cases special
    | [_] | _ :: _ :: _ :: _ =>
        simp only [toQuoted, special]
        exact makes_error _
    | [_, quoted] =>
        simp only [toQuoted, special]
        exact makes_return (all quoted (by simp)) fun _ plain => plain
  · rw [Datum.toQuoted_list special]
    refine makes_bind (makes_allToQuoted all) fun parts made plain => makes_ok ⟨?_, plain⟩
    rintro rest rfl
    cases elements with
    | nil => cases made
    | cons head others =>
        obtain ⟨quoted, first, accepted⟩ := accepted_bind.mp ⟨_, made⟩
        obtain ⟨later, second, _⟩ := accepted_bind.mp accepted
        rw [allToQuoted, first, second] at made
        cases made
        have named := makes_symbolOf head _ first "quote" rfl
        apply special
        rw [specialForm?, headIdentifier?, named]
        rfl

/-- Quoted data are plain. -/
theorem makes_toQuoted (datum : SExpr) : Makes Quoted.Plain datum.toQuoted := by
  induction datum using of_elements with | step datum all =>
  cases datum with
  | unknown source => exact makes_error _
  | atom text kind => cases kind <;> exact makes_return (makes_any _) fun _ _ => trivial
  | vector source elements =>
      exact makes_return (makes_allToQuoted all) fun _ plain => plain
  | abbreviation source elements =>
      cases elements with
      | nil => exact makes_error _
      | cons quoted rest =>
          exact makes_return (all quoted List.mem_cons_self) fun _ plain => plain
  | list source elements => exact makes_toQuoted_list all

/-- An abbreviated quotation is plain. -/
theorem makes_toQuotation (datum : SExpr) : Makes Expression.Plain datum.toQuotation := by
  refine makes_bind (makes_toQuoted datum) fun quoted _ plain => ?_
  cases quoted <;> exact makes_ok plain

/-- A quotation that is spelled out is plain. -/
theorem makes_toQuoteForm (datum : SExpr) : Makes Expression.Plain datum.toQuoteForm := by
  refine makes_bind (makes_toQuoted datum) fun quoted _ plain => ?_
  cases quoted with
  | quotation inner => exact makes_ok plain
  | _ => exact makes_error _

/-- Expressions are plain if each of them is. -/
theorem makes_allToExpressions {elements : List SExpr}
    (all : ∀ element ∈ elements, Makes Expression.Plain element.toExpression) :
    Makes Expression.AllPlain (allToExpressions elements) := by
  induction elements with
  | nil => exact makes_ok trivial
  | cons element rest ih =>
      rw [List.forall_mem_cons] at all
      refine makes_bind all.1 fun expression _ plain => ?_
      exact makes_return (ih all.2) fun _ plainRest => ⟨plain, plainRest⟩

/-- An application that invokes no special form is headed by none. -/
theorem makes_application {source : Tree} {head : SExpr} {operands : List SExpr}
    (unquoted : specialForm? (head :: operands) ≠ some .quote)
    (undefined : specialForm? (head :: operands) ≠ some .define)
    (ungrouped : specialForm? (head :: operands) ≠ some .begin)
    (all : ∀ operand ∈ operands, Makes Expression.Plain operand.toExpression) :
    Makes Expression.Plain (list source (head :: operands)).toExpression := by
  rw [toExpression_application unquoted undefined ungrouped]
  cases named : head.identifier? with
  | none => exact makes_error _
  | some procedure =>
      refine makes_bind (makes_allToExpressions all) fun made _ plain => makes_ok ⟨?_, plain⟩
      have special : specialForm? (head :: operands) = SpecialForm.ofName? procedure := by
        rw [specialForm?, headIdentifier?, named]
        rfl
      rw [special] at unquoted undefined ungrouped
      simp only [List.mem_cons, List.not_mem_nil, or_false, not_or]
      refine ⟨?_, ?_, ?_⟩
      · rintro rfl
        exact unquoted rfl
      · rintro rfl
        exact undefined rfl
      · rintro rfl
        exact ungrouped rfl

/-- Expressions are plain. -/
theorem makes_toExpression (datum : SExpr) : Makes Expression.Plain datum.toExpression := by
  induction datum using of_elements with | step datum all =>
  cases datum with
  | unknown source => exact makes_error _
  | atom text kind => cases kind <;> exact makes_return (makes_any _) fun _ _ => trivial
  | vector source elements => exact makes_toQuotation _
  | abbreviation source elements => exact makes_toQuotation _
  | list source elements =>
      cases elements with
      | nil => exact makes_error _
      | cons head operands =>
          by_cases quotes : specialForm? (head :: operands) = some .quote
          · simp only [toExpression, quotes]
            exact makes_toQuoteForm _
          by_cases defines : specialForm? (head :: operands) = some .define
          · simp only [toExpression, defines]
            exact makes_error _
          by_cases groups : specialForm? (head :: operands) = some .begin
          · simp only [toExpression, groups]
            exact makes_error _
          exact makes_application quotes defines groups (List.forall_mem_cons.mp all).2

/-- The parts of a body are plain. -/
def PlainBody (body : List Definition × List Expression) : Prop :=
  Definition.AllPlain body.1 ∧ Expression.AllPlain body.2

/-- A body is plain if the definitions in it are. -/
theorem makes_toBody {parts : List SExpr} (started : Bool)
    (all : ∀ part ∈ parts, Makes Definition.Plain part.toDefinition) :
    Makes PlainBody (toBody started parts) := by
  induction parts generalizing started with
  | nil => exact makes_ok ⟨trivial, trivial⟩
  | cons part rest ih =>
      rw [List.forall_mem_cons] at all
      rw [toBody]
      split
      · split
        · exact makes_error _
        · refine makes_bind all.1 fun definition _ plain => ?_
          exact makes_return (ih false all.2) fun _ plainRest => ⟨⟨plain, plainRest.1⟩, plainRest.2⟩
      · refine makes_bind (makes_toExpression part) fun expression _ plain => ?_
        exact makes_return (ih true all.2) fun _ plainRest => ⟨plainRest.1, plain, plainRest.2⟩

/-- A procedure with a plain body is plain. -/
theorem makes_procedureOf (name : String) (params : List String)
    {definitions : List Definition} {expressions : List Expression}
    (plain : PlainBody (definitions, expressions)) :
    Makes Definition.Plain (procedureOf name params definitions expressions) := by
  unfold procedureOf
  split
  · exact makes_error _
  · rename_i body last
    have each := Expression.allPlain_iff.mp plain.2
    refine makes_ok ⟨plain.1, Expression.allPlain_iff.mpr ?_, each body (List.mem_of_getLast? last)⟩
    exact fun expression member => each expression (List.dropLast_subset _ member)

/-- Definitions are plain, also inside one another. -/
theorem makes_toDefinition (datum : SExpr) : Makes Definition.Plain datum.toDefinition := by
  induction datum using of_elements with | step datum all =>
  unfold toDefinition
  split
  · rename_i source head target parts
    split
    · split
      · exact makes_return (makes_toExpression _) fun _ plain => plain
      · exact makes_error _
    · split
      · split
        · exact makes_error _
        · refine makes_bind (makes_toBody false ?_) fun body _ plain => makes_procedureOf _ _ plain
          exact (List.forall_mem_cons.mp (List.forall_mem_cons.mp all).2).2
      · exact makes_error _
  · exact makes_error _

/-- Forms are plain if each of them is. -/
theorem makes_allToForms {elements : List SExpr}
    (all : ∀ element ∈ elements, Makes Form.Plain element.toForm) :
    Makes Form.AllPlain (allToForms elements) := by
  induction elements with
  | nil => exact makes_ok trivial
  | cons element rest ih =>
      rw [List.forall_mem_cons] at all
      refine makes_bind all.1 fun form _ plain => ?_
      exact makes_return (ih all.2) fun _ plainRest => ⟨plain, plainRest⟩

/-- Forms are plain. -/
theorem makes_toForm (datum : SExpr) : Makes Form.Plain datum.toForm := by
  induction datum using of_elements with | step datum all =>
  cases datum with
  | list source elements =>
      unfold toForm
      split
      · exact makes_return (makes_toDefinition _) fun _ plain => plain
      · cases elements with
        | nil => exact makes_ok trivial
        | cons head forms =>
            refine makes_return (makes_allToForms ?_) fun _ plain => plain
            exact (List.forall_mem_cons.mp all).2
      · exact makes_return (makes_toExpression _) fun _ plain => plain
  | _ => exact makes_return (makes_toExpression _) fun _ plain => plain

end SExpr

/-- A source without parse errors gives a program exactly if every datum at its top level is a form,
and nothing in the program is headed by a special form. -/
theorem Program.exists_ofSource_iff_isForm {source : String}
    (unreported : (Parse.ofSource source).errors = []) :
    ((∃ program, ofSource source = .ok program) ↔
        ∀ datum ∈ (Parse.ofSource source).data, datum.IsForm) ∧
      ∀ program, ofSource source = .ok program → program.Plain := by
  have lowered : ofSource source =
      (do return ⟨← SExpr.allToForms (Parse.ofSource source).data⟩) := by
    rw [ofSource, unreported]
    rfl
  rw [lowered]
  constructor
  · rw [← SExpr.accepted_allToForms (Parse.allProper_of_errors unreported)]
    exact SExpr.accepted_return _
  · have plain := SExpr.makes_allToForms fun datum (_ : datum ∈ (Parse.ofSource source).data) =>
      SExpr.makes_toForm datum
    exact SExpr.makes_return plain fun _ plainForms => plainForms

/-- The procedure is named like a special form and has an internal definition. -/
def nestedSource : String :=
  "(begin (define (quote x) (define y '(x (quote (x)))) (if x y x)))"

/-- This source is a form of the grammar and gives a plain program. -/
theorem Program.nestedSource_isForm :
    (Parse.ofSource nestedSource).errors = [] ∧
      (∀ datum ∈ (Parse.ofSource nestedSource).data, datum.IsForm) ∧
        ∃ program, ofSource nestedSource = .ok program ∧ program.Plain := by
  have unreported : (Parse.ofSource nestedSource).errors = [] := by decide +kernel
  have accepted : (ofSource nestedSource).isOk = true := by decide +kernel
  obtain ⟨accepts, plain⟩ := exists_ofSource_iff_isForm unreported
  cases made : ofSource nestedSource with
  | error error =>
      rw [made] at accepted
      cases accepted
  | ok program =>
      exact ⟨unreported, accepts.mp ⟨program, made⟩, program, rfl, plain program made⟩

end SmallScheme
