/-
This file shows that lowering accepts exactly the definitions and the forms of the grammar.
-/

import SmallScheme.Proofs.Program.Grammar

namespace SmallScheme

namespace SExpr

section Bodies

/-- Proper data are names exactly if all of them are symbols. -/
theorem mapM_identifier? {elements : List SExpr} (proper : AllProper elements)
    {names : List String} :
    elements.mapM identifier? = some names ↔
      elements = names.map fun name => .atom name .symbol := by
  induction elements generalizing names with
  | nil =>
      rw [List.mapM_nil]
      cases names <;> simp
  | cons element rest ih =>
      rw [List.mapM_cons]
      cases names with
      | nil => simp [Option.bind_eq_some_iff]
      | cons name names =>
          simp only [Option.bind_eq_bind, Option.bind_eq_some_iff, Option.pure_def,
            Option.some.injEq, List.cons.injEq, List.map_cons]
          constructor
          · rintro ⟨_, named, _, others, rfl, rfl⟩
            exact ⟨(identifier?_eq_some_iff proper.1).mp named, (ih proper.2).mp others⟩
          · rintro ⟨named, others⟩
            exact ⟨name, (identifier?_eq_some_iff proper.1).mpr named, names,
              (ih proper.2).mpr others, rfl, rfl⟩

/-- A signature is a list of symbols, the first of which names the procedure. -/
theorem signature?_eq_some_iff {elements : List SExpr} (proper : AllProper elements)
    {name : String} {params : List String} :
    signature? elements = some (name, params) ↔
      elements = (name :: params).map fun param => .atom param .symbol := by
  rw [← mapM_identifier? proper, signature?]
  cases elements.mapM identifier? with
  | none => simp
  | some names => cases names <;> simp

/-- A definition is an error wherever an expression stands. -/
theorem toExpression_of_isDefinition {part : SExpr} (defines : part.isDefinition = true) :
    part.toExpression = .error (.misplacedDefinition part.text) := by
  cases part with
  | list source elements =>
      have special : specialForm? elements = some .define := beq_iff_eq.mp defines
      cases elements with
      | nil => cases special
      | cons head rest =>
          simp only [toExpression, special]
          rfl
  | _ => cases defines

/-- After the first expression of a body come only expressions. -/
theorem toBody_started (parts : List SExpr) :
    toBody true parts = (do return ([], ← allToExpressions parts)) := by
  induction parts with
  | nil => rfl
  | cons part rest ih =>
      rw [toBody, allToExpressions]
      split
      · rename_i defines
        rw [toExpression_of_isDefinition defines]
        rfl
      · rw [ih]
        cases part.toExpression with
        | error error => rfl
        | ok expression => cases allToExpressions rest <;> rfl

/-- A body that starts with an expression defines nothing. -/
theorem toBody_of_expression {part : SExpr} (plain : part.isDefinition = false)
    (rest : List SExpr) :
    toBody false (part :: rest) = (do return ([], ← allToExpressions (part :: rest))) := by
  rw [← toBody_started, toBody, toBody, plain]
  rfl

/-- What the grammar takes for a definition is lowered as one. -/
theorem isDefinition_of_grammar {datum : SExpr} (proper : datum.Proper)
    (definition : datum.IsDefinition) : datum.isDefinition = true := by
  cases definition with
  | value expression => exact (isDefinition_iff proper).mpr rfl
  | procedure body => exact (isDefinition_iff proper).mpr rfl

/-- What is lowered as a definition is no expression of the grammar. -/
theorem not_isExpression_of_isDefinition {datum : SExpr} (proper : datum.Proper)
    (defines : datum.isDefinition = true) : ¬datum.IsExpression := by
  rw [← accepted_toExpression proper, toExpression_of_isDefinition defines]
  exact not_accepted_error _

/-- The parts make a body that ends with an expression. -/
def GivesResult (parts : List SExpr) : Prop :=
  ∃ definitions expressions, toBody false parts = .ok (definitions, expressions) ∧ expressions ≠ []

/-- A procedure is accepted if its parts make a body with a result. -/
theorem accepted_procedureOf (name : String) (params : List String) (parts : List SExpr) :
    Accepted (do
      let (definitions, expressions) ← toBody false parts
      procedureOf name params definitions expressions) ↔ GivesResult parts := by
  rw [accepted_bind]
  constructor
  · rintro ⟨⟨definitions, expressions⟩, made, accepted⟩
    refine ⟨definitions, expressions, made, ?_⟩
    rintro rfl
    exact not_accepted_error _ accepted
  · rintro ⟨definitions, expressions, made, present⟩
    refine ⟨(definitions, expressions), made, ?_⟩
    dsimp only [procedureOf]
    rw [List.getLast?_eq_some_getLast present]
    exact accepted_ok _

/-- After an expression, a body gives a result if all the rest are expressions. -/
theorem givesResult_of_expression {part : SExpr} (plain : part.isDefinition = false)
    (rest : List SExpr) : GivesResult (part :: rest) ↔ Accepted (allToExpressions (part :: rest)) := by
  rw [GivesResult, toBody_of_expression plain]
  constructor
  · rintro ⟨definitions, expressions, made, _⟩
    exact (accepted_return _).mp ⟨_, made⟩
  · rintro ⟨expressions, made⟩
    refine ⟨[], expressions, by rw [made]; rfl, ?_⟩
    rintro rfl
    rw [allToExpressions] at made
    cases first : part.toExpression with
    | error error => rw [first] at made; cases made
    | ok expression =>
        cases others : allToExpressions rest <;> rw [first, others] at made <;> cases made

/-- After an accepted definition, a body gives a result if the rest does. -/
theorem givesResult_of_isDefinition {part : SExpr} (defines : part.isDefinition = true)
    (rest : List SExpr) :
    GivesResult (part :: rest) ↔ Accepted part.toDefinition ∧ GivesResult rest := by
  unfold GivesResult
  rw [toBody, if_pos defines]
  constructor
  · rintro ⟨definitions, expressions, made, present⟩
    obtain ⟨definition, first, accepted⟩ := accepted_bind.mp ⟨_, made⟩
    obtain ⟨⟨others, results⟩, second, _⟩ := accepted_bind.mp accepted
    refine ⟨⟨definition, first⟩, others, results, second, ?_⟩
    simp only [Bool.false_eq_true, if_false, first, second] at made
    cases made
    exact present
  · rintro ⟨⟨definition, first⟩, definitions, expressions, second, present⟩
    refine ⟨definition :: definitions, expressions, ?_, present⟩
    simp only [Bool.false_eq_true, if_false, first, second]
    rfl

/-- The definition of a name is accepted exactly if one expression follows the name. -/
theorem accepted_valueDefinition {source : Tree} {name : String} {parts : List SExpr}
    (named : (atom name .symbol).Proper) (proper : AllProper parts) :
    Accepted (list source (.atom "define" .symbol :: .atom name .symbol :: parts)).toDefinition ↔
      (list source (.atom "define" .symbol :: .atom name .symbol :: parts)).IsDefinition := by
  have identified : (atom name .symbol).identifier? = some name :=
    (identifier?_eq_some_iff named).mpr rfl
  match parts with
  | [value] =>
      simp only [toDefinition, identified]
      rw [accepted_return, accepted_toExpression proper.1]
      refine ⟨.value, fun definition => ?_⟩
      cases definition with
      | value expression => exact expression
  | [] | _ :: _ :: _ =>
      simp only [toDefinition, identified]
      refine iff_of_false (not_accepted_error _) fun definition => ?_
      cases definition

/-- The parts of a procedure of the grammar are a body. -/
theorem isBody_of_procedure {source target : Tree} {head : SExpr} {names parts : List SExpr}
    (definition : (list source (head :: .list target names :: parts)).IsDefinition) :
    IsBody parts := by
  cases definition with
  | procedure body => exact body

/-- The definition of a procedure is accepted exactly if it has a signature and a body. -/
theorem accepted_procedureDefinition {source target : Tree} {names parts : List SExpr}
    (proper : AllProper names) (body : GivesResult parts ↔ IsBody parts) :
    Accepted (list source (.atom "define" .symbol :: .list target names :: parts)).toDefinition ↔
      (list source (.atom "define" .symbol :: .list target names :: parts)).IsDefinition := by
  have unnamed : (list target names).identifier? = none := rfl
  cases signed : signature? names with
  | none =>
      simp only [toDefinition, unnamed, signed]
      refine iff_of_false (not_accepted_error _) fun definition => ?_
      cases definition with
      | procedure body =>
          rw [(signature?_eq_some_iff proper).mpr rfl] at signed
          cases signed
  | some signature =>
      obtain ⟨name, params⟩ := signature
      obtain rfl := (signature?_eq_some_iff proper).mp signed
      simp only [toDefinition, unnamed, signed]
      rw [accepted_procedureOf, body]
      exact ⟨.procedure, isBody_of_procedure⟩

/-- A definition with a target is accepted exactly if the grammar takes it for one. -/
theorem accepted_toDefinition_list {source : Tree} {target : SExpr} {parts : List SExpr}
    (proper : AllProper (.atom "define" .symbol :: target :: parts))
    (body : GivesResult parts ↔ IsBody parts) :
    Accepted (list source (.atom "define" .symbol :: target :: parts)).toDefinition ↔
      (list source (.atom "define" .symbol :: target :: parts)).IsDefinition := by
  obtain ⟨_, targetProper, partsProper⟩ := proper
  cases target with
  | list inner names => exact accepted_procedureDefinition targetProper body
  | atom text kind =>
      cases kind with
      | symbol => exact accepted_valueDefinition targetProper partsProper
      | _ =>
          refine iff_of_false (not_accepted_error _) fun definition => ?_
          cases definition
  | unknown inner => exact targetProper.elim
  | vector inner elements =>
      refine iff_of_false (not_accepted_error _) fun definition => ?_
      cases definition
  | abbreviation inner elements =>
      refine iff_of_false (not_accepted_error _) fun definition => ?_
      cases definition

end Bodies

mutual

/-- Lowering accepts exactly the definitions of the grammar. -/
theorem accepted_toDefinition {datum : SExpr} (proper : datum.Proper)
    (defines : datum.isDefinition = true) : Accepted datum.toDefinition ↔ datum.IsDefinition := by
  match datum, proper, defines with
  | .list source (head :: target :: parts), proper, defines =>
      obtain rfl : head = .atom "define" .symbol := by
        simpa using (isDefinition_iff proper).mp defines
      exact accepted_toDefinition_list proper (givesResult_iff proper.2.2)
  | .list source [head], proper, defines =>
      refine iff_of_false (not_accepted_error _) fun definition => ?_
      cases definition

/-- The parts give a result exactly if they are a body of the grammar. -/
theorem givesResult_iff {parts : List SExpr} (proper : AllProper parts) :
    GivesResult parts ↔ IsBody parts := by
  cases parts with
  | nil =>
      constructor
      · rintro ⟨definitions, expressions, made, present⟩
        cases made
        contradiction
      · intro body
        cases body
        contradiction
  | cons part rest =>
      cases defines : part.isDefinition with
      | true =>
          rw [givesResult_of_isDefinition defines, accepted_toDefinition proper.1 defines,
            givesResult_iff proper.2]
          constructor
          · rintro ⟨definition, body⟩
            exact .definition definition body
          · intro body
            cases body with
            | result present expressions =>
                exact absurd (expressions part List.mem_cons_self)
                  (not_isExpression_of_isDefinition proper.1 defines)
            | definition definition body => exact ⟨definition, body⟩
      | false =>
          rw [givesResult_of_expression defines, accepted_allToExpressions proper]
          constructor
          · exact .result (List.cons_ne_nil _ _)
          · intro body
            cases body with
            | result present expressions => exact expressions
            | definition definition body =>
                rw [isDefinition_of_grammar proper.1 definition] at defines
                cases defines

end

/-- A list that starts with `begin` holds the forms after it. -/
theorem accepted_begin {source : Tree} {forms : List SExpr}
    (proper : AllProper (.atom "begin" .symbol :: forms))
    (all : Accepted (allToForms (.atom "begin" .symbol :: forms)) ↔
      ∀ element ∈ atom "begin" .symbol :: forms, element.IsForm) :
    Accepted (list source (.atom "begin" .symbol :: forms)).toForm ↔
      (list source (.atom "begin" .symbol :: forms)).IsForm := by
  have special : specialForm? (.atom "begin" .symbol :: forms) = some .begin :=
    (specialForm?_eq_some_iff proper).mpr rfl
  have first : Accepted (atom "begin" .symbol).toForm :=
    (accepted_return _).mpr (toExpression_atom proper.1)
  have head : (atom "begin" .symbol).IsForm := .expression (isExpression_atom _ _)
  rw [allToForms, accepted_return_two, List.forall_mem_cons] at all
  simp only [toForm, special]
  rw [accepted_return]
  constructor
  · intro accepted
    exact .begin (all.mp ⟨first, accepted⟩).2
  · intro form
    cases form with
    | definition definition =>
        have defines := (isDefinition_iff proper).mp (isDefinition_of_grammar proper definition)
        simp at defines
    | begin inner => exact (all.mpr ⟨head, inner⟩).2
    | expression expression => exact absurd expression (not_isExpression_of_head (.inr rfl))

/-- A list that starts with `define` is a form exactly if it is a definition. -/
theorem accepted_definition {source : Tree} {rest : List SExpr}
    (proper : (list source (.atom "define" .symbol :: rest)).Proper) :
    Accepted (list source (.atom "define" .symbol :: rest)).toForm ↔
      (list source (.atom "define" .symbol :: rest)).IsForm := by
  have special : specialForm? (.atom "define" .symbol :: rest) = some .define :=
    (specialForm?_eq_some_iff proper).mpr rfl
  have defines : (list source (.atom "define" .symbol :: rest)).isDefinition = true :=
    (isDefinition_iff proper).mpr rfl
  simp only [toForm, special]
  rw [accepted_return, accepted_toDefinition proper defines]
  constructor
  · exact .definition
  · intro form
    generalize same : list source (.atom "define" .symbol :: rest) = datum at form
    cases form with
    | definition definition => exact definition
    | begin inner => simp at same
    | expression expression =>
        subst same
        exact absurd expression (not_isExpression_of_head (.inl rfl))

/-- A datum that neither defines nor groups is a form if it is an expression. -/
theorem isForm_iff_isExpression {datum : SExpr} (proper : datum.Proper)
    (plain : datum.isDefinition = false)
    (ungrouped : ∀ source forms, datum ≠ .list source (.atom "begin" .symbol :: forms)) :
    datum.IsForm ↔ datum.IsExpression := by
  constructor
  · intro form
    cases form with
    | definition definition =>
        rw [isDefinition_of_grammar proper definition] at plain
        cases plain
    | begin inner => exact absurd rfl (ungrouped _ _)
    | expression expression => exact expression
  · exact .expression

/-- A list is accepted exactly as a form of the grammar, if its elements are. -/
theorem accepted_toForm_list {source : Tree} {elements : List SExpr}
    (proper : (list source elements).Proper)
    (all : Accepted (allToForms elements) ↔ ∀ element ∈ elements, element.IsForm) :
    Accepted (list source elements).toForm ↔ (list source elements).IsForm := by
  have head {form : SpecialForm} (special : specialForm? elements = some form) :
      ∃ rest, elements = .atom form.name .symbol :: rest :=
    List.head?_eq_some_iff.mp ((specialForm?_eq_some_iff proper).mp special)
  by_cases defines : specialForm? elements = some .define
  · obtain ⟨rest, rfl⟩ := head defines
    exact accepted_definition proper
  by_cases groups : specialForm? elements = some .begin
  · obtain ⟨forms, rfl⟩ := head groups
    exact accepted_begin proper all
  have lowered : (list source elements).toForm =
      (do return .expression (← (list source elements).toExpression)) := by
    unfold toForm
    split
    · contradiction
    · contradiction
    · rfl
  rw [lowered, accepted_return, accepted_toExpression proper]
  refine (isForm_iff_isExpression proper ?_ ?_).symm
  · exact beq_false_of_ne defines
  · intro other forms same
    cases same
    exact groups ((specialForm?_eq_some_iff proper).mpr rfl)

mutual

/-- Lowering accepts exactly the forms of the grammar. -/
theorem accepted_toForm {datum : SExpr} (proper : datum.Proper) :
    Accepted datum.toForm ↔ datum.IsForm := by
  cases datum with
  | list source elements => exact accepted_toForm_list proper (accepted_allToForms proper)
  | _ =>
      rw [isForm_iff_isExpression proper rfl (by simp), ← accepted_toExpression proper]
      exact accepted_return _

/-- Lowering accepts some data exactly if all of them are forms. -/
theorem accepted_allToForms {elements : List SExpr} (proper : AllProper elements) :
    Accepted (allToForms elements) ↔ ∀ element ∈ elements, element.IsForm := by
  cases elements with
  | nil => exact ⟨fun _ _ member => absurd member List.not_mem_nil, fun _ => accepted_ok []⟩
  | cons element rest =>
      rw [allToForms, accepted_return_two, accepted_toForm proper.1,
        accepted_allToForms proper.2, List.forall_mem_cons]

end

end SExpr

/-- The tree of a source is a root, with errors or without. -/
theorem Parse.exists_module? (source : String) :
    ∃ children, (ofSource source).module? = some children :=
  ⟨_, rfl⟩

/-- A source without parse errors is the program of its data. -/
theorem Program.ofSource_of_errors {source : String}
    (unreported : (Parse.ofSource source).errors = []) :
    ofSource source = ofParse (Parse.ofSource source) := by
  obtain ⟨children, rooted⟩ := Parse.exists_module? source
  simp [ofSource, unreported, rooted]

/-- A source with parse errors gives these errors and no program. -/
theorem Program.ofSource_of_reported {source : String}
    (reported : (Parse.ofSource source).errors ≠ []) :
    ofSource source = .error (.parse (Parse.ofSource source).errors) := by
  simp [ofSource, reported]

end SmallScheme
