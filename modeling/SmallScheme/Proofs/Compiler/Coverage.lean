/-
This file shows that every function of a compiled program holds the code of one of its procedures or of
a conditional.
-/

import SmallScheme.Proofs.Compiler.Statements

namespace SmallScheme.Compiler

/-- The function computes one of the procedures, or a conditional from its distinct parameters. -/
inductive Emitted (analysis : Analysis) (procedures : List Procedure)
    (functions : List Code.Function) : Code.Function → Prop
  | procedure {procedure : Procedure} {index : Nat} {body : Code.Body}
      (member : procedure ∈ procedures) (emits : EmitsBody analysis functions procedure body) :
      Emitted analysis procedures functions (.procedure procedure.name index body)
  | conditional {index : Nat} {params : List String} {source : Expression} {result : Code.Tail}
      (distinct : params.Nodup)
      (emits : EmitsTail analysis functions (.parameters params) source result) :
      Emitted analysis procedures functions (.conditional index params result)

/-- The functions between two states are kept or emitted. -/
structure Covers (analysis : Analysis) (procedures : List Procedure) (before after : Code) :
    Prop where
  subset : before.functions ⊆ after.functions
  emitted : ∀ functions, (functions.map functionIndex).Nodup → after.functions ⊆ functions →
    ∀ function ∈ after.functions,
      function ∈ before.functions ∨ Emitted analysis procedures functions function

section Covers

variable {analysis : Analysis} {procedures : List Procedure} {first second third before after : Code}

/-- Where no function is added there is nothing to cover. -/
theorem Covers.of_eq (same : after.functions = before.functions) :
    Covers analysis procedures before after where
  subset := same ▸ List.Subset.refl _
  emitted _ _ _ _ member := .inl (same ▸ member)

/-- What is added in two stages is covered if each stage is. -/
theorem Covers.trans (left : Covers analysis procedures first second)
    (right : Covers analysis procedures second third) : Covers analysis procedures first third where
  subset := List.Subset.trans left.subset right.subset
  emitted functions unique contained function member := by
    rcases right.emitted functions unique contained function member with earlier | emitted
    · exact left.emitted functions unique (List.Subset.trans right.subset contained) function earlier
    · exact .inr emitted

/-- A function may join what is covered if it is emitted in every program that has the functions so
far. -/
theorem Covers.declareFunction {function : Code.Function}
    (inside : Covers analysis procedures before after)
    (emitted : ∀ functions, (functions.map functionIndex).Nodup → after.functions ⊆ functions →
      Emitted analysis procedures functions function) :
    Covers analysis procedures before (after.declareFunction function) where
  subset := List.Subset.trans inside.subset (List.subset_append_left _ _)
  emitted functions unique contained other member := by
    have kept : after.functions ⊆ functions :=
      List.Subset.trans (List.subset_append_left _ _) contained
    rcases List.mem_append.mp member with earlier | last
    · exact inside.emitted functions unique kept other earlier
    · rw [List.mem_singleton.mp last]
      exact .inr (emitted functions unique kept)

end Covers

/-- Every run of the generator covers what it adds. -/
def Covering {A : Type} (analysis : Analysis) (procedures : List Procedure) (run : Generate A) :
    Prop :=
  ∀ before value after, run before = .ok (value, after) → Covers analysis procedures before after

section Covering

variable {A B : Type} {analysis : Analysis} {procedures : List Procedure}

/-- A run that only gives a value adds nothing. -/
theorem covering_pure (value : A) : Covering analysis procedures (pure value) := by
  intro before given after made
  cases made
  exact .of_eq rfl

/-- A result from outside the generator adds nothing. -/
theorem covering_lift (result : Except RunError A) :
    Covering analysis procedures (liftM result : Generate A) := by
  intro before value after made
  obtain ⟨_, rfl⟩ := lift_eq_ok made
  exact .of_eq rfl

/-- A failing run adds nothing. -/
theorem covering_throw (error : RunError) :
    Covering analysis procedures (throw error : Generate A) := by
  intro before value after made
  cases made

/-- A sequence covers what it adds if both parts do. -/
theorem covering_bind {first : Generate A} {next : A → Generate B}
    (covers : Covering analysis procedures first)
    (covering : ∀ value, Covering analysis procedures (next value)) :
    Covering analysis procedures (first >>= next) := by
  intro before value after made
  obtain ⟨given, middle, begun, ended⟩ := bind_eq_ok made
  exact (covers before given middle begun).trans (covering given middle value after ended)

/-- A change that keeps the functions adds nothing to cover. -/
theorem covering_change {update : Code → Code}
    (kept : ∀ code, (update code).functions = code.functions) :
    Covering analysis procedures (change update) := by
  intro before value after made
  cases made
  exact .of_eq (kept before)

/-- An application adds what its arguments add. -/
theorem covering_application {procedure : String} {count : Nat}
    {arguments : Generate (List Code.Expr)} (covers : Covering analysis procedures arguments) :
    Covering analysis procedures (application analysis procedure count arguments) := by
  unfold application
  split
  · exact covering_bind covers fun _ => covering_pure _
  · split
    · exact covering_throw _
    · exact covering_bind (covering_lift _) fun _ => covering_bind covers fun _ => covering_pure _

mutual

/-- The functions that an expression adds are emitted for its conditionals. -/
theorem covering_expression (analysis : Analysis) (procedures : List Procedure) (scope : Scope)
    (source : Expression) : Covering analysis procedures (expression analysis scope source) := by
  cases source with
  | constant literal => exact covering_lift _
  | quotation datum => exact covering_lift _
  | identifier name => exact covering_lift _
  | application procedure operands =>
      unfold expression
      split
      · split
        · intro before value after made
          obtain ⟨index, numbered, taken, made⟩ := bind_eq_ok made
          cases taken
          obtain ⟨test, second, tested, made⟩ := bind_eq_ok made
          obtain ⟨first, third, held, made⟩ := bind_eq_ok made
          obtain ⟨other, fourth, failed, made⟩ := bind_eq_ok made
          cases made
          have inside := (covering_expression analysis procedures _ _ _ _ _ tested).trans
            ((covering_tail analysis procedures _ _ _ _ _ held).trans
              (covering_tail analysis procedures _ _ _ _ _ failed))
          have branch := yields_branch (yields_expression tested) (yields_tail held)
            (yields_tail failed)
          have fresh : Covers analysis procedures before before.fresh.2 := .of_eq rfl
          refine fresh.trans (inside.declareFunction fun functions unique contained => ?_)
          exact .conditional scope.nodup_visible (branch.holds functions unique contained)
        · exact covering_throw _
      · exact covering_application (covering_expressions analysis procedures scope operands)

/-- The functions that a result adds are emitted for the conditionals inside it. -/
theorem covering_tail (analysis : Analysis) (procedures : List Procedure) (scope : Scope)
    (source : Expression) : Covering analysis procedures (tail analysis scope source) := by
  cases source with
  | constant literal => exact covering_bind (covering_lift _) fun _ => covering_pure _
  | quotation datum => exact covering_bind (covering_lift _) fun _ => covering_pure _
  | identifier name => exact covering_bind (covering_lift _) fun _ => covering_pure _
  | application procedure operands =>
      unfold tail
      split
      · split
        · refine covering_bind (covering_expression analysis procedures scope _) fun _ => ?_
          refine covering_bind (covering_tail analysis procedures scope _) fun _ => ?_
          exact covering_bind (covering_tail analysis procedures scope _) fun _ => covering_pure _
        · exact covering_throw _
      · exact covering_bind
          (covering_application (covering_expressions analysis procedures scope operands))
          fun _ => covering_pure _

/-- Expressions add the functions of each of them. -/
theorem covering_expressions (analysis : Analysis) (procedures : List Procedure) (scope : Scope)
    (sources : List Expression) :
    Covering analysis procedures (expressions analysis scope sources) := by
  cases sources with
  | nil => exact covering_pure _
  | cons source rest =>
      refine covering_bind (covering_expression analysis procedures scope source) fun _ => ?_
      exact covering_bind (covering_expressions analysis procedures scope rest)
        fun _ => covering_pure _

end

/-- Internal variables add the functions of their values. -/
theorem covering_valueSteps (scope : Scope) (values : List (String × Expression)) :
    Covering analysis procedures (valueSteps analysis scope values) := by
  induction values generalizing scope with
  | nil => exact covering_pure _
  | cons definition rest ih =>
      refine covering_bind (covering_expression analysis procedures scope _) fun _ => ?_
      exact covering_bind (ih _) fun _ => covering_pure _

/-- A body adds the functions of its parts. -/
theorem covering_body (source : Procedure) :
    Covering analysis procedures (body analysis source) := by
  have plain : Covering analysis procedures (plainBody analysis source) := by
    refine covering_bind (covering_valueSteps _ _) fun _ => ?_
    refine covering_bind (covering_expressions analysis procedures _ _) fun _ => ?_
    exact covering_bind (covering_tail analysis procedures _ _) fun _ => covering_pure _
  unfold body
  split
  · split
    · exact plain
    · refine covering_bind (covering_expression analysis procedures _ _) fun _ => ?_
      refine covering_bind (covering_expressions analysis procedures _ _) fun _ => ?_
      exact covering_bind (covering_tail analysis procedures _ _) fun _ => covering_pure _
  · exact plain

/-- Declaring the slot of a procedure adds no function. -/
theorem functions_declareProcedure (code : Code) (name : String) (predefined : Option Builtin) :
    (code.declareProcedure name predefined).functions = code.functions := by
  unfold Assembly.declareProcedure
  split <;> rfl

/-- The function of a procedure is emitted for that procedure. -/
theorem covering_function {source : Procedure} (member : source ∈ procedures) :
    Covering analysis procedures (function analysis source) := by
  intro before value after made
  obtain ⟨_, _, changed, made⟩ := bind_eq_ok made
  cases changed
  obtain ⟨number, numbered, taken, made⟩ := bind_eq_ok made
  cases taken
  obtain ⟨code, last, emitted, made⟩ := bind_eq_ok made
  cases made
  have declared : Covers analysis procedures before
      (before.declareProcedure source.name (Builtin.ofName? source.name)).fresh.2 :=
    .of_eq (functions_declareProcedure before _ _)
  refine declared.trans ((covering_body source _ _ _ emitted).declareFunction ?_)
  intro functions unique contained
  exact .procedure member ((yields_body emitted).holds functions unique contained)

mutual

/-- A procedure is added after the ones inside it, and each of them is emitted. -/
theorem covering_procedure (analysis : Analysis) {procedures : List Procedure} (source : Procedure)
    (known : source.nested ⊆ procedures) :
    Covering analysis procedures (procedure analysis source) := by
  obtain ⟨name, params, definitions, effects, result⟩ := source
  rw [Procedure.nested, List.cons_subset] at known
  refine covering_bind (covering_function known.1) fun _ => ?_
  exact covering_bind (covering_change fun _ => rfl) fun _ =>
    covering_internal analysis definitions known.2

/-- An internal definition adds the procedures inside it. -/
theorem covering_internalDefinition (analysis : Analysis) {procedures : List Procedure}
    (source : Definition) (known : source.nested ⊆ procedures) :
    Covering analysis procedures (internalDefinition analysis source) := by
  cases source with
  | value name value => exact covering_pure _
  | procedure definition => exact covering_procedure analysis definition known

/-- Internal definitions add the procedures inside them. -/
theorem covering_internal (analysis : Analysis) {procedures : List Procedure}
    (sources : List Definition) (known : Definition.allNested sources ⊆ procedures) :
    Covering analysis procedures (internal analysis sources) := by
  cases sources with
  | nil => exact covering_pure _
  | cons definition rest =>
      rw [Definition.allNested, List.append_subset] at known
      exact covering_bind (covering_internalDefinition analysis definition known.1) fun _ =>
        covering_internal analysis rest known.2

end

mutual

/-- A form adds the functions of what it evaluates and defines. -/
theorem covering_form (analysis : Analysis) {procedures : List Procedure} (source : Form)
    (known : Definition.allNested source.definitions ⊆ procedures) :
    Covering analysis procedures (form analysis source) := by
  cases source with
  | expression value =>
      exact covering_bind (covering_expression analysis procedures _ _) fun _ =>
        covering_change fun _ => rfl
  | definition definition =>
      cases definition with
      | value name value =>
          refine covering_bind (covering_expression analysis procedures _ _) fun _ => ?_
          exact covering_bind (covering_change fun _ => rfl) fun _ => covering_change fun _ => rfl
      | procedure inner =>
          rw [Form.definitions, Definition.allNested, Definition.allNested, List.append_nil] at known
          exact covering_procedure analysis inner known
  | begin group => exact covering_forms analysis group known

/-- A program adds the functions of its forms. -/
theorem covering_forms (analysis : Analysis) {procedures : List Procedure} (sources : List Form)
    (known : Definition.allNested (Form.allDefinitions sources) ⊆ procedures) :
    Covering analysis procedures (forms analysis sources) := by
  cases sources with
  | nil => exact covering_pure _
  | cons first rest =>
      rw [Form.allDefinitions, Definition.allNested_append, List.append_subset] at known
      exact covering_bind (covering_form analysis first known.1) fun _ =>
        covering_forms analysis rest known.2

end

end Covering

/-- Every function of a compiled program is emitted for one of its procedures or for a conditional. -/
theorem emitted_of_compile {program : Program} {code : Code}
    (compiled : compile program = .ok code) :
    ∀ function ∈ code.functions,
      Emitted (Analysis.ofProgram program) program.procedures code.functions function := by
  have covers := covering_forms (Analysis.ofProgram program) program.forms
    (List.Subset.refl program.procedures) _ _ _ (forms_of_compile compiled)
  intro function member
  rcases covers.emitted code.functions (nodup_functionIndex compiled) (List.Subset.refl _) function
    member with absent | emitted
  · exact absurd absent List.not_mem_nil
  · exact emitted

end SmallScheme.Compiler
