/-
This file says what the compiler checks in an expression, and shows that every expression of a
compiled program passes the checks.
-/

import SmallScheme.Proofs.Compiler.Runs

namespace SmallScheme

namespace Analysis

/-- An application is a conditional with all its parts, calls a procedure of the program, or gives a
predefined procedure as many arguments as it takes. -/
def Fits (analysis : Analysis) (procedure : String) (count : Nat) : Prop :=
  if procedure = "if" then count = 3
  else analysis.isProcedure procedure = true ∨
    ∃ builtin, Builtin.ofName? procedure = some builtin ∧ builtin.arity.check count = .ok ()

/-- A variable is in scope, or some caller or some top-level definition may bind it. -/
def Knows (analysis : Analysis) (names : List String) (name : String) : Prop :=
  name ∈ names ∨ analysis.isDynamic name = true ∨ analysis.isGlobal name = true

end Analysis

mutual

/-- The expression passes every check that needs no run. -/
def Expression.Checked (analysis : Analysis) (names : List String) : Expression → Prop
  | .constant literal => ∃ datum, Datum.ofLiteral literal = .ok datum
  | .quotation quoted => ∃ datum, Datum.ofQuoted quoted = .ok datum
  | .identifier name => analysis.Knows names name
  | .application procedure operands =>
      analysis.Fits procedure operands.length ∧ Expression.AllChecked analysis names operands

def Expression.AllChecked (analysis : Analysis) (names : List String) : List Expression → Prop
  | [] => True
  | expression :: rest => expression.Checked analysis names ∧ AllChecked analysis names rest

end

/-- Each internal variable is checked where the ones before it are in scope. -/
def Procedure.ValuesChecked (analysis : Analysis) :
    List String → List (String × Expression) → Prop
  | _, [] => True
  | names, (name, value) :: rest =>
      value.Checked analysis names ∧ ValuesChecked analysis (names ++ [name]) rest

/-- The internal variables, the effects and the result of a procedure pass the checks, each in its
scope. -/
structure Procedure.Checked (analysis : Analysis) (procedure : Procedure) : Prop where
  values : ValuesChecked analysis procedure.params procedure.values
  effects : Expression.AllChecked analysis procedure.locals procedure.effects
  body : procedure.body.Checked analysis procedure.locals

namespace Compiler

variable {analysis : Analysis} {functions : List Code.Function} {names : List String}

/-- A variable with code is known wherever its scope is. -/
theorem knows_of_identifier {scope : Scope} {name : String} {code : Code.Expr}
    (made : identifier analysis scope name = .ok code) (contained : scope.names ⊆ names) :
    analysis.Knows names name := by
  unfold identifier at made
  split at made
  · rename_i place found
    exact .inl (contained ((scope.lookup_isSome_iff name).mp (by rw [found]; rfl)))
  · split at made
    · exact .inr (.inl ‹_›)
    · split at made
      · exact .inr (.inr ‹_›)
      · cases made

/-- A conditional passes the checks if all its parts do. -/
theorem checked_conditional {condition consequent alternative : Expression}
    (tests : condition.Checked analysis names) (holds : consequent.Checked analysis names)
    (fails : alternative.Checked analysis names) :
    (Expression.application "if" [condition, consequent, alternative]).Checked analysis names := by
  refine ⟨?_, tests, holds, fails, trivial⟩
  rw [Analysis.Fits, if_pos rfl]
  rfl

mutual

/-- An expression with code passes the checks in every scope that binds as much. -/
theorem Emits.checked {scope : Scope} {expression : Expression} {code : Code.Expr}
    (emits : Emits analysis functions scope expression code) (contained : scope.names ⊆ names) :
    expression.Checked analysis names := by
  cases emits with
  | constant made =>
      obtain ⟨datum, read, _⟩ := evaluate_constant made
      exact ⟨datum, read⟩
  | quotation made =>
      obtain ⟨datum, read, _⟩ := evaluate_quoted made
      exact ⟨datum, read⟩
  | identifier made => exact knows_of_identifier made contained
  | conditional found tests holds fails =>
      -- The function of a conditional has the visible names of its scope as parameters.
      have inside : (Scope.parameters scope.visible).names ⊆ names := by
        intro name member
        rw [Scope.names_parameters, Scope.mem_visible] at member
        exact contained member
      exact checked_conditional (tests.checked inside) (holds.checked inside) (fails.checked inside)
  | call named known emits =>
      refine ⟨?_, emits.checked contained⟩
      rw [Analysis.Fits, if_neg named]
      exact .inl known
  | host named undefined predefined accepted emits =>
      refine ⟨?_, emits.checked contained⟩
      rw [Analysis.Fits, if_neg named]
      exact .inr ⟨_, predefined, accepted⟩

/-- A result with code passes the checks in every scope that binds as much. -/
theorem EmitsTail.checked {scope : Scope} {expression : Expression} {code : Code.Tail}
    (emits : EmitsTail analysis functions scope expression code)
    (contained : scope.names ⊆ names) : expression.Checked analysis names := by
  cases emits with
  | value emits => exact emits.checked contained
  | branch tests holds fails =>
      exact checked_conditional (tests.checked contained) (holds.checked contained)
        (fails.checked contained)

/-- Expressions with code pass the checks in every scope that binds as much. -/
theorem EmitsAll.checked {scope : Scope} {expressions : List Expression} {codes : List Code.Expr}
    (emits : EmitsAll analysis functions scope expressions codes)
    (contained : scope.names ⊆ names) : Expression.AllChecked analysis names expressions := by
  cases emits with
  | nil => trivial
  | cons emits emitsRest => exact ⟨emits.checked contained, emitsRest.checked contained⟩

end

/-- Internal variables with code pass the checks. -/
theorem EmitsValues.checked {scope : Scope} {values : List (String × Expression)}
    {steps : List Code.Step} (emits : EmitsValues analysis functions scope values steps) :
    Procedure.ValuesChecked analysis scope.names values := by
  induction emits with
  | nil => trivial
  | @cons scope name value code rest steps emits emitsRest ih =>
      rw [Scope.names_bind] at ih
      exact ⟨emits.checked (List.Subset.refl _), ih⟩

/-- The code of a procedure passes the checks, also where it is compiled as a loop. The loop of a
procedure named `if` has no call of it, since the name stands for the conditional. -/
theorem EmitsBody.checked {procedure : Procedure} {code : Code.Body}
    (emits : EmitsBody analysis functions procedure code) (named : procedure.name ≠ "if")
    (known : analysis.isProcedure procedure.name = true) : procedure.Checked analysis := by
  cases emits with
  | plain emitsValues emitsEffects emitsResult =>
      have inside : (procedure.scopeAfter procedure.values.length).names ⊆ procedure.locals := by
        rw [Procedure.scopeAfter_all]
        exact List.Subset.refl _
      refine ⟨?_, emitsEffects.checked inside, emitsResult.checked inside⟩
      have values := emitsValues.checked
      rwa [Scope.names_parameters] at values
  | @loop plan condition updates exit planned concealed tests renews exits =>
      obtain ⟨definitions, effects, body, _⟩ := Procedure.loopPlan?_eq_some planned
      have values : procedure.values = [] := by rw [Procedure.values, definitions]; rfl
      have inside : (Scope.slots procedure.params).names ⊆ procedure.locals := by
        rw [Scope.names_slots, Procedure.locals]
        exact List.subset_append_left _ _
      have again : (procedure.selfCall plan).Checked analysis procedure.locals := by
        refine ⟨?_, renews.checked inside⟩
        rw [Analysis.Fits, if_neg named]
        exact .inl known
      refine ⟨by rw [values]; trivial, by rw [effects]; trivial, ?_⟩
      rw [body]
      split
      · exact checked_conditional (tests.checked inside) (exits.checked inside) again
      · exact checked_conditional (tests.checked inside) again (exits.checked inside)

/-- A procedure with code to bind it passes the checks if it can be called. -/
theorem checked_of_binds {procedures : List Procedure} {statements : List Code.Statement}
    (binds : List.Forall₂ (Binds analysis functions) procedures statements) :
    ∀ procedure ∈ procedures, procedure.name ≠ "if" →
      analysis.isProcedure procedure.name = true → procedure.Checked analysis := by
  induction binds with
  | nil => exact fun _ member => absurd member List.not_mem_nil
  | cons bound _ ih =>
      refine List.forall_mem_cons.mpr ⟨?_, ih⟩
      obtain ⟨_, _, _, _, emits⟩ := bound
      exact emits.checked

/-- The top-level expressions and the callable procedures of the forms pass the checks. -/
structure FormsChecked (analysis : Analysis) (expressions : List Expression)
    (definitions : List Definition) : Prop where
  expressions : ∀ expression ∈ expressions, expression.Checked analysis []
  procedures : ∀ procedure ∈ Definition.allNested definitions, procedure.name ≠ "if" →
    analysis.isProcedure procedure.name = true → procedure.Checked analysis

mutual

/-- What a form with code evaluates and defines passes the checks. -/
theorem EmitsForm.checked {kinds later : List (String × Kind)} {form : Form}
    {statements : List Code.Statement}
    (emits : EmitsForm analysis functions kinds form statements later) :
    FormsChecked analysis (topExpressions form) form.definitions := by
  cases emits with
  | expression emits =>
      refine ⟨?_, fun _ member => absurd member List.not_mem_nil⟩
      exact List.forall_mem_singleton.mpr (emits.checked (List.Subset.refl _))
  | value emits =>
      refine ⟨?_, fun _ member => absurd member List.not_mem_nil⟩
      exact List.forall_mem_singleton.mpr (emits.checked (List.Subset.refl _))
  | procedure binds =>
      refine ⟨fun _ member => absurd member List.not_mem_nil, ?_⟩
      intro procedure member
      rw [Form.definitions, Definition.allNested, Definition.allNested, List.append_nil] at member
      exact checked_of_binds binds procedure member
  | begin emits => exact emits.checked

/-- What a program with code evaluates and defines passes the checks. -/
theorem EmitsForms.checked {kinds later : List (String × Kind)} {forms : List Form}
    {statements : List Code.Statement}
    (emits : EmitsForms analysis functions kinds forms statements later) :
    FormsChecked analysis (allTopExpressions forms) (Form.allDefinitions forms) := by
  cases emits with
  | nil =>
      exact ⟨fun _ member => absurd member List.not_mem_nil,
        fun _ member => absurd member List.not_mem_nil⟩
  | cons emits emitsRest =>
      have head := emits.checked
      have tail := emitsRest.checked
      constructor
      · intro expression member
        rcases List.mem_append.mp member with first | later
        · exact head.expressions expression first
        · exact tail.expressions expression later
      · intro procedure member
        rw [Form.allDefinitions, Definition.allNested_append] at member
        rcases List.mem_append.mp member with first | later
        · exact head.procedures procedure first
        · exact tail.procedures procedure later

end

end Compiler

end SmallScheme
