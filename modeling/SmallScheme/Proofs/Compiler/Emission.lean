/-
This file says which code computes which expression, and shows that the compiler makes such code.
-/

import SmallScheme.Machine.Run
import SmallScheme.Proofs.Compiler.Scope

namespace SmallScheme

namespace Compiler

mutual

/-- The code computes the expression from the places of the scope. A conditional has its function
among the given ones. -/
inductive Emits (analysis : Analysis) (functions : List Code.Function) :
    Scope → Expression → Code.Expr → Prop
  | constant {scope : Scope} {literal : Literal} {code : Code.Expr}
      (made : constant literal = .ok code) :
      Emits analysis functions scope (.constant literal) code
  | quotation {scope : Scope} {datum : Quoted} {code : Code.Expr} (made : quoted datum = .ok code) :
      Emits analysis functions scope (.quotation datum) code
  | identifier {scope : Scope} {name : String} {code : Code.Expr}
      (made : identifier analysis scope name = .ok code) :
      Emits analysis functions scope (.identifier name) code
  | conditional {scope : Scope} {index : Nat} {condition consequent alternative : Expression}
      {test : Code.Expr} {first second : Code.Tail}
      (found : Machine.conditional? functions index =
        some (scope.visible, .branch test first second))
      (tests : Emits analysis functions (.parameters scope.visible) condition test)
      (holds : EmitsTail analysis functions (.parameters scope.visible) consequent first)
      (fails : EmitsTail analysis functions (.parameters scope.visible) alternative second) :
      Emits analysis functions scope (.application "if" [condition, consequent, alternative])
        (.conditional index (visibleReads scope))
  | call {scope : Scope} {procedure : String} {operands : List Expression}
      {arguments : List Code.Expr} (named : procedure ≠ "if")
      (known : analysis.isProcedure procedure = true)
      (emits : EmitsAll analysis functions scope operands arguments) :
      Emits analysis functions scope (.application procedure operands) (.call procedure arguments)
  | host {scope : Scope} {procedure : String} {builtin : Builtin} {operands : List Expression}
      {arguments : List Code.Expr} (named : procedure ≠ "if")
      (undefined : analysis.isProcedure procedure = false)
      (predefined : Builtin.ofName? procedure = some builtin)
      (accepted : builtin.arity.check operands.length = .ok ())
      (emits : EmitsAll analysis functions scope operands arguments) :
      Emits analysis functions scope (.application procedure operands) (.host builtin arguments)

/-- The code computes the expression as a result, where a conditional may be a branch. -/
inductive EmitsTail (analysis : Analysis) (functions : List Code.Function) :
    Scope → Expression → Code.Tail → Prop
  | value {scope : Scope} {expression : Expression} {code : Code.Expr}
      (emits : Emits analysis functions scope expression code) :
      EmitsTail analysis functions scope expression (.value code)
  | branch {scope : Scope} {condition consequent alternative : Expression}
      {test : Code.Expr} {first second : Code.Tail}
      (tests : Emits analysis functions scope condition test)
      (holds : EmitsTail analysis functions scope consequent first)
      (fails : EmitsTail analysis functions scope alternative second) :
      EmitsTail analysis functions scope (.application "if" [condition, consequent, alternative])
        (.branch test first second)

/-- The codes compute the expressions one by one. -/
inductive EmitsAll (analysis : Analysis) (functions : List Code.Function) :
    Scope → List Expression → List Code.Expr → Prop
  | nil {scope : Scope} : EmitsAll analysis functions scope [] []
  | cons {scope : Scope} {expression : Expression} {code : Code.Expr} {rest : List Expression}
      {others : List Code.Expr} (emits : Emits analysis functions scope expression code)
      (emitsRest : EmitsAll analysis functions scope rest others) :
      EmitsAll analysis functions scope (expression :: rest) (code :: others)

end

/-- The steps bind the internal variables, each from the scope of the ones before it, and publish
the dynamic ones. -/
inductive EmitsValues (analysis : Analysis) (functions : List Code.Function) :
    Scope → List (String × Expression) → List Code.Step → Prop
  | nil {scope : Scope} : EmitsValues analysis functions scope [] []
  | cons {scope : Scope} {name : String} {value : Expression} {code : Code.Expr}
      {rest : List (String × Expression)} {steps : List Code.Step}
      (emits : Emits analysis functions scope value code)
      (emitsRest : EmitsValues analysis functions (scope.bind name) rest steps) :
      EmitsValues analysis functions scope ((name, value) :: rest)
        (.bind name code :: publishIf analysis name ++ steps)

/-- A procedure runs its parts in order, or it runs as the loop of its plan. -/
inductive EmitsBody (analysis : Analysis) (functions : List Code.Function)
    (procedure : Procedure) : Code.Body → Prop
  | plain {values : List Code.Step} {effects : List Code.Expr} {result : Code.Tail}
      (emitsValues : EmitsValues analysis functions (.parameters procedure.params)
        procedure.values values)
      (emitsEffects : EmitsAll analysis functions (procedure.scopeAfter procedure.values.length)
        procedure.effects effects)
      (emitsResult : EmitsTail analysis functions (procedure.scopeAfter procedure.values.length)
        procedure.body result) :
      EmitsBody analysis functions procedure
        (.plain (.unpack (pattern procedure.params) :: frameSteps analysis procedure ++ values ++
          effects.map .effect) result)
  | loop {plan : LoopPlan} {condition : Code.Expr} {updates : List Code.Expr} {exit : Code.Tail}
      (planned : procedure.loopPlan? = some plan)
      (concealed : analysis.publishes procedure = false)
      (tests : Emits analysis functions (.slots procedure.params) plan.condition condition)
      (renews : EmitsAll analysis functions (.slots procedure.params) plan.updates updates)
      (exits : EmitsTail analysis functions (.slots procedure.params) plan.exit exit) :
      EmitsBody analysis functions procedure
        (.loop procedure.params.length plan.negated condition updates exit)

/-- The number under which a function is found. -/
def functionIndex : Code.Function → Nat
  | .procedure _ index _ => index
  | .conditional index _ _ => index

/-- A conditional is found under its number, which no other function has. -/
theorem conditional?_of_mem {functions : List Code.Function} {index : Nat} {params : List String}
    {result : Code.Tail} (unique : (functions.map functionIndex).Nodup)
    (member : .conditional index params result ∈ functions) :
    Machine.conditional? functions index = some (params, result) := by
  unfold Machine.conditional?
  induction functions with
  | nil => exact absurd member List.not_mem_nil
  | cons function rest ih =>
      rw [List.map_cons, List.nodup_cons] at unique
      rw [List.findSome?_cons]
      rcases List.mem_cons.mp member with rfl | later
      · simp
      · have differs : functionIndex function ≠ index :=
          fun same => unique.1 (same ▸ List.mem_map_of_mem later)
        cases function with
        | procedure name number body => exact ih unique.2 later
        | conditional number names code =>
            rw [functionIndex] at differs
            simp only [if_neg differs]
            exact ih unique.2 later

/-- A definition is found under its number, which no other function has. -/
theorem definition?_of_mem {functions : List Code.Function} {name : String} {index : Nat}
    {body : Code.Body} (unique : (functions.map functionIndex).Nodup)
    (member : .procedure name index body ∈ functions) :
    Machine.definition? functions name index = some body := by
  unfold Machine.definition?
  induction functions with
  | nil => exact absurd member List.not_mem_nil
  | cons function rest ih =>
      rw [List.map_cons, List.nodup_cons] at unique
      rw [List.findSome?_cons]
      rcases List.mem_cons.mp member with rfl | later
      · simp
      · have differs : functionIndex function ≠ index :=
          fun same => unique.1 (same ▸ List.mem_map_of_mem later)
        cases function with
        | procedure declared number code =>
            rw [functionIndex] at differs
            simp only [decide_eq_false differs, Bool.and_false, Bool.false_eq_true, if_false]
            exact ih unique.2 later
        | conditional number names code => exact ih unique.2 later

/-- New functions stand after the old ones, with numbers that were fresh. -/
structure Extends (before after : Code) : Prop where
  counted : before.freshCount ≤ after.freshCount
  functions : ∃ made, after.functions = before.functions ++ made ∧
    (made.map functionIndex).Nodup ∧ ∀ function ∈ made,
      before.freshCount ≤ functionIndex function ∧ functionIndex function < after.freshCount

/-- Code with the same functions and numbers counts as extended by nothing. -/
theorem Extends.of_eq {before after : Code} (functions : after.functions = before.functions)
    (counted : after.freshCount = before.freshCount) : Extends before after where
  counted := by omega
  functions := ⟨[], by rw [functions, List.append_nil], List.nodup_nil,
    fun _ member => absurd member List.not_mem_nil⟩

/-- Extensions of the code can follow one another. -/
theorem Extends.trans {first second third : Code} (left : Extends first second)
    (right : Extends second third) : Extends first third := by
  obtain ⟨early, earlyAdded, earlyUnique, earlyFresh⟩ := left.functions
  obtain ⟨late, lateAdded, lateUnique, lateFresh⟩ := right.functions
  have leftCounted := left.counted
  have rightCounted := right.counted
  refine ⟨by omega, early ++ late, ?_, ?_, ?_⟩
  · rw [lateAdded, earlyAdded, List.append_assoc]
  · rw [List.map_append, List.nodup_append]
    refine ⟨earlyUnique, lateUnique, ?_⟩
    intro number inEarly other inLate
    obtain ⟨function, member, rfl⟩ := List.mem_map.mp inEarly
    obtain ⟨laterFunction, laterMember, rfl⟩ := List.mem_map.mp inLate
    have below := (earlyFresh function member).2
    have above := (lateFresh laterFunction laterMember).1
    omega
  · intro function member
    rcases List.mem_append.mp member with inEarly | inLate
    · have fresh := earlyFresh function inEarly
      omega
    · have fresh := lateFresh function inLate
      omega

/-- No function is lost. -/
theorem Extends.subset {before after : Code} (extended : Extends before after) :
    before.functions ⊆ after.functions := by
  obtain ⟨made, added, _, _⟩ := extended.functions
  rw [added]
  exact List.subset_append_left before.functions made

/-- A function may be declared after the code inside it, under a number taken before. -/
theorem Extends.declareFunction {before after : Code} {function : Code.Function}
    (inside : Extends before.fresh.2 after)
    (numbered : functionIndex function = before.freshCount) :
    Extends before (after.declareFunction function) := by
  obtain ⟨made, added, unique, fresh⟩ := inside.functions
  have counted : before.freshCount + 1 ≤ after.freshCount := inside.counted
  have later (other : Code.Function) (member : other ∈ made) :
      before.freshCount + 1 ≤ functionIndex other ∧ functionIndex other < after.freshCount :=
    fresh other member
  refine ⟨Nat.le_of_succ_le counted, made ++ [function], ?_, ?_, ?_⟩
  · change after.functions ++ [function] = before.functions ++ (made ++ [function])
    rw [added, List.append_assoc]
    rfl
  · rw [List.map_append, List.nodup_append]
    refine ⟨unique, by simp, ?_⟩
    intro number inMade other inLast
    obtain ⟨earlier, member, rfl⟩ := List.mem_map.mp inMade
    obtain rfl : other = functionIndex function := List.mem_singleton.mp inLast
    have above := (later earlier member).1
    omega
  · intro other member
    change before.freshCount ≤ functionIndex other ∧ functionIndex other < after.freshCount
    rcases List.mem_append.mp member with inMade | inLast
    · have bounds := later other inMade
      omega
    · obtain rfl : other = function := List.mem_singleton.mp inLast
      omega

/-- Only functions are added. -/
structure Quiet (before after : Code) : Prop extends Extends before after where
  main : after.main = before.main
  globals : after.globals = before.globals
  procedures : after.procedures = before.procedures

theorem Quiet.refl (code : Code) : Quiet code code :=
  ⟨.of_eq rfl rfl, rfl, rfl, rfl⟩

/-- Only functions are added in two stages that add only functions. -/
theorem Quiet.trans {first second third : Code} (left : Quiet first second)
    (right : Quiet second third) : Quiet first third :=
  ⟨left.toExtends.trans right.toExtends, right.main.trans left.main,
    right.globals.trans left.globals, right.procedures.trans left.procedures⟩

/-- The code between two states satisfies a condition on the functions of every program that goes
on from there. -/
structure Yields (before after : Code) (condition : List Code.Function → Prop) : Prop where
  quiet : Quiet before after
  holds : ∀ functions, (functions.map functionIndex).Nodup → after.functions ⊆ functions →
    condition functions

/-- What an earlier stage yields is kept while only functions are added. -/
theorem Yields.earlier {before middle after : Code} {condition : List Code.Function → Prop}
    (yields : Yields before middle condition) (quiet : Quiet middle after) :
    Yields before after condition where
  quiet := yields.quiet.trans quiet
  holds functions unique contained :=
    yields.holds functions unique (List.Subset.trans quiet.subset contained)

/-- A result from outside the generator leaves the code as it is. -/
theorem lift_eq_ok {A : Type} {result : Except RunError A} {before after : Code} {value : A}
    (made : (liftM result : Generate A) before = .ok (value, after)) :
    result = .ok value ∧ before = after := by
  cases result with
  | error error => exact nomatch made
  | ok given =>
      obtain ⟨rfl, rfl⟩ : given = value ∧ before = after := by
        simpa using (Except.ok.inj made : (given, before) = (value, after))
      exact ⟨rfl, rfl⟩

section Yields

variable {analysis : Analysis} {scope : Scope} {before after : Code}

/-- An application has code if its operands have. -/
theorem yields_application {procedure : String} {operands : List Expression} {code : Code.Expr}
    (named : procedure ≠ "if")
    (made : application analysis procedure operands.length (expressions analysis scope operands)
      before = .ok (code, after))
    (operandsMade : ∀ arguments, expressions analysis scope operands before =
      .ok (arguments, after) → Yields before after (EmitsAll analysis · scope operands arguments)) :
    Yields before after (Emits analysis · scope (.application procedure operands) code) := by
  unfold application at made
  split at made
  · rename_i known
    obtain ⟨arguments, middle, given, ended⟩ := bind_eq_ok made
    cases ended
    have yields := operandsMade arguments given
    exact ⟨yields.quiet, fun functions unique contained =>
      .call named known (yields.holds functions unique contained)⟩
  · rename_i unknown
    cases predefined : Builtin.ofName? procedure with
    | none =>
        rw [predefined] at made
        exact nomatch made
    | some builtin =>
      rw [predefined] at made
      obtain ⟨_, middle, checked, made⟩ := bind_eq_ok made
      obtain ⟨accepted, rfl⟩ := lift_eq_ok checked
      obtain ⟨arguments, middle, given, ended⟩ := bind_eq_ok made
      cases ended
      have yields := operandsMade arguments given
      have undefined : analysis.isProcedure procedure = false := by simpa using unknown
      exact ⟨yields.quiet, fun functions unique contained =>
        .host named undefined predefined accepted (yields.holds functions unique contained)⟩

/-- The function of a conditional is declared after its parts. -/
theorem yields_conditional {second third : Code} {condition consequent alternative : Expression}
    {test : Code.Expr} {first other : Code.Tail}
    (tests : Yields before.fresh.2 second
      (Emits analysis · (.parameters scope.visible) condition test))
    (holds : Yields second third
      (EmitsTail analysis · (.parameters scope.visible) consequent first))
    (fails : Yields third after
      (EmitsTail analysis · (.parameters scope.visible) alternative other)) :
    Yields before (after.declareFunction
        (.conditional before.freshCount scope.visible (.branch test first other)))
      (Emits analysis · scope (.application "if" [condition, consequent, alternative])
        (.conditional before.freshCount (visibleReads scope))) := by
  have inside := tests.quiet.trans (holds.quiet.trans fails.quiet)
  refine ⟨⟨inside.toExtends.declareFunction rfl, inside.main, inside.globals,
    inside.procedures⟩, ?_⟩
  intro functions unique contained
  have declared : after.functions ⊆ functions :=
    List.Subset.trans (List.subset_append_left _ _) contained
  have member : Code.Function.conditional before.freshCount scope.visible
      (.branch test first other) ∈ functions :=
    contained (List.mem_append_right _ (List.mem_singleton_self _))
  refine .conditional (conditional?_of_mem unique member) ?_ ?_ ?_
  · exact (tests.earlier (holds.quiet.trans fails.quiet)).holds functions unique declared
  · exact (holds.earlier fails.quiet).holds functions unique declared
  · exact fails.holds functions unique declared

/-- A branch has code if its condition and both its results have. -/
theorem yields_branch {second third : Code} {condition consequent alternative : Expression}
    {test : Code.Expr} {first other : Code.Tail}
    (tests : Yields before second (Emits analysis · scope condition test))
    (holds : Yields second third (EmitsTail analysis · scope consequent first))
    (fails : Yields third after (EmitsTail analysis · scope alternative other)) :
    Yields before after (EmitsTail analysis · scope
      (.application "if" [condition, consequent, alternative]) (.branch test first other)) := by
  refine ⟨tests.quiet.trans (holds.quiet.trans fails.quiet), ?_⟩
  intro functions unique contained
  refine .branch ?_ ?_ (fails.holds functions unique contained)
  · exact (tests.earlier (holds.quiet.trans fails.quiet)).holds functions unique contained
  · exact (holds.earlier fails.quiet).holds functions unique contained

/-- The code of an expression serves as that of a result. -/
theorem yields_value {source : Expression} {code : Code.Expr}
    (yields : Yields before after (Emits analysis · scope source code)) :
    Yields before after (EmitsTail analysis · scope source (.value code)) :=
  ⟨yields.quiet, fun functions unique contained =>
    .value (yields.holds functions unique contained)⟩

mutual

/-- The generator makes code that computes the expression. -/
theorem yields_expression {analysis : Analysis} {scope : Scope} {before after : Code}
    {source : Expression} {code : Code.Expr}
    (made : expression analysis scope source before = .ok (code, after)) :
    Yields before after (Emits analysis · scope source code) := by
  cases source with
  | constant literal =>
      obtain ⟨given, rfl⟩ := lift_eq_ok made
      exact ⟨.refl _, fun _ _ _ => .constant given⟩
  | quotation datum =>
      obtain ⟨given, rfl⟩ := lift_eq_ok made
      exact ⟨.refl _, fun _ _ _ => .quotation given⟩
  | identifier name =>
      obtain ⟨given, rfl⟩ := lift_eq_ok made
      exact ⟨.refl _, fun _ _ _ => .identifier given⟩
  | application procedure operands =>
      unfold expression at made
      split at made
      · rename_i named
        subst named
        split at made
        · obtain ⟨index, numbered, taken, made⟩ := bind_eq_ok made
          cases taken
          obtain ⟨test, second, tested, made⟩ := bind_eq_ok made
          obtain ⟨first, third, held, made⟩ := bind_eq_ok made
          obtain ⟨other, fourth, failed, made⟩ := bind_eq_ok made
          cases made
          exact yields_conditional (yields_expression tested) (yields_tail held) (yields_tail failed)
        · exact nomatch made
      · rename_i named
        exact yields_application named made fun _ given => yields_expressions given

/-- The generator makes code that computes the expression as a result. -/
theorem yields_tail {analysis : Analysis} {scope : Scope} {before after : Code}
    {source : Expression} {code : Code.Tail}
    (made : tail analysis scope source before = .ok (code, after)) :
    Yields before after (EmitsTail analysis · scope source code) := by
  cases source with
  | application procedure operands =>
      unfold tail at made
      split at made
      · rename_i named
        subst named
        split at made
        · obtain ⟨test, second, tested, made⟩ := bind_eq_ok made
          obtain ⟨first, third, held, made⟩ := bind_eq_ok made
          obtain ⟨other, fourth, failed, made⟩ := bind_eq_ok made
          cases made
          exact yields_branch (yields_expression tested) (yields_tail held) (yields_tail failed)
        · exact nomatch made
      · rename_i named
        obtain ⟨value, middle, applied, made⟩ := bind_eq_ok made
        cases made
        exact yields_value (yields_application named applied fun _ given => yields_expressions given)
  | constant literal =>
      obtain ⟨value, middle, lifted, made⟩ := bind_eq_ok made
      cases made
      obtain ⟨given, rfl⟩ := lift_eq_ok lifted
      exact yields_value ⟨.refl _, fun _ _ _ => .constant given⟩
  | quotation datum =>
      obtain ⟨value, middle, lifted, made⟩ := bind_eq_ok made
      cases made
      obtain ⟨given, rfl⟩ := lift_eq_ok lifted
      exact yields_value ⟨.refl _, fun _ _ _ => .quotation given⟩
  | identifier name =>
      obtain ⟨value, middle, lifted, made⟩ := bind_eq_ok made
      cases made
      obtain ⟨given, rfl⟩ := lift_eq_ok lifted
      exact yields_value ⟨.refl _, fun _ _ _ => .identifier given⟩

/-- The generator makes codes that compute the expressions. -/
theorem yields_expressions {analysis : Analysis} {scope : Scope} {before after : Code}
    {sources : List Expression} {codes : List Code.Expr}
    (made : expressions analysis scope sources before = .ok (codes, after)) :
    Yields before after (EmitsAll analysis · scope sources codes) := by
  cases sources with
  | nil =>
      cases made
      exact ⟨.refl _, fun _ _ _ => .nil⟩
  | cons source rest =>
      obtain ⟨code, middle, first, made⟩ := bind_eq_ok made
      obtain ⟨others, last, second, made⟩ := bind_eq_ok made
      cases made
      have head := yields_expression first
      have tail := yields_expressions second
      refine ⟨head.quiet.trans tail.quiet, fun functions unique contained => ?_⟩
      exact .cons ((head.earlier tail.quiet).holds functions unique contained)
        (tail.holds functions unique contained)

end

/-- The generator makes steps that bind the internal variables. -/
theorem yields_values {values : List (String × Expression)} {steps : List Code.Step} {last : Scope}
    (made : valueSteps analysis scope values before = .ok ((steps, last), after)) :
    Yields before after (EmitsValues analysis · scope values steps) := by
  induction values generalizing scope before steps with
  | nil =>
      cases made
      exact ⟨.refl _, fun _ _ _ => .nil⟩
  | cons definition rest ih =>
      obtain ⟨name, value⟩ := definition
      obtain ⟨code, middle, evaluated, made⟩ := bind_eq_ok made
      obtain ⟨⟨others, final⟩, ended, tail, made⟩ := bind_eq_ok made
      cases made
      have head := yields_expression evaluated
      have later := ih tail
      refine ⟨head.quiet.trans later.quiet, fun functions unique contained => ?_⟩
      exact .cons ((head.earlier later.quiet).holds functions unique contained)
        (later.holds functions unique contained)

/-- The generator makes a plain body that runs the parts of the procedure. -/
theorem yields_plainBody {procedure : Procedure} {code : Code.Body}
    (made : plainBody analysis procedure before = .ok (code, after)) :
    Yields before after (EmitsBody analysis · procedure code) := by
  obtain ⟨⟨values, scope⟩, second, bound, made⟩ := bind_eq_ok made
  obtain ⟨effects, third, run, made⟩ := bind_eq_ok made
  obtain ⟨result, fourth, returned, made⟩ := bind_eq_ok made
  cases made
  have reached : scope = procedure.scopeAfter procedure.values.length := by
    rw [scope_of_valueSteps bound, Procedure.scopeAfter, List.take_length]
  subst reached
  have first := yields_values bound
  have middle := yields_expressions run
  have last := yields_tail returned
  refine ⟨first.quiet.trans (middle.quiet.trans last.quiet), fun functions unique contained => ?_⟩
  refine .plain ?_ ?_ (last.holds functions unique contained)
  · exact (first.earlier (middle.quiet.trans last.quiet)).holds functions unique contained
  · exact (middle.earlier last.quiet).holds functions unique contained

/-- The generator makes a loop that runs the plan of the procedure. -/
theorem yields_loopBody {procedure : Procedure} {plan : LoopPlan} {code : Code.Body}
    (planned : procedure.loopPlan? = some plan) (concealed : analysis.publishes procedure = false)
    (made : loopBody analysis procedure plan before = .ok (code, after)) :
    Yields before after (EmitsBody analysis · procedure code) := by
  obtain ⟨condition, second, tested, made⟩ := bind_eq_ok made
  obtain ⟨updates, third, renewed, made⟩ := bind_eq_ok made
  obtain ⟨exit, fourth, exited, made⟩ := bind_eq_ok made
  cases made
  have first := yields_expression tested
  have middle := yields_expressions renewed
  have last := yields_tail exited
  refine ⟨first.quiet.trans (middle.quiet.trans last.quiet), fun functions unique contained => ?_⟩
  refine .loop planned concealed ?_ ?_ (last.holds functions unique contained)
  · exact (first.earlier (middle.quiet.trans last.quiet)).holds functions unique contained
  · exact (middle.earlier last.quiet).holds functions unique contained

/-- The generator makes a body for the procedure, a loop where there is a plan that it may follow. -/
theorem yields_body {procedure : Procedure} {code : Code.Body}
    (made : body analysis procedure before = .ok (code, after)) :
    Yields before after (EmitsBody analysis · procedure code) := by
  unfold body at made
  cases planned : procedure.loopPlan? with
  | none =>
      rw [planned] at made
      exact yields_plainBody made
  | some plan =>
      rw [planned] at made
      cases concealed : analysis.publishes procedure with
      | false =>
          simp only [concealed] at made
          exact yields_loopBody planned concealed made
      | true =>
          simp only [concealed] at made
          exact yields_plainBody made

end Yields

end Compiler

end SmallScheme
