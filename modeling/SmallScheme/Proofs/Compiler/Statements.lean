/-
This file says which statements carry out the forms of a program, and shows that the compiler makes
such statements.
-/

import Mathlib.Data.List.Forall2
import SmallScheme.Proofs.Compiler.Emission
import SmallScheme.Proofs.Session.Register

namespace SmallScheme.Compiler

/-- The statement binds the name of the procedure to code that computes the procedure. -/
def Binds (analysis : Analysis) (functions : List Code.Function) (procedure : Procedure)
    (statement : Code.Statement) : Prop :=
  ∃ index body, statement = .bind procedure.name index ∧
    Machine.definition? functions procedure.name index = some body ∧
      EmitsBody analysis functions procedure body

/-- The kind of a global that is defined after the given ones. -/
def kindAfter (kinds : List (String × Kind)) (value : Expression) : Kind :=
  kindOf { Assembly.empty with globals := kinds } value

/-- The kind of a global depends on the globals declared before it and on nothing else. -/
theorem kindOf_eq_kindAfter (code : Code) (value : Expression) :
    kindOf code value = kindAfter code.globals value := by
  cases value with
  | constant literal => cases literal <;> rfl
  | _ => rfl

mutual

/-- The statements carry out the form. The declared kinds of the globals go from the first ones to
the second ones. -/
inductive EmitsForm (analysis : Analysis) (functions : List Code.Function) :
    List (String × Kind) → Form → List Code.Statement → List (String × Kind) → Prop
  | expression {kinds : List (String × Kind)} {value : Expression} {code : Code.Expr}
      (emits : Emits analysis functions .empty value code) :
      EmitsForm analysis functions kinds (.expression value) [.evaluate code] kinds
  | value {kinds : List (String × Kind)} {name : String} {value : Expression} {code : Code.Expr}
      (emits : Emits analysis functions .empty value code) :
      EmitsForm analysis functions kinds (.definition (.value name value)) [.define name code]
        (Assembly.declareKind name (kindAfter kinds value) kinds)
  | procedure {kinds : List (String × Kind)} {procedure : Procedure}
      {statements : List Code.Statement}
      (binds : List.Forall₂ (Binds analysis functions) procedure.nested statements) :
      EmitsForm analysis functions kinds (.definition (.procedure procedure)) statements kinds
  | begin {kinds later : List (String × Kind)} {forms : List Form}
      {statements : List Code.Statement}
      (emits : EmitsForms analysis functions kinds forms statements later) :
      EmitsForm analysis functions kinds (.begin forms) statements later

/-- The statements carry out the forms one after the other. -/
inductive EmitsForms (analysis : Analysis) (functions : List Code.Function) :
    List (String × Kind) → List Form → List Code.Statement → List (String × Kind) → Prop
  | nil {kinds : List (String × Kind)} : EmitsForms analysis functions kinds [] [] kinds
  | cons {kinds middle last : List (String × Kind)} {form : Form} {rest : List Form}
      {first others : List Code.Statement}
      (emits : EmitsForm analysis functions kinds form first middle)
      (emitsRest : EmitsForms analysis functions middle rest others last) :
      EmitsForms analysis functions kinds (form :: rest) (first ++ others) last

end

/-- The names of the declared procedures. -/
def declaredNames (code : Code) : List String :=
  code.procedures.map Prod.fst

/-- Every declared procedure starts as the predefined one of its name. -/
def DeclaresPredefined (code : Code) : Prop :=
  ∀ entry ∈ code.procedures, entry.2 = Builtin.ofName? entry.1

/-- The code between two states ends the main statements with the given ones, declares procedures of
the given names, and satisfies a condition on the functions of every program that goes on from
there. -/
structure Appends (before after : Code) (statements : List Code.Statement) (names : List String)
    (condition : List Code.Function → Prop) : Prop extends Extends before after where
  main : after.main = before.main ++ statements
  kept : declaredNames before ⊆ declaredNames after
  declared : names ⊆ declaredNames after
  unique : (declaredNames before).Nodup → (declaredNames after).Nodup
  predefined : DeclaresPredefined before → DeclaresPredefined after
  holds : ∀ functions, (functions.map functionIndex).Nodup → after.functions ⊆ functions →
    condition functions

/-- What is appended in two stages is appended in one. -/
theorem Appends.trans {first second third : Code} {early late : List Code.Statement}
    {earlyNames lateNames : List String} {earlier later : List Code.Function → Prop}
    (left : Appends first second early earlyNames earlier)
    (right : Appends second third late lateNames later) :
    Appends first third (early ++ late) (earlyNames ++ lateNames)
      (fun functions => earlier functions ∧ later functions) where
  toExtends := left.toExtends.trans right.toExtends
  main := by rw [right.main, left.main, List.append_assoc]
  kept := List.Subset.trans left.kept right.kept
  declared := List.append_subset.mpr ⟨List.Subset.trans left.declared right.kept, right.declared⟩
  unique once := right.unique (left.unique once)
  predefined known := right.predefined (left.predefined known)
  holds functions unique contained :=
    ⟨left.holds functions unique (List.Subset.trans right.subset contained),
      right.holds functions unique contained⟩

/-- A weaker condition on the functions holds too. -/
theorem Appends.weaken {before after : Code} {statements : List Code.Statement}
    {names : List String} {condition other : List Code.Function → Prop}
    (appends : Appends before after statements names condition)
    (implies : ∀ functions, condition functions → other functions) :
    Appends before after statements names other where
  toExtends := appends.toExtends
  main := appends.main
  kept := appends.kept
  declared := appends.declared
  unique := appends.unique
  predefined := appends.predefined
  holds functions unique contained := implies functions (appends.holds functions unique contained)

/-- Nothing is appended between a state and itself. -/
theorem Appends.nothing (code : Code) {condition : List Code.Function → Prop}
    (holds : ∀ functions, condition functions) : Appends code code [] [] condition where
  toExtends := .of_eq rfl rfl
  main := (List.append_nil _).symm
  kept := List.Subset.refl _
  declared := List.nil_subset _
  unique := id
  predefined := id
  holds functions _ _ := holds functions

/-- A statement follows the code that it runs. -/
theorem Yields.addStatement {before after : Code} {condition : List Code.Function → Prop}
    (yields : Yields before after condition) (statement : Code.Statement) :
    Appends before (after.addStatement statement) [statement] [] condition where
  counted := yields.quiet.counted
  functions := yields.quiet.functions
  main := congrArg (· ++ [statement]) yields.quiet.main
  kept := by
    change declaredNames before ⊆ after.procedures.map Prod.fst
    rw [yields.quiet.procedures]
    exact List.Subset.refl _
  declared := List.nil_subset _
  unique once := by
    change (after.procedures.map Prod.fst).Nodup
    rw [yields.quiet.procedures]
    exact once
  predefined known := by
    change ∀ entry ∈ after.procedures, _
    rw [yields.quiet.procedures]
    exact known
  holds := yields.holds

section DeclareProcedure

variable (code : Code) (name : String)

/-- A declaration keeps the declared names and adds its own. -/
theorem declaredNames_declareProcedure (predefined : Option Builtin) :
    declaredNames code ⊆ declaredNames (code.declareProcedure name predefined) ∧
      name ∈ declaredNames (code.declareProcedure name predefined) := by
  unfold Assembly.declareProcedure
  split
  · rename_i known
    obtain ⟨entry, member, same⟩ := List.any_eq_true.mp known
    obtain rfl : entry.1 = name := by simpa using same
    exact ⟨List.Subset.refl _, List.mem_map_of_mem member⟩
  · unfold declaredNames
    rw [List.map_append]
    exact ⟨List.subset_append_left _ _, List.mem_append_right _ (List.mem_singleton_self name)⟩

/-- A procedure that is declared again stays declared once. -/
theorem nodup_declareProcedure (predefined : Option Builtin) (once : (declaredNames code).Nodup) :
    (declaredNames (code.declareProcedure name predefined)).Nodup := by
  unfold Assembly.declareProcedure
  split
  · exact once
  · rename_i unknown
    unfold declaredNames
    rw [List.map_append, List.nodup_append]
    refine ⟨once, by simp, ?_⟩
    rintro other member _ last rfl
    obtain ⟨entry, inside, rfl⟩ := List.mem_map.mp member
    have same : entry.1 = name := List.mem_singleton.mp last
    exact unknown (List.any_eq_true.mpr ⟨entry, inside, by simp [same]⟩)

/-- Declaring a procedure adds no function. -/
theorem extends_declareProcedure (predefined : Option Builtin) :
    Extends code (code.declareProcedure name predefined) := by
  unfold Assembly.declareProcedure
  split
  · exact .of_eq rfl rfl
  · exact .of_eq rfl rfl

/-- Declaring a procedure adds no statement. -/
theorem main_declareProcedure (predefined : Option Builtin) :
    (code.declareProcedure name predefined).main = code.main := by
  unfold Assembly.declareProcedure
  split <;> rfl

/-- Declaring a procedure adds no global. -/
theorem globals_declareProcedure (predefined : Option Builtin) :
    (code.declareProcedure name predefined).globals = code.globals := by
  unfold Assembly.declareProcedure
  split <;> rfl

/-- A procedure declared under its own name starts as the predefined one. -/
theorem declaresPredefined_declareProcedure (known : DeclaresPredefined code) :
    DeclaresPredefined (code.declareProcedure name (Builtin.ofName? name)) := by
  unfold Assembly.declareProcedure
  split
  · exact known
  · intro entry member
    rcases List.mem_append.mp member with old | new
    · exact known entry old
    · rw [List.mem_singleton.mp new]

end DeclareProcedure

section Appends

variable {analysis : Analysis} {before after : Code}

/-- The function of a procedure is declared, and a statement binds it. -/
theorem appends_function {procedure : Procedure} {index : Nat}
    (made : function analysis procedure before = .ok (index, after)) :
    Appends before (after.addStatement (.bind procedure.name index))
      [.bind procedure.name index] [procedure.name]
      (Binds analysis · procedure (.bind procedure.name index)) ∧ after.globals = before.globals := by
  obtain ⟨_, _, changed, made⟩ := bind_eq_ok made
  cases changed
  obtain ⟨number, numbered, taken, made⟩ := bind_eq_ok made
  cases taken
  obtain ⟨code, last, emitted, made⟩ := bind_eq_ok made
  cases made
  have inside := yields_body emitted
  have extended : Extends _ (last.declareFunction (.procedure procedure.name _ code)) :=
    inside.quiet.toExtends.declareFunction rfl
  obtain ⟨kept, declared⟩ :=
    declaredNames_declareProcedure before procedure.name (Builtin.ofName? procedure.name)
  have whole := (extends_declareProcedure before procedure.name
    (Builtin.ofName? procedure.name)).trans extended
  have procedures : last.procedures =
      (before.declareProcedure procedure.name (Builtin.ofName? procedure.name)).procedures :=
    inside.quiet.procedures
  refine ⟨⟨⟨whole.counted, whole.functions⟩, ?_, ?_, ?_, ?_, ?_, ?_⟩,
    inside.quiet.globals.trans (globals_declareProcedure before _ _)⟩
  · change last.main ++ _ = _
    rw [inside.quiet.main]
    exact congrArg (· ++ _) (main_declareProcedure before _ _)
  · change declaredNames before ⊆ last.procedures.map Prod.fst
    rw [procedures]
    exact kept
  · change [procedure.name] ⊆ last.procedures.map Prod.fst
    rw [procedures]
    exact fun _ member => List.mem_singleton.mp member ▸ declared
  · intro once
    change (last.procedures.map Prod.fst).Nodup
    rw [procedures]
    exact nodup_declareProcedure before procedure.name _ once
  · intro known
    change ∀ entry ∈ last.procedures, _
    rw [procedures]
    exact declaresPredefined_declareProcedure before procedure.name known
  · intro functions unique contained
    refine ⟨_, code, rfl, definition?_of_mem unique ?_, inside.holds functions unique ?_⟩
    · exact contained (List.mem_append_right _ (List.mem_singleton_self _))
    · exact List.Subset.trans (List.subset_append_left _ _) contained

mutual

/-- The statements bind a procedure and the ones inside it. -/
theorem appends_procedure {analysis : Analysis} {before after : Code} {source : Procedure}
    (made : procedure analysis source before = .ok ((), after)) :
    ∃ statements, Appends before after statements (source.nested.map Procedure.name)
      (fun functions => List.Forall₂ (Binds analysis functions) source.nested statements) ∧
        after.globals = before.globals := by
  obtain ⟨name, params, definitions, effects, result⟩ := source
  obtain ⟨index, second, declared, made⟩ := bind_eq_ok made
  obtain ⟨_, _, changed, made⟩ := bind_eq_ok made
  cases changed
  obtain ⟨first, firstGlobals⟩ := appends_function declared
  obtain ⟨statements, rest, globals⟩ := appends_internal made
  refine ⟨_, (first.trans rest).weaken fun functions both => ?_, ?_⟩
  · exact List.Forall₂.cons both.1 both.2
  · exact globals.trans firstGlobals

/-- The statements bind the procedures of an internal definition. -/
theorem appends_internalDefinition {analysis : Analysis} {before after : Code}
    {source : Definition} (made : internalDefinition analysis source before = .ok ((), after)) :
    ∃ statements, Appends before after statements (source.nested.map Procedure.name)
      (fun functions => List.Forall₂ (Binds analysis functions) source.nested statements) ∧
        after.globals = before.globals := by
  cases source with
  | value name value =>
      cases made
      exact ⟨[], .nothing before fun _ => .nil, rfl⟩
  | procedure definition => exact appends_procedure made

/-- The statements bind the procedures of all internal definitions. -/
theorem appends_internal {analysis : Analysis} {before after : Code} {sources : List Definition}
    (made : internal analysis sources before = .ok ((), after)) :
    ∃ statements, Appends before after statements
      ((Definition.allNested sources).map Procedure.name)
      (fun functions => List.Forall₂ (Binds analysis functions) (Definition.allNested sources)
        statements) ∧ after.globals = before.globals := by
  cases sources with
  | nil =>
      cases made
      exact ⟨[], .nothing before fun _ => .nil, rfl⟩
  | cons definition rest =>
      obtain ⟨_, middle, head, made⟩ := bind_eq_ok made
      obtain ⟨early, first, firstGlobals⟩ := appends_internalDefinition head
      obtain ⟨late, second, secondGlobals⟩ := appends_internal made
      rw [Definition.allNested, List.map_append]
      refine ⟨early ++ late, (first.trans second).weaken fun functions both => ?_, ?_⟩
      · exact List.rel_append both.1 both.2
      · exact secondGlobals.trans firstGlobals

end

/-- The statement of a global evaluates its value and declares its kind. -/
theorem appends_global {name : String} {value : Expression}
    (made : global analysis name value before = .ok ((), after)) :
    ∃ statements, Appends before after statements []
      (EmitsForm analysis · before.globals (.definition (.value name value)) statements
        after.globals) := by
  obtain ⟨code, middle, evaluated, made⟩ := bind_eq_ok made
  obtain ⟨_, _, changed, made⟩ := bind_eq_ok made
  cases changed
  cases made
  have yields := yields_expression evaluated
  have appends := yields.addStatement (.define name code)
  -- The declaration of the global touches nothing that the statement does.
  refine ⟨[.define name code], ⟨⟨appends.counted, appends.functions⟩, appends.main, appends.kept,
    appends.declared, appends.unique, appends.predefined, fun functions unique contained => ?_⟩⟩
  change EmitsForm analysis functions before.globals _ _
    (Assembly.declareKind name (kindOf middle value) middle.globals)
  rw [kindOf_eq_kindAfter, yields.quiet.globals]
  exact .value (yields.holds functions unique contained)

mutual

/-- The statements added for a form carry it out. -/
theorem appends_form {analysis : Analysis} {before after : Code} {source : Form}
    (made : form analysis source before = .ok ((), after)) :
    ∃ statements, Appends before after statements
      ((Definition.allNested source.definitions).map Procedure.name)
      (EmitsForm analysis · before.globals source statements after.globals) := by
  cases source with
  | expression value =>
      obtain ⟨code, middle, evaluated, made⟩ := bind_eq_ok made
      cases made
      have yields := yields_expression evaluated
      refine ⟨[.evaluate code], (yields.addStatement _).weaken fun functions emits => ?_⟩
      change EmitsForm analysis functions before.globals _ _ middle.globals
      rw [yields.quiet.globals]
      exact .expression emits
  | definition definition =>
      cases definition with
      | value name value => exact appends_global made
      | procedure inner =>
          obtain ⟨statements, appends, globals⟩ := appends_procedure made
          rw [globals, Form.definitions, Definition.allNested, Definition.allNested,
            List.append_nil]
          exact ⟨statements, appends.weaken fun functions binds => .procedure binds⟩
  | begin group =>
      obtain ⟨statements, appends⟩ := appends_forms made
      exact ⟨statements, appends.weaken fun functions emits => .begin emits⟩

/-- The statements added for some forms carry them out. -/
theorem appends_forms {analysis : Analysis} {before after : Code} {sources : List Form}
    (made : forms analysis sources before = .ok ((), after)) :
    ∃ statements, Appends before after statements
      ((Definition.allNested (Form.allDefinitions sources)).map Procedure.name)
      (EmitsForms analysis · before.globals sources statements after.globals) := by
  cases sources with
  | nil =>
      cases made
      exact ⟨[], .nothing before fun _ => .nil⟩
  | cons first rest =>
      obtain ⟨_, middle, head, made⟩ := bind_eq_ok made
      obtain ⟨early, left⟩ := appends_form head
      obtain ⟨late, right⟩ := appends_forms made
      rw [Form.allDefinitions, Definition.allNested_append, List.map_append]
      exact ⟨early ++ late, (left.trans right).weaken fun functions both => .cons both.1 both.2⟩

end

end Appends

/-- A program is compiled form after form. -/
theorem forms_of_compile {program : Program} {code : Code} (compiled : compile program = .ok code) :
    forms (Analysis.ofProgram program) program.forms .empty = .ok ((), code) := by
  unfold compile at compiled
  cases ended : (forms (Analysis.ofProgram program) program.forms).run .empty with
  | error error =>
      rw [ended] at compiled
      cases compiled
  | ok result =>
      rw [ended] at compiled
      cases compiled
      exact ended

/-- A compiled program has statements for its forms and nothing else. -/
theorem appends_of_compile {program : Program} {code : Code}
    (compiled : compile program = .ok code) :
    Appends .empty code code.main (program.procedures.map Procedure.name)
      (EmitsForms (Analysis.ofProgram program) · [] program.forms code.main code.globals) := by
  obtain ⟨statements, appends⟩ := appends_forms (forms_of_compile compiled)
  obtain rfl : code.main = statements := appends.main
  exact appends

/-- No two functions of a compiled program have the same number. -/
theorem nodup_functionIndex {program : Program} {code : Code}
    (compiled : compile program = .ok code) : (code.functions.map functionIndex).Nodup := by
  obtain ⟨functions, added, unique, _⟩ := (appends_of_compile compiled).functions
  rw [added]
  exact unique

/-- The statements of a compiled program carry out its forms, and every procedure of the program is
declared. -/
theorem emits_of_compile {program : Program} {code : Code} (compiled : compile program = .ok code) :
    EmitsForms (Analysis.ofProgram program) code.functions [] program.forms code.main code.globals ∧
      (∀ name, (Analysis.ofProgram program).isProcedure name → name ∈ declaredNames code) ∧
        DeclaresPredefined code := by
  have appends := appends_of_compile compiled
  refine ⟨?_, ?_, ?_⟩
  · exact appends.holds code.functions (nodup_functionIndex compiled) (List.Subset.refl _)
  · intro name known
    exact appends.declared (List.contains_iff_mem.mp known)
  · exact appends.predefined fun entry member => absurd member List.not_mem_nil

end SmallScheme.Compiler
