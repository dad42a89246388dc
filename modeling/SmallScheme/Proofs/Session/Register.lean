/-
This file describes the procedures of a session: the predefined ones and those that its program
registers.
-/

import SmallScheme.Compiler.Analysis
import SmallScheme.Session.Environment

namespace SmallScheme

/-- The procedures of two lists of definitions come one after the other. -/
theorem Definition.allNested_append (first second : List Definition) :
    allNested (first ++ second) = allNested first ++ allNested second := by
  induction first with
  | nil => rfl
  | cons definition rest ih =>
      rw [List.cons_append, allNested, allNested, ih, List.append_assoc]

/-- A procedure inside a definition is one of all the definitions. -/
theorem Definition.mem_allNested {definitions : List Definition} {definition : Definition}
    {procedure : Procedure} (member : definition ∈ definitions)
    (inside : procedure ∈ definition.nested) : procedure ∈ allNested definitions := by
  obtain ⟨before, after, rfl⟩ := List.append_of_mem member
  rw [allNested_append, allNested]
  exact List.mem_append_right _ (List.mem_append_left _ inside)

namespace Environment

/-- A new procedure takes its name and leaves the others. -/
theorem procedure?_defineProcedure (environment : Environment) (name other : String)
    (callable : Callable) :
    (environment.defineProcedure name callable).procedure? other =
      if other = name then some callable else environment.procedure? other :=
  Table.find?_insert environment.procedures name other callable

/-- Every predefined procedure is found under its name at first. -/
theorem procedure?_predefined_name (builtin : Builtin) :
    predefined.procedure? builtin.name = some (.builtin builtin) := by
  cases builtin <;> rfl

/-- Predefined procedures of other names do not matter for a name. -/
theorem procedure?_foldl_builtins {builtins : List Builtin} {name : String}
    (absent : ∀ builtin ∈ builtins, builtin.name ≠ name) (environment : Environment) :
    (builtins.foldl (fun environment builtin =>
        environment.defineProcedure builtin.name (.builtin builtin)) environment).procedure? name =
      environment.procedure? name := by
  induction builtins generalizing environment with
  | nil => rfl
  | cons builtin rest ih =>
      rw [List.forall_mem_cons] at absent
      rw [List.foldl_cons, ih absent.2, procedure?_defineProcedure, if_neg absent.1.symm]

/-- At first only the predefined procedures can be called. -/
theorem procedure?_predefined (name : String) :
    predefined.procedure? name = (Builtin.ofName? name).map .builtin := by
  cases found : Builtin.ofName? name with
  | some builtin =>
      obtain rfl : builtin.name = name := by simpa using List.find?_some found
      exact procedure?_predefined_name builtin
  | none =>
      have absent : ∀ builtin ∈ Builtin.all, builtin.name ≠ name := by
        simpa using List.find?_eq_none.mp found
      exact procedure?_foldl_builtins absent empty

/-- Every procedure of the session stands in the program. -/
def Registered (program : Program) (environment : Environment) : Prop :=
  ∀ name procedure, environment.procedure? name = some (.code procedure) →
    procedure ∈ program.procedures

/-- A procedure of the program may be registered under any name. -/
theorem Registered.defineProcedure {program : Program} {environment : Environment}
    {procedure : Procedure} (registered : environment.Registered program) (name : String)
    (member : procedure ∈ program.procedures) :
    (environment.defineProcedure name (.code procedure)).Registered program := by
  intro other found lookedUp
  rw [procedure?_defineProcedure] at lookedUp
  split at lookedUp
  · obtain rfl : procedure = found := by simpa using lookedUp
    exact member
  · exact registered other found lookedUp

/-- The procedures come into effect one after the other. -/
def defineAll (environment : Environment) (procedures : List Procedure) : Environment :=
  procedures.foldl
    (fun environment procedure => environment.defineProcedure procedure.name (.code procedure))
    environment

/-- Procedures in two parts come into effect one part after the other. -/
theorem defineAll_append (environment : Environment) (first second : List Procedure) :
    environment.defineAll (first ++ second) = (environment.defineAll first).defineAll second :=
  List.foldl_append

mutual

/-- A procedure is registered before the ones inside it. -/
theorem register_eq_defineAll (environment : Environment) (procedure : Procedure) :
    environment.register procedure = environment.defineAll procedure.nested := by
  obtain ⟨name, params, definitions, effects, body⟩ := procedure
  exact registerAll_eq_defineAll _ definitions

/-- A definition brings the procedures inside it into effect. -/
theorem registerDefinition_eq_defineAll (environment : Environment) (definition : Definition) :
    environment.registerDefinition definition = environment.defineAll definition.nested := by
  cases definition with
  | value name expression => rfl
  | procedure procedure => exact register_eq_defineAll environment procedure

/-- Definitions bring the procedures inside them into effect. -/
theorem registerAll_eq_defineAll (environment : Environment) (definitions : List Definition) :
    environment.registerAll definitions =
      environment.defineAll (Definition.allNested definitions) := by
  cases definitions with
  | nil => rfl
  | cons definition rest =>
      rw [registerAll, Definition.allNested, defineAll_append,
        registerDefinition_eq_defineAll environment definition, registerAll_eq_defineAll _ rest]

end

/-- All the procedures of the program may be registered. -/
theorem Registered.defineAll {program : Program} {environment : Environment}
    (registered : environment.Registered program) {procedures : List Procedure}
    (members : ∀ procedure ∈ procedures, procedure ∈ program.procedures) :
    (environment.defineAll procedures).Registered program := by
  induction procedures generalizing environment with
  | nil => exact registered
  | cons procedure rest ih =>
      rw [List.forall_mem_cons] at members
      exact ih (registered.defineProcedure procedure.name members.1) members.2

/-- New procedures leave the variables as they are. -/
theorem frames_defineAll (environment : Environment) (procedures : List Procedure) :
    (environment.defineAll procedures).frames = environment.frames := by
  induction procedures generalizing environment with
  | nil => rfl
  | cons procedure rest ih => exact ih (environment.defineProcedure procedure.name (.code procedure))

/-- New procedures leave the globals as they are. -/
theorem globals_defineAll (environment : Environment) (procedures : List Procedure) :
    (environment.defineAll procedures).globals = environment.globals := by
  induction procedures generalizing environment with
  | nil => rfl
  | cons procedure rest ih => exact ih (environment.defineProcedure procedure.name (.code procedure))

/-- At first no procedure of any program is registered. -/
theorem registered_predefined (program : Program) : predefined.Registered program := by
  intro name procedure found
  rw [procedure?_predefined] at found
  simp at found

end Environment

end SmallScheme
