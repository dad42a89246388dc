/-
This file relates the states of a session to the states of its compiled program, and the names that
both of them read.
-/

import SmallScheme.Proofs.Compiler.Emission
import SmallScheme.Proofs.Machine.Library
import SmallScheme.Proofs.Session.Order

namespace SmallScheme

namespace Environment

/-- The value of a name in the innermost frame that binds it. -/
def local? (environment : Environment) (name : String) : Option Datum :=
  environment.frames.findSome? (·.find? name)

/-- A name stands for a local, or else for a global. -/
theorem binding?_eq_or (environment : Environment) (name : String) :
    environment.binding? name = (environment.local? name).or (environment.globals.find? name) := by
  unfold binding? local?
  cases environment.frames.findSome? (·.find? name) <;> rfl

/-- A new frame hides what the frames below it bind. -/
theorem local?_pushFrame (environment : Environment) (frame : Table Datum) (name : String) :
    (environment.pushFrame frame).local? name = (frame.find? name).or (environment.local? name) := by
  unfold local? pushFrame
  rw [List.findSome?_cons]
  cases frame.find? name <;> rfl

end Environment

/-- The places of the scope hold the values that the session finds under the names. -/
def Scope.Holds (scope : Scope) (locals : Machine.Locals) (environment : Environment) : Prop :=
  ∀ name place, scope.lookup name = some place →
    ∃ datum, environment.binding? name = some datum ∧
      locals.read? place = some (Value.ofDatum datum)

namespace Compiler

/-- The slot of a procedure carries code for what the session calls under the name. -/
inductive Carries (program : Program) (functions : List Code.Function) (name : String) :
    Option Callable → Option Callee → Prop
  | undefined : Carries program functions name none none
  | predefined (builtin : Builtin) :
      Carries program functions name (some (.builtin builtin)) (some (.host builtin))
  | defined {procedure : Procedure} {index : Nat} {body : Code.Body}
      (named : procedure.name = name) (member : procedure ∈ program.procedures)
      (found : Machine.definition? functions name index = some body)
      (emits : EmitsBody (Analysis.ofProgram program) functions procedure body) :
      Carries program functions name (some (.code procedure)) (some (.definition name index))

/-- The machine knows what the session knows. Of the local names it knows the dynamic ones, and the
frames of the session bind no others than the program's. -/
structure Represents (program : Program) (functions : List Code.Function)
    (environment : Environment) (machine : Machine) : Prop where
  globals : ∀ name, (Analysis.ofProgram program).isGlobal name = true →
    ∃ kind, machine.globals.find? name =
      some ⟨name, kind, (environment.globals.find? name).map Value.ofDatum⟩
  undeclared : ∀ name, (Analysis.ofProgram program).isGlobal name = false →
    environment.globals.find? name = none
  procedures : ∀ name, (Analysis.ofProgram program).isProcedure name = true →
    ∃ code, machine.procedures.find? name = some ⟨name, code⟩ ∧
      Carries program functions name (environment.procedure? name) code
  builtins : ∀ name, (Analysis.ofProgram program).isProcedure name = false →
    environment.procedure? name = (Builtin.ofName? name).map .builtin
  frames : ∀ name, (Analysis.ofProgram program).isDynamic name = true →
    machine.frames.find? name = (environment.local? name).map Value.ofDatum
  locals : ∀ name, (environment.local? name).isSome →
    ∃ owner ∈ program.procedures, name ∈ owner.locals

/-- A name that the expression reads freely is dynamic, or no frame hides its global. -/
def Unhidden (program : Program) (environment : Environment) (scope : Scope)
    (expression : Expression) : Prop :=
  ∀ name ∈ expression.free scope.names,
    (Analysis.ofProgram program).isDynamic name = true ∨ environment.local? name = none

/-- The session stands in the environment, the machine in the state that represents it, and both
have displayed the same. -/
structure Linked (base : String) (environment : Environment) (image : Machine)
    (session : Session) (machine : Machine) : Prop where
  environment : session.environment = environment
  image : machine = { image with output := machine.output }
  prints : Prints base session.sink machine.output

/-- A compiled value is the value of a datum. -/
def SameValue (datum : Datum) (value : Value) : Prop :=
  value = Value.ofDatum datum

section Names

variable {program : Program} {functions : List Code.Function} {environment : Environment}
  {image : Machine} {slack : Slack} {base : String}

/-- The own code of a procedure reads no name that a frame hides from it. -/
theorem unhidden_of_free (represents : Represents program functions environment image)
    {procedure : Procedure} (member : procedure ∈ program.procedures) {scope : Scope}
    {expression : Expression}
    (own : ∀ name ∈ expression.free scope.names, name ∈ procedure.free) :
    Unhidden program environment scope expression := by
  intro name reads
  cases found : environment.local? name with
  | none => exact .inr rfl
  | some datum =>
      obtain ⟨owner, owning, binds⟩ := represents.locals name (by rw [found]; rfl)
      exact .inl (Analysis.isDynamic_of_free_of_local member owning (own name reads) binds)

/-- What a name stands for in a compiled program. -/
def valueOf (environment : Environment) (name : String) : Except RunError Value :=
  match environment.binding? name with
  | some datum => .ok (Value.ofDatum datum)
  | none => .error (.undefinedVariable name)

/-- The slot of a global holds what its name stands for, if no frame hides it. -/
theorem global_eq_valueOf {name : String}
    (represents : Represents program functions environment image)
    (known : (Analysis.ofProgram program).isGlobal name = true)
    (unhidden : environment.local? name = none) :
    image.global name = valueOf environment name := by
  obtain ⟨kind, found⟩ := represents.globals name known
  rw [Machine.global, found, valueOf, Environment.binding?_eq_or, unhidden, Option.none_or]
  cases environment.globals.find? name <;> rfl

/-- The frames of the machine hold what a dynamic name stands for. -/
theorem dynamic_eq_valueOf {name : String}
    (represents : Represents program functions environment image)
    (dynamic : (Analysis.ofProgram program).isDynamic name = true) :
    image.dynamic name ((Analysis.ofProgram program).isGlobal name) = valueOf environment name := by
  unfold Machine.dynamic Frames.read
  rw [represents.frames name dynamic, valueOf, Environment.binding?_eq_or]
  cases environment.local? name with
  | some datum => rfl
  | none =>
      cases known : (Analysis.ofProgram program).isGlobal name with
      | false =>
          rw [represents.undeclared name known]
          rfl
      | true =>
          obtain ⟨kind, found⟩ := represents.globals name known
          simp only [Option.map_none, if_true, found, Option.none_or]
          cases environment.globals.find? name <;> rfl

/-- A machine that finds what a name stands for follows the session that looks it up. -/
theorem follows_valueOf {name : String} {part : Machine → Except RunError Value}
    (steady : ∀ output, part { image with output := output } = part image)
    (found : part image = valueOf environment name) :
    Run.Follows slack SameValue (Linked base environment image) (Linked base environment image)
      (Run.read (·.environment.lookup name)) (Run.read part) := by
  apply Run.follows_read
  intro session machine linked
  rw [linked.environment, linked.image, steady, found, Environment.lookup, valueOf]
  cases environment.binding? name with
  | some datum => exact .inl ⟨datum, _, rfl, rfl, rfl⟩
  | none => exact .inr ⟨_, rfl, rfl⟩

/-- The code of a variable finds what the session finds. -/
theorem follows_identifier {call : Callee → List Value → Run Machine Value} {scope : Scope}
    {locals : Machine.Locals} {name : String} {code : Code.Expr}
    (represents : Represents program functions environment image)
    (holds : scope.Holds locals environment)
    (unhidden : Unhidden program environment scope (.identifier name))
    (made : identifier (Analysis.ofProgram program) scope name = .ok code) :
    Run.Follows slack SameValue (Linked base environment image) (Linked base environment image)
      (Run.read (·.environment.lookup name)) (Machine.evaluate call locals code) := by
  unfold identifier at made
  cases placed : scope.lookup name with
  | some place =>
      rw [placed] at made
      cases made
      obtain ⟨datum, bound, held⟩ := holds name place placed
      intro session machine linked
      rw [Machine.evaluate, held, Run.read, linked.environment, Environment.lookup, bound]
      exact .inl ⟨rfl, linked⟩
  | none =>
      rw [placed] at made
      cases dynamic : (Analysis.ofProgram program).isDynamic name with
      | true =>
          simp only [dynamic, if_true] at made
          cases made
          rw [Machine.evaluate]
          exact follows_valueOf (fun _ => rfl) (dynamic_eq_valueOf represents dynamic)
      | false =>
          have absent := (Scope.lookup_eq_none_iff scope name).mp placed
          have reads : name ∈ (Expression.identifier name).free scope.names := by
            rw [Expression.free, if_neg (by simpa using absent)]
            exact List.mem_singleton_self name
          have visible : environment.local? name = none := by
            simpa [dynamic] using unhidden name reads
          cases known : (Analysis.ofProgram program).isGlobal name with
          | false =>
              simp [dynamic, known] at made
          | true =>
              simp only [dynamic, known, if_true, Bool.false_eq_true, if_false] at made
              cases made
              rw [Machine.evaluate]
              exact follows_valueOf (fun _ => rfl) (global_eq_valueOf represents known visible)

end Names

end Compiler

end SmallScheme
