/-
This file says when code is closed: every slot and function that it uses is declared once, and every
local is bound before it is read. It shows that compiled programs are closed.
-/

import SmallScheme.Proofs.Compiler.Coverage
import SmallScheme.Proofs.Compiler.Identifiers
import SmallScheme.Proofs.Session.Loop

namespace SmallScheme

namespace Code

/-- What code can use of its function: the variables bound before it, the parameters in the slots of
a loop, and the frame. -/
structure Bindings where
  held : List String
  slots : List String
  frame : Bool

namespace Bindings

/-- Nothing is bound. -/
def empty : Bindings :=
  ⟨[], [], false⟩

/-- The variables are bound too. -/
def hold (bindings : Bindings) (names : List String) : Bindings :=
  { bindings with held := bindings.held ++ names }

/-- The name of the local in a place, if the place is bound. -/
def name? (bindings : Bindings) : Place → Option String
  | .held name => if name ∈ bindings.held then some name else none
  | .slot index => bindings.slots[index]?

end Bindings

/-- The program declares the slot of one global of this name. -/
def DeclaresGlobal (code : Code) (name : String) : Prop :=
  (code.globals.map Prod.fst).count name = 1

/-- The program declares the slot of one procedure of this name. -/
def DeclaresProcedure (code : Code) (name : String) : Prop :=
  (code.procedures.map Prod.fst).count name = 1

/-- One function has the name in the text of the program. -/
def DeclaresFunction (code : Code) (name : String) : Prop :=
  (code.listing.functions.map FunctionText.name).count name = 1

/-- The local whose value an argument is. -/
def Expr.local? (bindings : Bindings) : Expr → Option String
  | .read place => bindings.name? place
  | _ => none

mutual

/-- A conditional is given the locals that its function names as parameters, in their order. -/
def Expr.Closed (code : Code) (bindings : Bindings) : Expr → Prop
  | .integer _ => True
  | .character _ => True
  | .string _ => True
  | .boolean _ => True
  | .list elements => AllClosed code bindings elements
  | .vector elements => AllClosed code bindings elements
  | .quotation quoted => quoted.Closed code bindings
  | .read place => ∃ name, bindings.name? place = some name
  | .global name => code.DeclaresGlobal name
  | .dynamic name hasGlobal => hasGlobal = true → code.DeclaresGlobal name
  | .host _ arguments => AllClosed code bindings arguments
  | .call procedure arguments =>
      code.DeclaresProcedure procedure ∧ AllClosed code bindings arguments
  | .conditional index arguments =>
      code.DeclaresFunction (conditionalName index) ∧
        ∃ params result, .conditional index params result ∈ code.functions ∧
          arguments.map (Expr.local? bindings) = params.map some

def AllClosed (code : Code) (bindings : Bindings) : List Expr → Prop
  | [] => True
  | expression :: rest => expression.Closed code bindings ∧ AllClosed code bindings rest

end

/-- A result is closed if each of its expressions is. -/
def Tail.Closed (code : Code) (bindings : Bindings) : Tail → Prop
  | .value expression => expression.Closed code bindings
  | .branch condition consequent alternative =>
      condition.Closed code bindings ∧ consequent.Closed code bindings ∧
        alternative.Closed code bindings

/-- Every step can use what the steps before it bind, and the result what all of them bind. No
pattern binds a name twice. -/
def StepsClosed (code : Code) (result : Tail) : Bindings → List Step → Prop
  | bindings, [] => result.Closed code bindings
  | bindings, .unpack pattern :: rest =>
      (pattern.filterMap id).Nodup ∧
        StepsClosed code result (bindings.hold (pattern.filterMap id)) rest
  | bindings, .enterFrame :: rest => StepsClosed code result { bindings with frame := true } rest
  | bindings, .publish name :: rest =>
      bindings.frame = true ∧ name ∈ bindings.held ∧ StepsClosed code result bindings rest
  | bindings, .bind name expression :: rest =>
      expression.Closed code bindings ∧ StepsClosed code result (bindings.hold [name]) rest
  | bindings, .effect expression :: rest =>
      expression.Closed code bindings ∧ StepsClosed code result bindings rest

/-- The slots of a loop hold the parameters of its procedure, one each. -/
def Function.Closed (program : Program) (code : Code) : Function → Prop
  | .procedure _ _ (.plain steps result) => StepsClosed code result .empty steps
  | .procedure name _ (.loop size _ condition updates exit) =>
      updates.length = size ∧
        ∃ procedure ∈ program.procedures, procedure.name = name ∧ procedure.params.length = size ∧
          condition.Closed code ⟨[], procedure.params, false⟩ ∧
          AllClosed code ⟨[], procedure.params, false⟩ updates ∧
          exit.Closed code ⟨[], procedure.params, false⟩
  | .conditional _ params result => params.Nodup ∧ result.Closed code (Bindings.empty.hold params)

/-- A statement of the main function uses no local, and slots and functions that are declared. -/
def Statement.Closed (code : Code) : Statement → Prop
  | .evaluate expression => expression.Closed code .empty
  | .define global expression => code.DeclaresGlobal global ∧ expression.Closed code .empty
  | .bind procedure index =>
      code.DeclaresProcedure procedure ∧ code.DeclaresFunction (definitionName procedure index)

end Code

/-- The places of the scope are bound to the names that they stand for. -/
def Scope.Within (scope : Scope) (bindings : Code.Bindings) : Prop :=
  ∀ name place, scope.lookup name = some place → bindings.name? place = some name

namespace Scope

/-- The scope of a top-level expression needs no binding. -/
theorem within_empty (bindings : Code.Bindings) : empty.Within bindings := by
  intro name place placed
  cases placed

/-- The scope of some parameters needs only that they are held. -/
theorem within_parameters {params : List String} {bindings : Code.Bindings}
    (held : params ⊆ bindings.held) : (parameters params).Within bindings := by
  intro name place placed
  rw [lookup_parameters] at placed
  split at placed
  · rename_i member
    cases placed
    exact if_pos (held member)
  · cases placed

/-- A variable that is held joins the scope. -/
theorem Within.bind {scope : Scope} {bindings : Code.Bindings} (within : scope.Within bindings)
    (name : String) : (scope.bind name).Within (bindings.hold [name]) := by
  intro other place placed
  rw [lookup_bind] at placed
  split at placed
  · rename_i same
    cases placed
    rw [same]
    exact if_pos (List.mem_append_right _ (List.mem_singleton_self name))
  · have bound := within other place placed
    cases place with
    | slot index => exact bound
    | held stored =>
        simp only [Code.Bindings.name?, Option.ite_none_right_eq_some] at bound ⊢
        exact ⟨List.mem_append_left _ bound.1, bound.2⟩

/-- A parameter of a loop is found in the slot of its position. -/
theorem within_slots (params : List String) : (slots params).Within ⟨[], params, false⟩ := by
  intro name place placed
  have member : (name, place) ∈ (slots params).bindings := by
    obtain ⟨before, after, parts, _⟩ := List.lookup_eq_some_iff.mp placed
    rw [← List.mem_reverse, parts]
    simp
  obtain ⟨index, inside, same⟩ := List.mem_mapIdx.mp member
  cases same
  exact List.getElem?_eq_getElem inside

end Scope

namespace Compiler

open Code

variable {program : Program} {code : Code} {bindings : Bindings} {scope : Scope}

section Declared

/-- The compiler declares every global that it knows, and declares it once. -/
theorem declaresGlobal_of_isGlobal (compiled : compile program = .ok code) {name : String}
    (known : (Analysis.ofProgram program).isGlobal name = true) : code.DeclaresGlobal name := by
  obtain ⟨emits, _⟩ := emits_of_compile compiled
  obtain ⟨value, defined⟩ := Analysis.isGlobal_iff.mp known
  obtain ⟨kind, found⟩ := emits.declaresKinds.declared name value defined
  obtain ⟨before, after, parts, _⟩ := List.lookup_eq_some_iff.mp found
  exact List.count_eq_one_of_mem (nodup_globals compiled) (by simp [parts])

/-- The compiler declares every procedure that it knows, and declares it once. -/
theorem declaresProcedure_of_isProcedure (compiled : compile program = .ok code) {name : String}
    (known : (Analysis.ofProgram program).isProcedure name = true) :
    code.DeclaresProcedure name := by
  obtain ⟨_, declared, _⟩ := emits_of_compile compiled
  exact List.count_eq_one_of_mem (nodup_procedures compiled) (declared name known)

/-- No other function of a compiled program has the name of the given one. -/
theorem declaresFunction_of_mem (compiled : compile program = .ok code) {function : Code.Function}
    (member : function ∈ code.functions) : code.DeclaresFunction function.identifier.text := by
  have names : code.listing.functions.map FunctionText.name =
      (code.functions.map Function.identifier).map Identifier.text := names_functions code
  unfold DeclaresFunction
  rw [names]
  have distinct := (nodup_functions compiled).map Identifier.text_injective
  exact List.count_eq_one_of_mem distinct (List.mem_map_of_mem (List.mem_map_of_mem member))

/-- The function that the machine finds for a conditional is one of the program. -/
theorem mem_of_conditional? {functions : List Code.Function} {index : Nat} {params : List String}
    {result : Tail} (found : Machine.conditional? functions index = some (params, result)) :
    .conditional index params result ∈ functions := by
  obtain ⟨function, member, same⟩ := List.exists_of_findSome?_eq_some found
  cases function with
  | procedure name number body => cases same
  | conditional number names code =>
      simp only [Option.ite_none_right_eq_some, Option.some.injEq, Prod.mk.injEq] at same
      obtain ⟨rfl, rfl, rfl⟩ := same
      exact member

/-- The function that the machine finds for a definition is one of the program. -/
theorem mem_of_definition? {functions : List Code.Function} {name : String} {index : Nat}
    {body : Body} (found : Machine.definition? functions name index = some body) :
    .procedure name index body ∈ functions := by
  obtain ⟨function, member, same⟩ := List.exists_of_findSome?_eq_some found
  cases function with
  | procedure declared number code =>
      simp only [Bool.and_eq_true, decide_eq_true_eq, Option.ite_none_right_eq_some,
        Option.some.injEq] at same
      obtain ⟨⟨rfl, rfl⟩, rfl⟩ := same
      exact member
  | conditional number names code => cases same

end Declared

section Expressions

/-- The code of a literal uses nothing. -/
theorem closed_constant {literal : Literal} {expression : Expr}
    (made : constant literal = .ok expression) : expression.Closed code bindings := by
  cases literal with
  | character name =>
      obtain ⟨value, _, ended⟩ := except_bind_eq_ok made
      cases ended
      trivial
  | _ => cases made; trivial

mutual

/-- The code of a quoted datum uses nothing. -/
theorem closed_quoted {datum : Quoted} {expression : Expr} (made : quoted datum = .ok expression) :
    expression.Closed code bindings := by
  cases datum with
  | constant literal => exact closed_constant made
  | symbol name => cases made; trivial
  | list elements | vector elements =>
      obtain ⟨inner, given, ended⟩ := except_bind_eq_ok made
      cases ended
      exact allClosed_allQuoted given
  | quotation datum =>
      obtain ⟨inner, given, ended⟩ := except_bind_eq_ok made
      cases ended
      have closed : inner.Closed code bindings := closed_quoted given
      exact closed

/-- The codes of quoted data use nothing. -/
theorem allClosed_allQuoted {data : List Quoted} {expressions : List Expr}
    (made : allQuoted data = .ok expressions) : AllClosed code bindings expressions := by
  cases data with
  | nil => cases made; trivial
  | cons datum rest =>
      obtain ⟨inner, first, made⟩ := except_bind_eq_ok made
      obtain ⟨others, second, ended⟩ := except_bind_eq_ok made
      cases ended
      exact ⟨closed_quoted first, allClosed_allQuoted second⟩

end

/-- A variable is read from a bound place or from a declared slot. -/
theorem closed_identifier (compiled : compile program = .ok code) (within : scope.Within bindings)
    {name : String} {expression : Expr}
    (made : identifier (Analysis.ofProgram program) scope name = .ok expression) :
    expression.Closed code bindings := by
  unfold identifier at made
  split at made
  · rename_i place placed
    cases made
    exact ⟨name, within name place placed⟩
  · split at made
    · cases made
      exact declaresGlobal_of_isGlobal compiled
    · split at made
      · rename_i known
        cases made
        exact declaresGlobal_of_isGlobal compiled known
      · cases made

/-- The arguments of a conditional are the visible locals under their names. -/
theorem local?_visibleReads (within : scope.Within bindings) :
    (visibleReads scope).map (Expr.local? bindings) = scope.visible.map some := by
  have general (names : List String) (known : ∀ name ∈ names, (scope.lookup name).isSome) :
      ((names.filterMap scope.lookup).map Expr.read).map (Expr.local? bindings) =
        names.map some := by
    induction names with
    | nil => rfl
    | cons name rest ih =>
        obtain ⟨place, placed⟩ := Option.isSome_iff_exists.mp (known name List.mem_cons_self)
        have others := ih fun other member => known other (List.mem_cons_of_mem name member)
        rw [List.filterMap_cons_some placed, List.map_cons, List.map_cons, List.map_cons, others]
        congr 1
        exact within name place placed
  refine general scope.visible fun name visible => ?_
  exact (scope.lookup_isSome_iff name).mpr ((scope.mem_visible name).mp visible)

mutual

/-- The code of an expression is closed where its scope is bound. -/
theorem closed_of_emits {program : Program} {code : Code} {bindings : Bindings} {scope : Scope}
    {source : Expression} {expression : Expr} (compiled : compile program = .ok code)
    (emits : Emits (Analysis.ofProgram program) code.functions scope source expression)
    (within : scope.Within bindings) : expression.Closed code bindings := by
  match emits with
  | .constant made => exact closed_constant made
  | .quotation made => exact closed_quoted made
  | .identifier made => exact closed_identifier compiled within made
  | .conditional found tests holds fails =>
      have member := mem_of_conditional? found
      exact ⟨declaresFunction_of_mem compiled member, _, _, member, local?_visibleReads within⟩
  | .call named known emits =>
      exact ⟨declaresProcedure_of_isProcedure compiled known,
        allClosed_of_emits compiled emits within⟩
  | .host named undefined predefined accepted emits =>
      exact allClosed_of_emits compiled emits within

/-- The codes of expressions are closed where their scope is bound. -/
theorem allClosed_of_emits {program : Program} {code : Code} {bindings : Bindings} {scope : Scope}
    {sources : List Expression} {expressions : List Expr} (compiled : compile program = .ok code)
    (emits : EmitsAll (Analysis.ofProgram program) code.functions scope sources expressions)
    (within : scope.Within bindings) : AllClosed code bindings expressions := by
  match emits with
  | .nil => trivial
  | .cons emits emitsRest =>
      exact ⟨closed_of_emits compiled emits within, allClosed_of_emits compiled emitsRest within⟩

end

/-- The code of a result is closed where its scope is bound. -/
theorem closed_of_emitsTail (compiled : compile program = .ok code) {source : Expression}
    {result : Tail}
    (emits : EmitsTail (Analysis.ofProgram program) code.functions scope source result)
    (within : scope.Within bindings) : result.Closed code bindings := by
  induction result generalizing source with
  | value expression =>
      cases emits with
      | value emits => exact closed_of_emits compiled emits within
  | branch condition consequent alternative first second =>
      cases emits with
      | branch tests holds fails =>
          exact ⟨closed_of_emits compiled tests within, first holds, second fails⟩

/-- Each expression has one code. -/
theorem length_of_emitsAll {analysis : Analysis} {functions : List Code.Function}
    {sources : List Expression} {expressions : List Expr}
    (emits : EmitsAll analysis functions scope sources expressions) :
    expressions.length = sources.length := by
  induction sources generalizing expressions with
  | nil => cases emits; rfl
  | cons source rest ih =>
      cases emits with
      | cons emits emitsRest => simp [ih emitsRest]

end Expressions

section Steps

variable {result : Tail} {steps : List Step}

/-- A repeated parameter is bound once. -/
theorem nodup_pattern (params : List String) : ((pattern params).filterMap id).Nodup ∧
    ∀ name, name ∈ (pattern params).filterMap id ↔ name ∈ params := by
  induction params with
  | nil => simp [pattern]
  | cons param rest ih =>
      obtain ⟨distinct, same⟩ := ih
      by_cases again : param ∈ rest
      · have skipped : pattern (param :: rest) = none :: pattern rest := by simp [pattern, again]
        refine ⟨by simpa [skipped] using distinct, fun name => ?_⟩
        rw [skipped, List.filterMap_cons_none rfl, same, List.mem_cons]
        exact ⟨.inr, fun member => member.elim (fun eq => eq ▸ again) id⟩
      · have bound : pattern (param :: rest) = some param :: pattern rest := by
          simp [pattern, again]
        rw [bound, List.filterMap_cons_some (f := id) rfl]
        refine ⟨List.nodup_cons.mpr ⟨fun member => again ((same param).mp member), distinct⟩, ?_⟩
        intro name
        rw [List.mem_cons, List.mem_cons, same]

/-- Steps after a publication are closed if the variable is held inside a frame. -/
theorem stepsClosed_publishIf {analysis : Analysis} {name : String}
    (usable : analysis.isDynamic name = true → bindings.frame = true ∧ name ∈ bindings.held)
    (closed : StepsClosed code result bindings steps) :
    StepsClosed code result bindings (publishIf analysis name ++ steps) := by
  unfold publishIf
  split
  · rename_i dynamic
    exact ⟨(usable dynamic).1, (usable dynamic).2, closed⟩
  · exact closed

/-- The frame is entered before the parameters are published. -/
theorem stepsClosed_frameSteps {analysis : Analysis} {procedure : Procedure} {held : List String}
    (params : procedure.params ⊆ held)
    (closed : StepsClosed code result ⟨held, [], analysis.publishes procedure⟩ steps) :
    StepsClosed code result ⟨held, [], false⟩ (frameSteps analysis procedure ++ steps) := by
  unfold frameSteps
  cases published : analysis.publishes procedure with
  | false => rw [published] at closed; exact closed
  | true =>
      rw [published] at closed
      have general (names : List String) (contained : names ⊆ held) :
          StepsClosed code result ⟨held, [], true⟩
            (names.flatMap (publishIf analysis) ++ steps) := by
        induction names with
        | nil => exact closed
        | cons name rest ih =>
            rw [List.cons_subset] at contained
            rw [List.flatMap_cons, List.append_assoc]
            exact stepsClosed_publishIf (fun _ => ⟨rfl, contained.1⟩) (ih contained.2)
      refine general procedure.params.eraseDups fun name member => params ?_
      exact List.mem_eraseDups.mp member

/-- Every internal variable is bound for the ones after it, and for what comes after all of them. -/
theorem stepsClosed_values (compiled : compile program = .ok code)
    {values : List (String × Expression)} {more : List Step} (within : scope.Within bindings)
    (framed : ∀ value ∈ values, (Analysis.ofProgram program).isDynamic value.1 = true →
      bindings.frame = true)
    (emits : EmitsValues (Analysis.ofProgram program) code.functions scope values steps)
    (closed : ∀ later : Bindings,
      (values.foldl (fun scope value => scope.bind value.1) scope).Within later →
        StepsClosed code result later more) :
    StepsClosed code result bindings (steps ++ more) := by
  induction values generalizing scope bindings steps with
  | nil =>
      cases emits
      exact closed bindings within
  | cons value rest ih =>
      cases emits with
      | @cons _ name _ _ _ others emits emitsRest =>
          have head := framed (name, _) List.mem_cons_self
          have later := ih (within.bind name)
            (fun value member => framed value (List.mem_cons_of_mem _ member)) emitsRest closed
          rw [List.cons_append, List.cons_append, List.append_assoc]
          refine ⟨closed_of_emits compiled emits within, stepsClosed_publishIf ?_ later⟩
          intro dynamic
          exact ⟨head dynamic, List.mem_append_right _ (List.mem_singleton_self name)⟩

/-- Effects bind nothing, so that all of them and the result use the same bindings. -/
theorem stepsClosed_effects {effects : List Expr} (effective : AllClosed code bindings effects)
    (closed : result.Closed code bindings) :
    StepsClosed code result bindings (effects.map .effect) := by
  induction effects with
  | nil => exact closed
  | cons effect rest ih => exact ⟨effective.1, ih effective.2⟩

end Steps

/-- The code of a procedure is closed, also where it is a loop. -/
theorem closed_of_emitsBody (compiled : compile program = .ok code) {procedure : Procedure}
    (member : procedure ∈ program.procedures) {body : Body}
    (emits : EmitsBody (Analysis.ofProgram program) code.functions procedure body) (index : Nat) :
    (Function.procedure procedure.name index body).Closed program code := by
  cases emits with
  | plain emitsValues emitsEffects emitsResult =>
      obtain ⟨distinct, same⟩ := nodup_pattern procedure.params
      have params : procedure.params ⊆ (pattern procedure.params).filterMap id :=
        fun name => (same name).mpr
      refine ⟨distinct, ?_⟩
      change StepsClosed code _ _ (frameSteps _ procedure ++ _ ++ _)
      rw [List.append_assoc]
      refine stepsClosed_frameSteps params ?_
      refine stepsClosed_values compiled (Scope.within_parameters params) ?_ emitsValues ?_
      · intro value bound dynamic
        refine Analysis.publishes_of_local dynamic ?_
        exact List.mem_append_right _ (List.mem_map_of_mem bound)
      · intro later within
        rw [Procedure.scopeAfter, List.take_length] at emitsEffects emitsResult
        exact stepsClosed_effects (allClosed_of_emits compiled emitsEffects within)
          (closed_of_emitsTail compiled emitsResult within)
  | loop planned concealed tests renews exits =>
      obtain ⟨_, _, _, counted⟩ := Procedure.loopPlan?_eq_some planned
      have within := Scope.within_slots procedure.params
      refine ⟨(length_of_emitsAll renews).trans counted, procedure, member, rfl, rfl, ?_, ?_, ?_⟩
      · exact closed_of_emits compiled tests within
      · exact allClosed_of_emits compiled renews within
      · exact closed_of_emitsTail compiled exits within

/-- A statement that binds a procedure names a declared slot and a declared function. -/
theorem closed_of_binds (compiled : compile program = .ok code) {procedures : List Procedure}
    {statements : List Statement} (members : procedures ⊆ program.procedures)
    (binds : List.Forall₂ (Binds (Analysis.ofProgram program) code.functions) procedures
      statements) : ∀ statement ∈ statements, statement.Closed code := by
  induction binds with
  | nil => simp
  | cons first _ ih =>
      rw [List.cons_subset] at members
      obtain ⟨index, body, rfl, found, _⟩ := first
      refine List.forall_mem_cons.mpr ⟨⟨?_, ?_⟩, ih members.2⟩
      · exact declaresProcedure_of_isProcedure compiled (Analysis.isProcedure_name members.1)
      · exact declaresFunction_of_mem compiled (mem_of_definition? found)

mutual

/-- The statements of a form are closed. -/
theorem closed_of_emitsForm {program : Program} {code : Code} {source : Form}
    {kinds later : List (String × Kind)} {statements : List Statement}
    (compiled : compile program = .ok code)
    (defined : source.definitions ⊆ program.definitions)
    (nested : Definition.allNested source.definitions ⊆ program.procedures)
    (emits : EmitsForm (Analysis.ofProgram program) code.functions kinds source statements later) :
    ∀ statement ∈ statements, statement.Closed code := by
  cases emits with
  | expression emits =>
      simpa [Statement.Closed] using closed_of_emits compiled emits (Scope.within_empty .empty)
  | @value _ name value expression emits =>
      have known : (Analysis.ofProgram program).isGlobal name = true :=
        Analysis.isGlobal_iff.mpr ⟨value, defined (List.mem_singleton_self _)⟩
      simpa [Statement.Closed] using
        And.intro (declaresGlobal_of_isGlobal compiled known)
          (closed_of_emits compiled emits (Scope.within_empty .empty))
  | procedure binds =>
      rw [Form.definitions, Definition.allNested, Definition.allNested, List.append_nil] at nested
      exact closed_of_binds compiled nested binds
  | begin emits => exact closed_of_emitsForms compiled defined nested emits

/-- The statements of a program are closed. -/
theorem closed_of_emitsForms {program : Program} {code : Code} {sources : List Form}
    {kinds later : List (String × Kind)} {statements : List Statement}
    (compiled : compile program = .ok code)
    (defined : Form.allDefinitions sources ⊆ program.definitions)
    (nested : Definition.allNested (Form.allDefinitions sources) ⊆ program.procedures)
    (emits : EmitsForms (Analysis.ofProgram program) code.functions kinds sources statements later) :
    ∀ statement ∈ statements, statement.Closed code := by
  cases emits with
  | nil => simp
  | cons emits emitsRest =>
      rw [Form.allDefinitions, List.append_subset] at defined
      rw [Form.allDefinitions, Definition.allNested_append, List.append_subset] at nested
      intro statement member
      rcases List.mem_append.mp member with here | later
      · exact closed_of_emitsForm compiled defined.1 nested.1 emits statement here
      · exact closed_of_emitsForms compiled defined.2 nested.2 emitsRest statement later

end

/-- Compiled code is closed: in the main function and in every other one, each slot and function that
is used is declared once, and each local, slot of a loop and frame is there before its use. -/
theorem compiled_code_is_closed (compiled : compile program = .ok code) :
    (∀ statement ∈ code.main, statement.Closed code) ∧
      ∀ function ∈ code.functions, function.Closed program code := by
  constructor
  · obtain ⟨emits, _⟩ := emits_of_compile compiled
    exact closed_of_emitsForms compiled (List.Subset.refl _) (List.Subset.refl _) emits
  · intro function member
    cases emitted_of_compile compiled function member with
    | procedure known emits => exact closed_of_emitsBody compiled known emits _
    | conditional distinct emits =>
        refine ⟨distinct, closed_of_emitsTail compiled emits (Scope.within_parameters ?_)⟩
        exact List.subset_append_right _ _

/-- The first procedure repeats a parameter, takes a decision inside an internal variable and
publishes the variable for the second one. The last procedure is a loop. -/
def scopedProgram : Program :=
  ⟨[.expression (.application "pick" [.identifier "limit", .identifier "limit", .identifier "limit"]),
    .definition (.procedure ⟨"pick", ["x", "x", "y"],
      [.value "z" (.application "if" [.identifier "x", .identifier "y", .identifier "limit"])],
      [.application "peek" []], .identifier "z"⟩),
    .definition (.procedure ⟨"peek", [], [], [], .identifier "z"⟩),
    .definition (.procedure ⟨"count", ["n"], [], [],
      .application "if" [.application "=" [.identifier "n", .identifier "limit"], .identifier "n",
        .application "count" [.application "+" [.identifier "n", .constant (.integer 1)]]]⟩),
    .definition (.value "limit" (.constant (.integer 9)))]⟩

/-- The code of this program is closed, with one function for the conditional and one for each
procedure. -/
theorem scopedProgram_code_is_closed :
    ∃ code, compile scopedProgram = .ok code ∧
      code.functions.map Function.identifier =
        [.conditional 1, .definition "pick" 0, .definition "peek" 2, .definition "count" 3] ∧
      (∀ statement ∈ code.main, statement.Closed code) ∧
      ∀ function ∈ code.functions, function.Closed scopedProgram code := by
  obtain ⟨code, compiled⟩ : ∃ code, compile scopedProgram = .ok code := ⟨_, rfl⟩
  have made : (compile scopedProgram).toOption.map (·.functions.map Function.identifier) =
      some [.conditional 1, .definition "pick" 0, .definition "peek" 2, .definition "count" 3] := by
    decide +kernel
  rw [compiled] at made
  exact ⟨code, compiled, Option.some.inj made, compiled_code_is_closed compiled⟩

end Compiler

end SmallScheme
