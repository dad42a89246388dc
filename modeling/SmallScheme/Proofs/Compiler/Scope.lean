/-
This file relates the scopes in which code is compiled to the names that the code reads.
-/

import SmallScheme.Compiler.Generate
import SmallScheme.Table

namespace SmallScheme

namespace Scope

/-- The bound names in the order of their bindings. -/
def names (scope : Scope) : List String :=
  scope.bindings.map Prod.fst

/-- The scope of some parameters binds them in their order. -/
theorem names_parameters (params : List String) : (parameters params).names = params := by
  simp [names, parameters, Function.comp_def]

/-- The scope of a loop binds its parameters in their order. -/
theorem names_slots (params : List String) : (slots params).names = params := by
  rw [names, slots, List.mapIdx_eq_zipIdx_map, List.map_map]
  exact List.zipIdx_map_fst 0 params

/-- A new name is bound after the others. -/
theorem names_bind (scope : Scope) (name : String) :
    (scope.bind name).names = scope.names ++ [name] := by
  simp [names, bind]

/-- A name without a place is not bound. -/
theorem lookup_eq_none_iff (scope : Scope) (name : String) :
    scope.lookup name = none ↔ name ∉ scope.names := by
  rw [lookup, List.lookup_eq_none_iff]
  constructor
  · intro absent member
    obtain ⟨binding, inside, rfl⟩ := List.mem_map.mp member
    simpa using absent binding (List.mem_reverse.mpr inside)
  · intro absent binding inside
    have known : binding.1 ∈ scope.names := List.mem_map_of_mem (List.mem_reverse.mp inside)
    simpa using fun same : name = binding.1 => absent (same ▸ known)

/-- A name with a place is bound. -/
theorem lookup_isSome_iff (scope : Scope) (name : String) :
    (scope.lookup name).isSome ↔ name ∈ scope.names := by
  rw [Option.isSome_iff_ne_none, ne_eq, lookup_eq_none_iff, Decidable.not_not]

/-- A new binding hides the earlier ones of its name. -/
theorem lookup_bind (scope : Scope) (name other : String) :
    (scope.bind name).lookup other =
      if other = name then some (.held name) else scope.lookup other := by
  unfold lookup bind
  rw [List.reverse_append, List.reverse_singleton, List.singleton_append, List.lookup_cons]
  by_cases same : other = name
  · simp [same]
  · simp [same, beq_false_of_ne same]

/-- A parameter is held under its own name. -/
theorem lookup_parameters (params : List String) (name : String) :
    (parameters params).lookup name = if name ∈ params then some (.held name) else none := by
  rw [lookup, parameters, ← List.map_reverse, Table.lookup_map_names]
  simp only [List.mem_reverse]

/-- The visible names are the bound ones. -/
theorem mem_visible (scope : Scope) (name : String) :
    name ∈ scope.visible ↔ name ∈ scope.names := by
  rw [visible, names, List.mem_eraseDups]

/-- Erasing duplicates leaves none. -/
theorem nodup_eraseDups (names : List String) : names.eraseDups.Nodup := by
  match names with
  | [] => exact List.nodup_nil
  | name :: rest =>
      have shorter : (rest.filter fun other => !other == name).length ≤ rest.length :=
        List.length_filter_le _ _
      rw [List.eraseDups_cons, List.nodup_cons, List.mem_eraseDups]
      exact ⟨by simp, nodup_eraseDups _⟩
termination_by names.length

/-- Each visible name is listed once. -/
theorem nodup_visible (scope : Scope) : scope.visible.Nodup :=
  nodup_eraseDups _

end Scope

namespace Expression

/-- Expressions read freely what each of them reads freely. -/
theorem allFree_eq_flatMap (scope : List String) (expressions : List Expression) :
    allFree scope expressions = expressions.flatMap (free scope) := by
  induction expressions with
  | nil => rfl
  | cons expression rest ih => rw [allFree, ih, List.flatMap_cons]

mutual

/-- Only the bound names count, not their order. -/
theorem free_congr {first second : List String} (same : ∀ name, name ∈ first ↔ name ∈ second)
    (expression : Expression) : expression.free first = expression.free second := by
  cases expression with
  | identifier name =>
      have contained : first.contains name = second.contains name := by
        rw [Bool.eq_iff_iff, List.contains_iff_mem, List.contains_iff_mem, same name]
      rw [free, free, contained]
  | application procedure operands => exact allFree_congr same operands
  | _ => rfl

/-- Only the bound names count for some expressions, not their order. -/
theorem allFree_congr {first second : List String} (same : ∀ name, name ∈ first ↔ name ∈ second)
    (expressions : List Expression) : allFree first expressions = allFree second expressions := by
  cases expressions with
  | nil => rfl
  | cons expression rest =>
      rw [allFree, allFree, free_congr same expression, allFree_congr same rest]

end

/-- What an operand reads, the application reads. -/
theorem mem_free_application {scope : List String} {procedure name : String}
    {operands : List Expression} {operand : Expression} (member : operand ∈ operands)
    (reads : name ∈ operand.free scope) : name ∈ (application procedure operands).free scope := by
  rw [free, allFree_eq_flatMap, List.mem_flatMap]
  exact ⟨operand, member, reads⟩

end Expression

namespace Procedure

/-- The scope after some of the internal variables are defined. -/
def scopeAfter (procedure : Procedure) (count : Nat) : Scope :=
  (procedure.values.take count).foldl (fun scope value => scope.bind value.1)
    (.parameters procedure.params)

/-- Before any internal variable is defined, only the parameters are in scope. -/
theorem scopeAfter_zero (procedure : Procedure) :
    procedure.scopeAfter 0 = .parameters procedure.params := rfl

/-- The next internal variable joins the scope. -/
theorem scopeAfter_succ {procedure : Procedure} {count : Nat} {name : String} {value : Expression}
    (inside : procedure.values[count]? = some (name, value)) :
    procedure.scopeAfter (count + 1) = (procedure.scopeAfter count).bind name := by
  rw [scopeAfter, List.take_add_one, inside, List.foldl_append]
  rfl

/-- The names in scope are the parameters and the variables defined so far. -/
theorem names_scopeAfter (procedure : Procedure) (count : Nat) :
    (procedure.scopeAfter count).names =
      procedure.params ++ (procedure.values.take count).map Prod.fst := by
  have general (values : List (String × Expression)) (scope : Scope) :
      (values.foldl (fun scope value => scope.bind value.1) scope).names =
        scope.names ++ values.map Prod.fst := by
    induction values generalizing scope with
    | nil => simp
    | cons value rest ih => rw [List.foldl_cons, ih, Scope.names_bind]; simp
  rw [scopeAfter, general, Scope.names_parameters]

/-- Every name in scope is a local of the procedure. -/
theorem names_scopeAfter_subset {procedure : Procedure} {count : Nat} {name : String}
    (bound : name ∈ (procedure.scopeAfter count).names) : name ∈ procedure.locals := by
  rw [names_scopeAfter, List.mem_append] at bound
  rw [locals, List.mem_append]
  rcases bound with param | value
  · exact .inl param
  · obtain ⟨definition, member, rfl⟩ := List.mem_map.mp value
    exact .inr (List.mem_map_of_mem (List.mem_of_mem_take member))

/-- After all the internal variables, all the locals are in scope. -/
theorem scopeAfter_all (procedure : Procedure) :
    (procedure.scopeAfter procedure.values.length).names = procedure.locals := by
  rw [names_scopeAfter, List.take_length, locals]

/-- Every local of a plain body is held under its own name. -/
theorem lookup_scopeAfter {procedure : Procedure} {count : Nat} {name : String}
    {place : Code.Place} (placed : (procedure.scopeAfter count).lookup name = some place) :
    place = .held name := by
  have general (values : List (String × Expression)) (scope : Scope)
      (plain : ∀ name place, scope.lookup name = some place → place = .held name) :
      ∀ name place, (values.foldl (fun scope value => scope.bind value.1) scope).lookup name =
        some place → place = .held name := by
    induction values generalizing scope with
    | nil => exact plain
    | cons value rest ih =>
        apply ih
        intro other place placed
        rw [Scope.lookup_bind] at placed
        split at placed
        · rename_i same
          rw [← Option.some.inj placed, same]
        · exact plain other place placed
  refine general _ _ ?_ name place placed
  intro other place placed
  rw [Scope.lookup_parameters] at placed
  split at placed
  · exact (Option.some.inj placed).symm
  · contradiction

/-- With no variable left to define, the scope is the last one. -/
theorem scopeAfter_of_drop_eq_nil {procedure : Procedure} {count : Nat}
    (rest : procedure.values.drop count = []) :
    procedure.scopeAfter count = procedure.scopeAfter procedure.values.length := by
  rw [scopeAfter, scopeAfter, List.take_length, List.take_of_length_le (List.drop_eq_nil_iff.mp rest)]

/-- The internal variable that comes next. -/
theorem values_of_drop_eq_cons {procedure : Procedure} {count : Nat}
    {definition : String × Expression} {rest : List (String × Expression)}
    (dropped : procedure.values.drop count = definition :: rest) :
    procedure.values[count]? = some definition ∧ procedure.values.drop (count + 1) = rest := by
  constructor
  · rw [← Nat.add_zero count, ← List.getElem?_drop, dropped]
    rfl
  · rw [← List.drop_drop, dropped]
    rfl

/-- What a value reads beyond the variables before it, the values read. -/
theorem mem_freeValues {values : List (String × Expression)} {count : Nat} {name read : String}
    {value : Expression} (scope : List String) (inside : values[count]? = some (name, value))
    (reads : read ∈ value.free (scope ++ (values.take count).map Prod.fst)) :
    read ∈ freeValues scope values := by
  induction values generalizing scope count with
  | nil => simp at inside
  | cons first rest ih =>
      rw [freeValues, List.mem_append]
      cases count with
      | zero =>
          obtain rfl : first = (name, value) := Option.some.inj inside
          exact .inl (by simpa using reads)
      | succ count =>
          rw [List.take_succ_cons, List.map_cons, ← List.singleton_append, ← List.append_assoc]
            at reads
          exact .inr (ih _ inside reads)

/-- An internal variable reads only what the procedure reads. -/
theorem mem_free_of_value {procedure : Procedure} {count : Nat} {name read : String}
    {value : Expression} (inside : procedure.values[count]? = some (name, value))
    (reads : read ∈ value.free (procedure.scopeAfter count).names) : read ∈ procedure.free := by
  rw [names_scopeAfter] at reads
  rw [free, List.mem_append]
  exact .inl (mem_freeValues procedure.params inside reads)

/-- An effect or the body reads only what the procedure reads. -/
theorem mem_free_of_part {procedure : Procedure} {part : Expression} {read : String}
    (member : part ∈ procedure.effects ++ [procedure.body])
    (reads : read ∈ part.free (procedure.scopeAfter procedure.values.length).names) :
    read ∈ procedure.free := by
  rw [scopeAfter_all] at reads
  rw [free, List.mem_append, Expression.allFree_eq_flatMap, List.mem_flatMap]
  exact .inr ⟨part, member, reads⟩

end Procedure

namespace Analysis

/-- The compiler knows every procedure of the program by its name. -/
theorem isProcedure_name {program : Program} {procedure : Procedure}
    (member : procedure ∈ program.procedures) :
    (ofProgram program).isProcedure procedure.name = true :=
  List.contains_iff_mem.mpr (List.mem_map_of_mem member)

/-- The globals are the names of the variables that the program defines. -/
theorem isGlobal_iff {program : Program} {name : String} :
    (ofProgram program).isGlobal name = true ↔ ∃ value, .value name value ∈ program.definitions := by
  rw [isGlobal, List.contains_iff_mem, ofProgram, List.mem_filterMap]
  constructor
  · rintro ⟨definition, member, named⟩
    cases definition with
    | value other value =>
        obtain rfl : other = name := by simpa [Definition.value?] using named
        exact ⟨value, member⟩
    | procedure procedure => simp [Definition.value?] at named
  · rintro ⟨value, member⟩
    exact ⟨_, member, rfl⟩

/-- A name that one procedure reads freely and another binds is dynamic. -/
theorem isDynamic_of_free_of_local {program : Program} {reader owner : Procedure} {name : String}
    (reading : reader ∈ program.procedures) (owning : owner ∈ program.procedures)
    (reads : name ∈ reader.free) (binds : name ∈ owner.locals) :
    (ofProgram program).isDynamic name := by
  have free : name ∈ program.procedures.flatMap Procedure.free :=
    List.mem_flatMap.mpr ⟨reader, reading, reads⟩
  have bound : name ∈ program.procedures.flatMap Procedure.locals :=
    List.mem_flatMap.mpr ⟨owner, owning, binds⟩
  rw [isDynamic, List.contains_iff_mem, ofProgram]
  exact List.mem_filter.mpr ⟨free, List.contains_iff_mem.mpr bound⟩

/-- A procedure that binds a dynamic name publishes it. -/
theorem publishes_of_local {analysis : Analysis} {owner : Procedure} {name : String}
    (dynamic : analysis.isDynamic name) (binds : name ∈ owner.locals) :
    analysis.publishes owner :=
  List.any_eq_true.mpr ⟨name, binds, dynamic⟩

end Analysis

namespace Compiler

/-- What is made in two steps is made by the first and then by the second. -/
theorem except_bind_eq_ok {A B : Type} {first : Except RunError A} {next : A → Except RunError B}
    {value : B} (made : (first >>= next) = .ok value) :
    ∃ given, first = .ok given ∧ next given = .ok value := by
  cases first with
  | error error => cases made
  | ok given => exact ⟨given, rfl, made⟩

/-- Code that is made in two steps is made by the first and then by the second. -/
theorem bind_eq_ok {A B : Type} {first : Generate A} {next : A → Generate B} {code last : Code}
    {value : B} (made : (first >>= next) code = .ok (value, last)) :
    ∃ given middle, first code = .ok (given, middle) ∧ next given middle = .ok (value, last) := by
  change Except.bind (first code) (fun result => next result.1 result.2) = _ at made
  cases ended : first code with
  | error error =>
      rw [ended] at made
      exact nomatch made
  | ok result => exact ⟨result.1, result.2, rfl, by rw [ended] at made; exact made⟩

/-- The internal variables join the scope one after the other. -/
theorem scope_of_valueSteps {analysis : Analysis} {scope last : Scope}
    {values : List (String × Expression)} {code after : Code} {steps : List Code.Step}
    (made : valueSteps analysis scope values code = .ok ((steps, last), after)) :
    last = values.foldl (fun scope value => scope.bind value.1) scope := by
  induction values generalizing scope code steps with
  | nil =>
      cases made
      rfl
  | cons definition rest ih =>
      obtain ⟨name, value⟩ := definition
      obtain ⟨_, _, _, made⟩ := bind_eq_ok made
      obtain ⟨⟨others, final⟩, _, tail, ended⟩ := bind_eq_ok made
      cases ended
      exact ih tail

end Compiler

end SmallScheme
