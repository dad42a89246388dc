/-
This file shows that rendering a compiled program only indents it: no expression breaks, whatever its
literals hold, and each block of the file is the body of its function.
-/

import SmallScheme.Proofs.Code.Layout
import SmallScheme.Proofs.Compiler.Coverage
import SmallScheme.Proofs.Compiler.Identifiers

namespace SmallScheme.Compiler

open Code Text

variable {program : Program} {code : Code} {analysis : Analysis} {functions : List Code.Function}
  {scope : Scope}

section Expressions

/-- The code of a literal stays on one line. -/
theorem oneLine_constant {literal : Literal} {expression : Expr}
    (made : constant literal = .ok expression) : OneLine expression.text := by
  cases literal with
  | integer value =>
      cases made
      simp +decide [Expr.text_integer]
  | character name =>
      obtain ⟨value, _, ended⟩ := except_bind_eq_ok made
      cases ended
      simp +decide [Expr.text_character]
  | string content =>
      cases made
      simp +decide [Expr.text_string]
  | boolean value =>
      cases made
      cases value with
      | true =>
          rw [Expr.text_true]
          decide
      | false =>
          rw [Expr.text_false]
          decide

mutual

/-- The code of a quoted datum stays on one line. -/
theorem oneLine_quoted {datum : Quoted} {expression : Expr} (made : quoted datum = .ok expression) :
    OneLine expression.text := by
  cases datum with
  | constant literal => exact oneLine_constant made
  | symbol name =>
      cases made
      simp +decide [Expr.text_string]
  | list elements =>
      obtain ⟨inner, given, ended⟩ := except_bind_eq_ok made
      cases ended
      have parts := oneLine_commas (oneLine_allQuoted given)
      simp +decide [Expr.text_list, parts]
  | vector elements =>
      obtain ⟨inner, given, ended⟩ := except_bind_eq_ok made
      cases ended
      have parts := oneLine_commas (oneLine_allQuoted given)
      simp +decide [Expr.text_vector, parts]
  | quotation datum =>
      obtain ⟨inner, given, ended⟩ := except_bind_eq_ok made
      cases ended
      have inside := oneLine_quoted given
      simp +decide [Expr.text_quotation, inside]

/-- The codes of quoted data stay on one line each. -/
theorem oneLine_allQuoted {data : List Quoted} {expressions : List Expr}
    (made : allQuoted data = .ok expressions) : ∀ part ∈ texts expressions, OneLine part := by
  cases data with
  | nil =>
      cases made
      simp [texts]
  | cons datum rest =>
      obtain ⟨inner, first, made⟩ := except_bind_eq_ok made
      obtain ⟨others, second, ended⟩ := except_bind_eq_ok made
      cases ended
      rw [texts, List.forall_mem_cons]
      exact ⟨oneLine_quoted first, oneLine_allQuoted second⟩

end

/-- The code of a variable stays on one line. -/
theorem oneLine_identifier {name : String} {expression : Expr}
    (made : identifier analysis scope name = .ok expression) : OneLine expression.text := by
  unfold identifier at made
  split at made
  · cases made
    exact oneLine_place _
  · split at made
    · cases made
      cases analysis.isGlobal name with
      | true => simp +decide [Expr.text_dynamic_global]
      | false => simp +decide [Expr.text_dynamic]
    · split at made
      · cases made
        simp +decide [Expr.text_global]
      · cases made

/-- The arguments of a conditional stay on one line each. -/
theorem oneLine_reads (places : List Code.Place) : ∀ part ∈ texts (places.map .read), OneLine part := by
  rw [texts_eq_map, List.map_map, List.forall_mem_map]
  exact fun place _ => oneLine_place place

mutual

/-- The code of an expression stays on one line. -/
theorem oneLine_of_emits {analysis : Analysis} {functions : List Code.Function} {scope : Scope}
    {source : Expression} {expression : Expr}
    (emits : Emits analysis functions scope source expression) : OneLine expression.text := by
  match emits with
  | .constant made => exact oneLine_constant made
  | .quotation made => exact oneLine_quoted made
  | .identifier made => exact oneLine_identifier made
  | .conditional found tests holds fails =>
      -- The branches stand in a function of their own, and only locals are left here.
      have parts := oneLine_commas (oneLine_reads (scope.visible.filterMap scope.lookup))
      simp +decide [Expr.text_conditional, visibleReads, parts]
  | .call named known emits =>
      have parts := oneLine_commas (oneLine_of_emitsAll emits)
      simp +decide [Expr.text_call, parts]
  | .host named undefined predefined accepted emits =>
      have parts := oneLine_commas (oneLine_of_emitsAll emits)
      simp +decide [Expr.text_host, parts]

/-- The codes of expressions stay on one line each. -/
theorem oneLine_of_emitsAll {analysis : Analysis} {functions : List Code.Function} {scope : Scope}
    {sources : List Expression} {expressions : List Expr}
    (emits : EmitsAll analysis functions scope sources expressions) :
    ∀ part ∈ texts expressions, OneLine part := by
  match emits with
  | .nil => simp [texts]
  | .cons emits emitsRest =>
      rw [texts, List.forall_mem_cons]
      exact ⟨oneLine_of_emits emits, oneLine_of_emitsAll emitsRest⟩

end

end Expressions

section Functions

/-- No expression of a result breaks. -/
theorem inline_of_emitsTail {source : Expression} {result : Tail}
    (emits : EmitsTail analysis functions scope source result) : result.Inline := by
  induction result generalizing source with
  | value expression =>
      cases emits with
      | value emits => exact oneLine_of_emits emits
  | branch condition consequent alternative first second =>
      cases emits with
      | branch tests holds fails => exact ⟨oneLine_of_emits tests, first holds, second fails⟩

/-- A publication has no expression that could break. -/
theorem inline_of_mem_publishIf {name : String} :
    ∀ step ∈ publishIf analysis name, step.Inline := by
  unfold publishIf
  split
  · simp [Step.Inline]
  · simp

/-- Entering a frame has no expression that could break. -/
theorem inline_of_mem_frameSteps {procedure : Procedure} :
    ∀ step ∈ frameSteps analysis procedure, step.Inline := by
  unfold frameSteps
  split
  · rw [List.forall_mem_cons]
    refine ⟨trivial, fun step member => ?_⟩
    obtain ⟨name, _, inside⟩ := List.mem_flatMap.mp member
    exact inline_of_mem_publishIf step inside
  · simp

/-- No value of an internal variable breaks. -/
theorem inline_of_emitsValues {values : List (String × Expression)} {steps : List Step}
    (emits : EmitsValues analysis functions scope values steps) : ∀ step ∈ steps, step.Inline := by
  induction emits with
  | nil => simp
  | cons emits _ ih =>
      rw [List.cons_append, List.forall_mem_cons, List.forall_mem_append]
      exact ⟨oneLine_of_emits emits, inline_of_mem_publishIf, ih⟩

/-- No expression of a procedure breaks, also where it is a loop. -/
theorem inline_of_emitsBody {procedure : Procedure} {body : Body}
    (emits : EmitsBody analysis functions procedure body) : body.Inline := by
  cases emits with
  | @plain values effects result emitsValues emitsEffects emitsResult =>
      refine ⟨?_, inline_of_emitsTail emitsResult⟩
      have effective := oneLine_of_emitsAll emitsEffects
      rw [texts_eq_map, List.forall_mem_map] at effective
      simp only [List.cons_append, List.forall_mem_cons, List.forall_mem_append, List.forall_mem_map]
      exact ⟨trivial, ⟨inline_of_mem_frameSteps, inline_of_emitsValues emitsValues⟩, effective⟩
  | loop planned concealed tests renews exits =>
      exact ⟨oneLine_of_emits tests, oneLine_of_emitsAll renews, inline_of_emitsTail exits⟩

/-- Every function of a compiled program breaks only in its result. -/
theorem breaksInResult_of_compile (compiled : compile program = .ok code) :
    ∀ function ∈ code.functions, function.BreaksInResult := by
  intro function member
  apply Function.breaksInResult
  cases emitted_of_compile compiled function member with
  | procedure known emits => exact inline_of_emitsBody emits
  | conditional distinct emits => exact inline_of_emitsTail emits

end Functions

section Statements

/-- Binding a procedure has no expression that could break. -/
theorem inline_of_binds {procedures : List Procedure} {statements : List Statement}
    (binds : List.Forall₂ (Binds analysis functions) procedures statements) :
    ∀ statement ∈ statements, statement.Inline := by
  induction binds with
  | nil => simp
  | cons first _ ih =>
      obtain ⟨index, body, rfl, _⟩ := first
      exact List.forall_mem_cons.mpr ⟨trivial, ih⟩

mutual

/-- No expression of the statements of a form breaks. -/
theorem inline_of_emitsForm {analysis : Analysis} {functions : List Code.Function} {source : Form}
    {kinds later : List (String × Kind)} {statements : List Statement}
    (emits : EmitsForm analysis functions kinds source statements later) :
    ∀ statement ∈ statements, statement.Inline := by
  match emits with
  | .expression emits => simpa [Statement.Inline] using oneLine_of_emits emits
  | .value emits => simpa [Statement.Inline] using oneLine_of_emits emits
  | .procedure binds => exact inline_of_binds binds
  | .begin emits => exact inline_of_emitsForms emits

/-- No expression of the statements of a program breaks. -/
theorem inline_of_emitsForms {analysis : Analysis} {functions : List Code.Function}
    {sources : List Form} {kinds later : List (String × Kind)} {statements : List Statement}
    (emits : EmitsForms analysis functions kinds sources statements later) :
    ∀ statement ∈ statements, statement.Inline := by
  match emits with
  | .nil => simp
  | .cons emits emitsRest =>
      rw [List.forall_mem_append]
      exact ⟨inline_of_emitsForm emits, inline_of_emitsForms emitsRest⟩

end

/-- A statement of the main function ends in a semicolon, on the line where it starts. -/
theorem exists_of_mem_main (compiled : compile program = .ok code) {statement : String}
    (member : statement ∈ code.listing.main) : ∃ early, statement = early ++ ";" ∧ OneLine early := by
  obtain ⟨emits, _⟩ := emits_of_compile compiled
  obtain ⟨source, listed, rfl⟩ := List.mem_map.mp member
  exact Statement.exists_text (inline_of_emitsForms emits source listed)

/-- A statement of the main function stays on one line. -/
theorem oneLine_of_mem_main (compiled : compile program = .ok code) :
    ∀ statement ∈ code.listing.main, OneLine statement := by
  intro statement member
  obtain ⟨early, rfl, oneLine⟩ := exists_of_mem_main compiled member
  simp +decide [oneLine]

/-- Indentation keeps a statement of the main function as its only line. -/
theorem laid_of_mem_main (compiled : compile program = .ok code) :
    ∀ statement ∈ code.listing.main, Laid statement [statement] := by
  intro statement member
  refine laid_of_oneLine (oneLine_of_mem_main compiled statement member) ?_
  obtain ⟨early, rfl, _⟩ := exists_of_mem_main compiled member
  simp

/-- The semicolon tells every statement from the result of the main function. -/
theorem result_notMem_main (compiled : compile program = .ok code) :
    "    Ok(())" ∉ Listing.statementLines code.listing.main := by
  intro member
  obtain ⟨part, inside, same⟩ := List.mem_map.mp member
  obtain ⟨statement, listed, split⟩ := List.mem_flatMap.mp inside
  rw [(laid_of_mem_main compiled statement listed).lines_eq, List.mem_singleton] at split
  obtain ⟨early, rfl, _⟩ := exists_of_mem_main compiled listed
  rw [split] at same
  have ends := congrArg (List.head? ∘ List.reverse ∘ String.toList) same
  simp [indentLine] at ends

end Statements

/-- Rendering only indents. In compiled code no statement holds a carriage return, and only the result
of a function breaks, where its branches do. So after the header of the file, the block of each function
is its body with four blanks before every line, and the block of the main function holds its
statements. -/
theorem rendering_only_indents (compiled : compile program = .ok code) (name : String) :
    (∀ statement ∈ code.listing.statements, '\r' ∉ statement.toList) ∧
      (∀ function ∈ code.functions, function.BreaksInResult) ∧
      (∀ statement ∈ code.listing.main, OneLine statement) ∧
      Text.lines (code.listing.render name) =
        Text.lines (Text.unlines (Listing.headerLines name)) ++ code.listing.codeLines name ∧
      (∀ function ∈ code.listing.functions,
        Indents (between function.header "\x7d" (code.listing.codeLines name))
          ("\n".intercalate function.body)) ∧
      Indents (between Listing.runHeader "    Ok(())" (code.listing.codeLines name))
        ("\n".intercalate code.listing.main) := by
  have breaks := breaksInResult_of_compile compiled
  have main := oneLine_of_mem_main compiled
  have laid : ∀ statement ∈ code.listing.main, ∃ parts, Laid statement parts :=
    fun statement member => ⟨_, laid_of_mem_main compiled statement member⟩
  refine ⟨?_, breaks, main, ?_, ?_, ?_⟩
  · intro statement member
    rcases List.mem_append.mp member with inside | listed
    · obtain ⟨text, listed, written⟩ := List.mem_flatMap.mp inside
      obtain ⟨function, known, rfl⟩ := List.mem_map.mp listed
      exact (breaks function known).notMem_return statement written
    · exact (main statement listed).2
  · rw [Listing.codeLines_eq breaks laid, Listing.lines_render breaks laid]
  · intro text listed
    have distinct : (code.listing.functions.map FunctionText.name).Nodup := by
      rw [names_functions]
      exact (nodup_functions compiled).map Identifier.text_injective
    obtain ⟨function, known, rfl⟩ := List.mem_map.mp listed
    rw [Listing.between_function breaks laid distinct known]
    exact Listing.indents_statementLines (breaks function known).laid
  · rw [Listing.between_run breaks laid (result_notMem_main compiled)]
    exact Listing.indents_statementLines laid

/-- Strings and characters that end lines stand in the effect, in both branches of the result and in
the argument of the call, which is a conditional too. -/
def brokenProgram : Program :=
  ⟨[.definition (.procedure ⟨"pick", ["x"], [],
      [.application "display" [.constant (.string "a\r\nb")]],
      .application "if" [.identifier "x",
        .application "if" [.application "equal?" [.identifier "x", .constant (.string "\n")],
          .constant (.integer (-1)), .quotation (.vector [.symbol "\r"])],
        .constant (.character "newline")]⟩),
    .expression (.application "pick" [.application "if"
      [.constant (.boolean true), .constant (.string "\r"), .constant (.boolean false)]])]⟩

/-- The lines of the results of the two functions. -/
def brokenResults : List (List String) :=
  [["if world::is_true(&arg_x.clone()) \x7b",
      "    if world::is_true(&world::equal(&[arg_x.clone(), Value::string(\"\\n\")])?) \x7b",
      "        Ok(Value::integer(\"-1\")?)",
      "    \x7d else \x7b",
      "        Ok(Value::Vector(vec![Value::string(\"\\r\")]))",
      "    \x7d",
      "\x7d else \x7b",
      "    Ok(Value::Character(\x27\\n\x27))",
      "\x7d"],
    ["if world::is_true(&Value::Boolean(true)) \x7b",
      "    Ok(Value::string(\"\\r\"))",
      "\x7d else \x7b",
      "    Ok(Value::Boolean(false))",
      "\x7d"]]

/-- Neither the literals of this program nor the name of its file change how it is indented. -/
theorem brokenProgram_is_indented :
    ∃ code, compile brokenProgram = .ok code ∧
      code.functions.map (fun function => function.result.lines) = brokenResults ∧
      (∀ statement ∈ code.listing.statements, '\r' ∉ statement.toList) ∧
      (∀ function ∈ code.functions, function.BreaksInResult) ∧
      (∀ statement ∈ code.listing.main, OneLine statement) ∧
      Text.lines (code.listing.render "a\nb.scm") =
        Text.lines (Text.unlines (Listing.headerLines "a\nb.scm")) ++
          code.listing.codeLines "a\nb.scm" ∧
      (∀ function ∈ code.listing.functions,
        Indents (between function.header "\x7d" (code.listing.codeLines "a\nb.scm"))
          ("\n".intercalate function.body)) ∧
      Indents (between Listing.runHeader "    Ok(())" (code.listing.codeLines "a\nb.scm"))
        ("\n".intercalate code.listing.main) := by
  obtain ⟨code, compiled⟩ : ∃ code, compile brokenProgram = .ok code := ⟨_, rfl⟩
  have made : (compile brokenProgram).toOption.map
      (fun code => code.functions.map fun function => function.result.lines) =
        some brokenResults := by
    decide +kernel
  rw [compiled] at made
  exact ⟨code, compiled, Option.some.inj made, rendering_only_indents compiled "a\nb.scm"⟩

end SmallScheme.Compiler
