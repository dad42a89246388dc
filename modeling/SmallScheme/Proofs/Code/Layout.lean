/-
This file shows how generated code breaks into lines: a literal or a name never does, a result breaks
at its branches, and the parts of a rendered program stand on lines of their own.
-/

import SmallScheme.Code.Listing
import SmallScheme.Proofs.Code.Names
import SmallScheme.Proofs.Text.Decimal
import SmallScheme.Proofs.Text.Lines

namespace SmallScheme

namespace Text

/-- A character that ends a line is written as an escape. -/
theorem ne_of_mem_escapeChar {quote : Char} (newline : quote ≠ '\n') (back : quote ≠ '\r')
    (c : Char) : ∀ d ∈ escapeChar quote c, d ≠ '\n' ∧ d ≠ '\r' := by
  unfold escapeChar
  split_ifs with null tab returned broken slash quoted unprintable
  · simp
  · simp
  · simp
  · simp
  · simp
  · simp [quoted, newline, back]
  · have digits : ∀ d ∈ hexadecimal c.toNat, d ≠ '\n' ∧ d ≠ '\r' := by
      intro d member
      have plain := isAlphanum_of_mem_hexadecimal member
      constructor
      · rintro rfl
        contradiction
      · rintro rfl
        contradiction
    simpa [or_imp, forall_and] using digits
  · simp [broken, returned]

/-- An escaped text between quotes stays on one line. -/
theorem oneLine_escaped {quote : Char} (newline : quote ≠ '\n') (back : quote ≠ '\r')
    (content : List Char) :
    OneLine (String.ofList ([quote] ++ content.flatMap (escapeChar quote) ++ [quote])) := by
  have chars : ∀ d ∈ [quote] ++ content.flatMap (escapeChar quote) ++ [quote],
      d ≠ '\n' ∧ d ≠ '\r' := by
    intro d member
    simp only [List.mem_append, List.mem_singleton, List.mem_flatMap] at member
    rcases member with (rfl | ⟨c, _, inside⟩) | rfl
    · exact ⟨newline, back⟩
    · exact ne_of_mem_escapeChar newline back c d inside
    · exact ⟨newline, back⟩
  rw [OneLine, String.toList_ofList]
  exact ⟨fun member => (chars _ member).1 rfl, fun member => (chars _ member).2 rfl⟩

/-- A string literal stays on one line, whatever its content is. -/
@[simp] theorem oneLine_quoteString (content : String) : OneLine (quoteString content) :=
  oneLine_escaped (by decide) (by decide) content.toList

/-- A character literal stays on one line. -/
@[simp] theorem oneLine_quoteChar (c : Char) : OneLine (quoteChar c) := by
  have escaped := oneLine_escaped (by decide : '\x27' ≠ '\n') (by decide) [c]
  rwa [List.flatMap_singleton] at escaped

@[simp] theorem oneLine_repr (number : Nat) : OneLine number.repr := by
  refine oneLine_of_all (by decide : Char.isDigit '\n' = false) (by decide) ?_
  intro c member
  rw [Nat.repr_eq_ofList_toDigits, String.toList_ofList] at member
  exact Nat.isDigit_of_mem_toDigits (by decide) (by decide) member

@[simp] theorem oneLine_decimal (value : Int) : OneLine (Decimal.text value) := by
  have marks : ∀ c ∈ (Decimal.text value).toList, (c.isDigit || c == '-') = true := by
    intro c member
    simpa using Decimal.isDigit_or_minus_of_mem member
  exact oneLine_of_all (by decide) (by decide) marks

end Text

namespace Code

open Text

section Names

/-- A mangled name stays on one line, even where the name does not. -/
@[simp] theorem oneLine_mangle (name : String) : OneLine (mangle name) :=
  oneLine_of_all (by decide) (by decide) fun _ => isIdentifierChar_of_mem_mangle

@[simp] theorem oneLine_localName (name : String) : OneLine (localName name) := by
  simp +decide [localName]

@[simp] theorem oneLine_globalName (name : String) : OneLine (globalName name) := by
  simp +decide [globalName]

@[simp] theorem oneLine_procedureName (name : String) : OneLine (procedureName name) := by
  simp +decide [procedureName]

/-- Numbering a name adds only characters of identifiers. -/
theorem isIdentifierChar_of_mem_numbered {stem : String}
    (all : ∀ c ∈ stem.toList, isIdentifierChar c = true) (index : Nat) :
    ∀ c ∈ (numbered stem index).toList, isIdentifierChar c = true := by
  rw [toList_numbered, List.forall_mem_append, List.forall_mem_cons]
  refine ⟨all, by decide, fun c member => ?_⟩
  have digit : c.isDigit = true := Nat.isDigit_of_mem_toDigits (by decide) (by decide) member
  change (c.isAlpha || c.isDigit || c == '_') = true
  simp [digit]

/-- The name of a condition has only characters of identifiers. -/
theorem isIdentifierChar_of_mem_conditionalName (index : Nat) :
    ∀ c ∈ (conditionalName index).toList, isIdentifierChar c = true :=
  isIdentifierChar_of_mem_numbered (by simp [isIdentifierChar]) index

/-- The name of a function that defines a procedure has only characters of identifiers. -/
theorem isIdentifierChar_of_mem_definitionName (name : String) (index : Nat) :
    ∀ c ∈ (definitionName name index).toList, isIdentifierChar c = true := by
  refine isIdentifierChar_of_mem_numbered ?_ index
  rw [procedureName, String.toList_append, List.forall_mem_append]
  exact ⟨by simp [isIdentifierChar], fun _ => isIdentifierChar_of_mem_mangle⟩

/-- No character of an identifier ends a line. -/
theorem oneLine_of_isIdentifierChar {text : String}
    (all : ∀ c ∈ text.toList, isIdentifierChar c = true) : OneLine text :=
  oneLine_of_all (by decide) (by decide) all

@[simp] theorem oneLine_conditionalName (index : Nat) : OneLine (conditionalName index) :=
  oneLine_of_isIdentifierChar (isIdentifierChar_of_mem_conditionalName index)

@[simp] theorem oneLine_definitionName (name : String) (index : Nat) :
    OneLine (definitionName name index) :=
  oneLine_of_isIdentifierChar (isIdentifierChar_of_mem_definitionName name index)

@[simp] theorem oneLine_host (builtin : Builtin) : OneLine builtin.host := by
  cases builtin <;> decide

@[simp] theorem oneLine_declaredName (kind : Kind) : OneLine kind.declaredName := by
  cases kind <;> decide

/-- Parts on one line each stay on one line with commas between them. -/
theorem oneLine_commas {parts : List String} (all : ∀ part ∈ parts, OneLine part) :
    OneLine (commas parts) :=
  oneLine_intercalate (by decide) all

@[simp] theorem oneLine_patternText (name : Option String) : OneLine (patternText name) := by
  cases name with
  | none => decide
  | some name => exact oneLine_localName name

@[simp] theorem oneLine_place (place : Place) : OneLine place.text := by
  cases place with
  | held name => simp +decide [Place.text_held]
  | slot index => simp +decide [Place.text_slot]

end Names

section Results

/-- The lines of a result. A branch starts a line after each of its braces, and its results are
indented between them. -/
def Tail.lines : Tail → List String
  | .value expression => ["Ok(" ++ expression.text ++ ")"]
  | .branch condition consequent alternative =>
      ["if world::is_true(&" ++ condition.text ++ ") \x7b"] ++ consequent.lines.map indentLine ++
        ["\x7d else \x7b"] ++ alternative.lines.map indentLine ++ ["\x7d"]

/-- Every expression of the result stays on one line. -/
def Tail.Inline : Tail → Prop
  | .value expression => OneLine expression.text
  | .branch condition consequent alternative =>
      OneLine condition.text ∧ consequent.Inline ∧ alternative.Inline

/-- No line of a result is empty. -/
theorem Tail.ne_of_mem_lines {result : Tail} : ∀ line ∈ result.lines, line ≠ "" := by
  cases result with
  | value expression => simp [lines]
  | branch condition consequent alternative =>
      simp [lines, indentLine, or_imp, forall_and]

/-- Each line of a result is one line if its expressions are. -/
theorem Tail.oneLine_lines {result : Tail} (inline : result.Inline) :
    ∀ line ∈ result.lines, OneLine line := by
  induction result with
  | value expression =>
      have inside : OneLine expression.text := inline
      simp +decide [lines, inside]
  | branch condition consequent alternative first second =>
      obtain ⟨tests, holds, fails⟩ := inline
      have consequents := first holds
      have alternatives := second fails
      simp +decide only [lines, List.forall_mem_append, List.forall_mem_singleton, oneLine_append,
        tests, List.forall_mem_map, oneLine_indentLine, and_true, true_and]
      exact ⟨consequents, alternatives⟩

/-- A result has at least one line. -/
theorem Tail.lines_ne_nil (result : Tail) : result.lines ≠ [] := by
  cases result <;> simp [lines]

/-- The lines of a branch, joined, are its text if those of both its results are. -/
theorem Tail.joined_branch {condition : Expr} {consequent alternative : Tail}
    (first : Laid consequent.text consequent.lines)
    (second : Laid alternative.text alternative.lines) :
    "\n".intercalate (branch condition consequent alternative).lines =
      (branch condition consequent alternative).text := by
  -- The newlines around an indented result are written together with the braces.
  have opening : ") \x7b\n" = ") \x7b" ++ "\n" := rfl
  have middle : "\n\x7d else \x7b\n" = "\n" ++ "\x7d else \x7b" ++ "\n" := rfl
  have closing : "\n\x7d" = "\n" ++ "\x7d" := rfl
  rw [text_branch, first.indent_eq, second.indent_eq, lines, opening, middle, closing]
  simp only [ne_eq, List.append_eq_nil_iff, List.map_eq_nil_iff, List.cons_ne_nil, first.filled,
    second.filled, and_self, not_false_eq_true, String.intercalate_append_of_ne_nil,
    String.intercalate_singleton, String.append_assoc]

/-- Each level of indentation splits the lines of a result and keeps them. -/
theorem Tail.laid {result : Tail} (inline : result.Inline) : Laid result.text result.lines := by
  induction result with
  | value expression =>
      refine ⟨lines_ne_nil _, oneLine_lines inline, ne_of_mem_lines, ?_⟩
      rw [lines, String.intercalate_singleton, text_value]
  | branch condition consequent alternative first second =>
      exact ⟨lines_ne_nil _, oneLine_lines inline, ne_of_mem_lines,
        joined_branch (first inline.2.1) (second inline.2.2)⟩

end Results

section Statements

/-- Every expression of the step stays on one line. -/
def Step.Inline : Step → Prop
  | .bind _ expression => OneLine expression.text
  | .effect expression => OneLine expression.text
  | _ => True

/-- A step is one line that is not empty. -/
theorem Step.oneLine_text {step : Step} (inline : step.Inline) :
    OneLine step.text ∧ step.text ≠ "" := by
  cases step with
  | unpack pattern =>
      have names : OneLine (commas (pattern.map patternText)) := oneLine_commas (by simp)
      simp +decide [text_unpack, names]
  | enterFrame => simp +decide
  | publish name => simp +decide [text_publish]
  | bind name expression =>
      have inside : OneLine expression.text := inline
      simp +decide [text_bind, inside]
  | effect expression =>
      have inside : OneLine expression.text := inline
      simp +decide [text_effect, inside]

/-- Every expression of the body stays on one line. -/
def Body.Inline : Body → Prop
  | .plain steps result => (∀ step ∈ steps, step.Inline) ∧ result.Inline
  | .loop _ _ condition updates exit =>
      OneLine condition.text ∧ (∀ update ∈ texts updates, OneLine update) ∧ exit.Inline

/-- The result that a body ends with, which is the exit of a loop. -/
def Body.result : Body → Tail
  | .plain _ result => result
  | .loop _ _ _ _ exit => exit

/-- The result is the last statement of a body, and the only one that breaks. -/
theorem Body.exists_early {body : Body} (inline : body.Inline) :
    ∃ early, body.text = early ++ [body.result.text] ∧
      ∀ statement ∈ early, OneLine statement ∧ statement ≠ "" := by
  cases body with
  | plain steps result =>
      refine ⟨steps.map Step.text, text_plain steps result, ?_⟩
      rw [List.forall_mem_map]
      exact fun step member => Step.oneLine_text (inline.1 step member)
  | loop size negated condition updates exit =>
      refine ⟨_, text_loop size negated condition updates exit, ?_⟩
      obtain ⟨tests, renews, _⟩ := inline
      have commas := oneLine_commas renews
      cases negated <;> simp +decide [tests, commas]

/-- Every expression of the function stays on one line. -/
def Function.Inline : Function → Prop
  | .procedure _ _ body => body.Inline
  | .conditional _ _ result => result.Inline

/-- The result that a function ends with. -/
def Function.result : Function → Tail
  | .procedure _ _ body => body.result
  | .conditional _ _ result => result

/-- The statements of the function before its result are lines, and the result breaks into its
lines. -/
def Function.BreaksInResult (function : Function) : Prop :=
  ∃ early, (FunctionText.ofFunction function).body = early ++ [function.result.text] ∧
    (∀ statement ∈ early, OneLine statement ∧ statement ≠ "") ∧
    Laid function.result.text function.result.lines

/-- A function whose expressions stay on one line breaks only in its result. -/
theorem Function.breaksInResult {function : Function} (inline : function.Inline) :
    function.BreaksInResult := by
  cases function with
  | procedure name index body =>
      obtain ⟨early, parts, lines⟩ := Body.exists_early inline
      refine ⟨early, parts, lines, Tail.laid ?_⟩
      cases body with
      | plain steps result => exact inline.2
      | loop size negated condition updates exit => exact inline.2.2
  | conditional index params result => exact ⟨[], rfl, by simp, Tail.laid inline⟩

/-- Each statement of such a function splits into lines that indentation keeps. -/
theorem Function.BreaksInResult.laid {function : Function} (breaks : function.BreaksInResult) :
    ∀ statement ∈ (FunctionText.ofFunction function).body, ∃ parts, Laid statement parts := by
  obtain ⟨early, parts, lines, laid⟩ := breaks
  intro statement member
  rw [parts, List.mem_append, List.mem_singleton] at member
  rcases member with before | rfl
  · obtain ⟨oneLine, visible⟩ := lines statement before
    exact ⟨_, laid_of_oneLine oneLine visible⟩
  · exact ⟨_, laid⟩

/-- No statement of such a function holds a carriage return. -/
theorem Function.BreaksInResult.notMem_return {function : Function}
    (breaks : function.BreaksInResult) :
    ∀ statement ∈ (FunctionText.ofFunction function).body, '\r' ∉ statement.toList := by
  intro statement member returned
  obtain ⟨parts, laid⟩ := breaks.laid statement member
  rw [← laid.joined] at returned
  obtain mark | ⟨part, listed, inside⟩ := mem_intercalate returned
  · simp at mark
  · exact (laid.oneLine part listed).2 inside

/-- Every expression of the statement stays on one line. -/
def Statement.Inline : Statement → Prop
  | .evaluate expression => OneLine expression.text
  | .define _ expression => OneLine expression.text
  | .bind _ _ => True

/-- A statement of the main function is a line that ends in a semicolon. -/
theorem Statement.exists_text {statement : Statement} (inline : statement.Inline) :
    ∃ early, statement.text = early ++ ";" ∧ OneLine early := by
  cases statement with
  | evaluate expression => exact ⟨expression.text, text_evaluate expression, inline⟩
  | define name expression =>
      have inside : OneLine expression.text := inline
      refine ⟨globalName name ++ ".define(" ++ expression.text ++ ")?", ?_, by simp +decide [inside]⟩
      have marks : ")?;" = ")?" ++ ";" := rfl
      rw [text_define, marks, ← String.append_assoc]
  | bind procedure index =>
      refine ⟨procedureName procedure ++ ".define(" ++ definitionName procedure index ++ ")", ?_,
        by simp +decide⟩
      have marks : ");" = ")" ++ ";" := rfl
      rw [text_bind, marks, ← String.append_assoc]

end Statements

end Code

open Text

/-- The line that a function starts with. -/
def FunctionText.header (function : FunctionText) : String :=
  "fn " ++ function.name ++ "(" ++ Code.commas function.params ++
    ") -> Result<Value, SchemeError> \x7b"

/-- The header of a function stays on one line. -/
theorem FunctionText.oneLine_header (function : Code.Function) :
    OneLine (ofFunction function).header := by
  have params : OneLine (Code.commas (ofFunction function).params) := by
    refine Code.oneLine_commas ?_
    cases function with
    | procedure name index body => simp +decide [ofFunction]
    | conditional index params result =>
        rw [ofFunction, List.forall_mem_map]
        intro param _
        change OneLine (Code.localName param ++ ": Value")
        simp +decide
  have name : OneLine (ofFunction function).name := by cases function <;> simp [ofFunction]
  simp +decide [header, params, name]

namespace Listing

/-- The line that the main function starts with. -/
def runHeader : String :=
  "pub fn run() -> Result<(), SchemeError> \x7b"

/-- All the statements of the program. -/
def statements (listing : Listing) : List String :=
  listing.functions.flatMap FunctionText.body ++ listing.main

/-- The lines of the file after its header, whose first line can break anywhere. -/
def codeLines (listing : Listing) (name : String) : List String :=
  (lines (listing.render name)).drop (lines (unlines (headerLines name))).length

section Lines

/-- Indented statements take one line for each of their own lines. -/
theorem oneLine_of_mem_statementLines {statements : List String}
    (laid : ∀ statement ∈ statements, ∃ parts, Laid statement parts) :
    ∀ line ∈ statementLines statements, OneLine line := by
  intro line member
  obtain ⟨part, inside, rfl⟩ := List.mem_map.mp member
  obtain ⟨statement, listed, split⟩ := List.mem_flatMap.mp inside
  obtain ⟨parts, laid⟩ := laid statement listed
  rw [laid.lines_eq] at split
  exact oneLine_indentLine.mpr (laid.oneLine part split)

/-- The lines of a block are those of its statements, indented. -/
theorem indents_statementLines {statements : List String}
    (laid : ∀ statement ∈ statements, ∃ parts, Laid statement parts) :
    Indents (statementLines statements) ("\n".intercalate statements) :=
  ⟨statements.flatMap lines, rfl, intercalate_flatMap_lines laid⟩

/-- A declaration is a line that starts with its keyword. -/
theorem globalLine_starts (global : String × Kind) :
    OneLine (globalLine global) ∧ (globalLine global).toList.head? = some 's' := by
  have written : globalLine global = "static " ++ Code.globalName global.1 ++ ": Global = " ++
      ("Global::new(" ++ quoteString global.1 ++ ", Kind::" ++ global.2.declaredName ++ ");") := rfl
  rw [written]
  constructor
  · simp +decide
  · simp

/-- The declaration of a procedure is a line that starts with its keyword too. -/
theorem procedureLine_starts (name : String) (predefined : Option Builtin) :
    OneLine (procedureLine (name, predefined.map Builtin.host)) ∧
      (procedureLine (name, predefined.map Builtin.host)).toList.head? = some 's' := by
  cases predefined with
  | none =>
      have written : procedureLine (name, none) = "static " ++ Code.procedureName name ++
          ": Procedure = " ++ ("Procedure::new(" ++ quoteString name ++ ");") := rfl
      rw [Option.map_none, written]
      constructor
      · simp +decide
      · simp
  | some builtin =>
      have written : procedureLine (name, some builtin.host) = "static " ++ Code.procedureName name ++
          ": Procedure = " ++ ("Procedure::predefined(" ++ quoteString name ++ ", world::" ++
            builtin.host ++ ");") := rfl
      rw [Option.map_some, written]
      constructor
      · simp +decide
      · simp

/-- The declarations are lines that start with their keyword, and empty lines between them. -/
theorem starts_of_mem_declarationLines {code : Code} {line : String}
    (member : line ∈ declarationLines code.listing) :
    OneLine line ∧ (line = "" ∨ line.toList.head? = some 's') := by
  have listed : line = "" ∨ line ∈ code.listing.globals.map globalLine ++
      code.listing.procedures.map procedureLine := by
    simp only [declarationLines] at member
    split at member
    · cases member
    · exact List.mem_cons.mp member
  rcases listed with rfl | listed
  · exact ⟨oneLine_empty, .inl rfl⟩
  · rcases List.mem_append.mp listed with inGlobals | inProcedures
    · obtain ⟨global, _, rfl⟩ := List.mem_map.mp inGlobals
      exact (globalLine_starts global).imp_right .inr
    · obtain ⟨procedure, declared, rfl⟩ := List.mem_map.mp inProcedures
      obtain ⟨⟨name, predefined⟩, _, rfl⟩ := List.mem_map.mp declared
      exact (procedureLine_starts name predefined).imp_right .inr

/-- A function is its header, the lines of its body and a closing brace. -/
theorem functionLines_eq (function : FunctionText) :
    functionLines function = function.header :: (statementLines function.body ++ ["\x7d"]) := rfl

/-- The main function is its header, the lines of its statements, its result and a closing brace. -/
theorem runLines_eq (main : List String) :
    runLines main = "" :: runHeader :: (statementLines main ++ "    Ok(())" :: ["\x7d"]) := by
  simp [runLines, runHeader]

/-- A line of a function is its header, its end, or indented. -/
theorem starts_of_mem_functionLines {function : FunctionText} {line : String}
    (member : line ∈ functionLines function) :
    line = function.header ∨ ∃ start ∈ [' ', '\x7d'], line.toList.head? = some start := by
  rw [functionLines_eq, List.mem_cons, List.mem_append, List.mem_singleton] at member
  rcases member with header | inside | last
  · exact .inl header
  · obtain ⟨part, _, rfl⟩ := List.mem_map.mp inside
    exact .inr ⟨' ', by decide, by simp [indentLine]⟩
  · exact .inr ⟨'\x7d', by decide, by simp [last]⟩

/-- Each line of a function that breaks only in its result is one line. -/
theorem oneLine_of_mem_functionLines {function : Code.Function} (breaks : function.BreaksInResult) :
    ∀ line ∈ functionLines (.ofFunction function), OneLine line := by
  rw [functionLines_eq, List.forall_mem_cons, List.forall_mem_append, List.forall_mem_singleton]
  exact ⟨FunctionText.oneLine_header function, oneLine_of_mem_statementLines breaks.laid, by decide⟩

/-- Each line of the main function is one line if its statements split into lines. -/
theorem oneLine_of_mem_runLines {main : List String}
    (laid : ∀ statement ∈ main, ∃ parts, Laid statement parts) :
    ∀ line ∈ runLines main, OneLine line := by
  rw [runLines_eq]
  simp only [List.forall_mem_cons, List.forall_mem_append]
  exact ⟨by decide, by decide, oneLine_of_mem_statementLines laid, by decide, by decide, by simp⟩

/-- Each line of the entry point is one line. -/
theorem oneLine_of_mem_mainLines : ∀ line ∈ mainLines, OneLine line := by
  decide

/-- The lines of the parts that follow the header of the file. -/
def partLines (listing : Listing) : List String :=
  declarationLines listing ++
    listing.functions.flatMap (fun function => "" :: functionLines function) ++
    runLines listing.main ++ mainLines

/-- The lines of the file are those of its header and those of its parts. -/
theorem lines_render {code : Code} (breaks : ∀ function ∈ code.functions, function.BreaksInResult)
    (laid : ∀ statement ∈ code.listing.main, ∃ parts, Laid statement parts) (name : String) :
    lines (code.listing.render name) =
      lines (unlines (headerLines name)) ++ partLines code.listing := by
  have oneLine : ∀ line ∈ partLines code.listing, OneLine line := by
    simp only [partLines, List.forall_mem_append]
    refine ⟨⟨⟨?_, ?_⟩, oneLine_of_mem_runLines laid⟩, oneLine_of_mem_mainLines⟩
    · exact fun line member => (starts_of_mem_declarationLines member).1
    · intro line member
      obtain ⟨text, listed, inside⟩ := List.mem_flatMap.mp member
      obtain ⟨function, compiled, rfl⟩ := List.mem_map.mp listed
      rcases List.mem_cons.mp inside with rfl | inside
      · exact oneLine_empty
      · exact oneLine_of_mem_functionLines (breaks function compiled) line inside
  rw [← lines_unlines_append (headerLines name) oneLine]
  simp only [render, partLines, List.append_assoc]

/-- The lines after the header are those of the parts. -/
theorem codeLines_eq {code : Code} (breaks : ∀ function ∈ code.functions, function.BreaksInResult)
    (laid : ∀ statement ∈ code.listing.main, ∃ parts, Laid statement parts) (name : String) :
    codeLines code.listing name = partLines code.listing := by
  rw [codeLines, lines_render breaks laid, List.drop_left]

end Lines

section Blocks

/-- The name of a function has only characters of identifiers. -/
theorem isIdentifierChar_of_mem_name (function : Code.Function) :
    ∀ c ∈ (FunctionText.ofFunction function).name.toList, Code.isIdentifierChar c = true := by
  cases function with
  | procedure name index body => exact Code.isIdentifierChar_of_mem_definitionName name index
  | conditional index params result => exact Code.isIdentifierChar_of_mem_conditionalName index

/-- The name of a function ends at the first parenthesis of its header. -/
theorem name_eq_of_header_eq {first second : Code.Function}
    (same : (FunctionText.ofFunction first).header = (FunctionText.ofFunction second).header) :
    (FunctionText.ofFunction first).name = (FunctionText.ofFunction second).name := by
  have free (function : Code.Function) : '(' ∉ (FunctionText.ofFunction function).name.toList :=
    fun member => absurd (isIdentifierChar_of_mem_name function _ member) (by decide)
  have chars := congrArg String.toList same
  simp only [FunctionText.header, String.toList_append, List.append_assoc,
    List.append_cancel_left_eq] at chars
  exact String.toList_inj.mp (Code.append_mark_inj (free first) (free second) chars).1

/-- A line that starts like neither a declaration nor a line inside a function is found only among the
headers of the functions. -/
theorem notMem_parts {code : Code} {line : String} {functions : List Code.Function} {start : Char}
    (starts : line.toList.head? = some start) (other : start ∉ ['s', ' ', '\x7d'])
    (differs : ∀ function ∈ functions, line ≠ (FunctionText.ofFunction function).header) :
    line ∉ declarationLines code.listing ++
      (functions.map FunctionText.ofFunction).flatMap (fun function => "" :: functionLines function) ++
      [""] := by
  have filled : line ≠ "" := by
    rintro rfl
    cases starts
  intro member
  rw [List.append_assoc, List.mem_append, List.mem_append, List.mem_singleton] at member
  rcases member with declared | inside | empty
  · rcases (starts_of_mem_declarationLines declared).2 with empty | keyword
    · exact filled empty
    · cases starts.symm.trans keyword
      exact other List.mem_cons_self
  · obtain ⟨text, listed, within⟩ := List.mem_flatMap.mp inside
    obtain ⟨function, known, rfl⟩ := List.mem_map.mp listed
    rcases List.mem_cons.mp within with empty | within
    · exact filled empty
    · rcases starts_of_mem_functionLines within with header | ⟨inner, usual, begins⟩
      · exact differs function known header
      · cases starts.symm.trans begins
        exact other (List.mem_cons_of_mem 's' usual)
  · exact filled empty

variable {code : Code} (breaks : ∀ function ∈ code.functions, function.BreaksInResult)
  (laid : ∀ statement ∈ code.listing.main, ∃ parts, Laid statement parts)

include breaks laid

/-- The block of a function holds the lines of its body. -/
theorem between_function (distinct : (code.listing.functions.map FunctionText.name).Nodup)
    {function : Code.Function} (member : function ∈ code.functions) (name : String) :
    between (FunctionText.ofFunction function).header "\x7d" (codeLines code.listing name) =
      statementLines (FunctionText.ofFunction function).body := by
  -- The empty line before a header is the last one before its block.
  obtain ⟨earlier, later, parts⟩ := List.append_of_mem member
  have functions : code.listing.functions = earlier.map .ofFunction ++
      .ofFunction function :: later.map .ofFunction := by
    rw [Code.listing, parts, List.map_append, List.map_cons]
  have first : (FunctionText.ofFunction function).header ∉ declarationLines code.listing ++
      (earlier.map .ofFunction).flatMap (fun function => "" :: functionLines function) ++ [""] := by
    refine notMem_parts (by simp [FunctionText.header]) (by decide : 'f' ∉ _) ?_
    intro other known same
    rw [functions, List.map_append, List.nodup_append] at distinct
    refine distinct.2.2 _ (List.mem_map_of_mem (List.mem_map_of_mem known)) _ List.mem_cons_self ?_
    exact (name_eq_of_header_eq same).symm
  have last : "\x7d" ∉ statementLines (FunctionText.ofFunction function).body := by
    intro inside
    obtain ⟨part, _, same⟩ := List.mem_map.mp inside
    simpa [indentLine] using congrArg (List.head? ∘ String.toList) same
  have found := between_eq first last ((later.map .ofFunction).flatMap
    (fun function => "" :: functionLines function) ++ runLines code.listing.main ++ mainLines)
  rw [codeLines_eq breaks laid, partLines, functions]
  simpa only [List.flatMap_append, List.flatMap_cons, functionLines_eq, List.append_assoc,
    List.cons_append, List.nil_append, List.singleton_append] using found

/-- The block of the main function holds its statements, which end before its result. -/
theorem between_run (last : "    Ok(())" ∉ statementLines code.listing.main) (name : String) :
    between runHeader "    Ok(())" (codeLines code.listing name) =
      statementLines code.listing.main := by
  have first : runHeader ∉ declarationLines code.listing ++
      (code.functions.map .ofFunction).flatMap (fun function => "" :: functionLines function) ++
      [""] := by
    refine notMem_parts (by simp [runHeader]) (by decide : 'p' ∉ _) ?_
    intro function _ same
    simpa [runHeader, FunctionText.header] using congrArg (List.head? ∘ String.toList) same
  have found := between_eq first last ("\x7d" :: mainLines)
  rw [codeLines_eq breaks laid, partLines, runLines_eq]
  simpa only [Code.listing, List.append_assoc, List.cons_append, List.nil_append,
    List.singleton_append] using found

end Blocks

end Listing

end SmallScheme
