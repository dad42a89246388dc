/-
This file turns the data of a source into a program, or names the first datum that is no form.
-/

import SmallScheme.Program.Basic
import SmallScheme.Tree.SExpr

namespace SmallScheme

inductive SyntaxError where
  | parse (errors : List ParseError)
  | malformedDefinition (text : String)
  | emptyBody (procedure : String)
  | misplacedDefinition (text : String)
  | misplacedBegin (text : String)
  | malformedQuotation (text : String)
  | emptyApplication
  | invalidProcedure (text : String)
  | malformedDatum (text : String)
  deriving DecidableEq, Repr

def SyntaxError.message : SyntaxError → String
  | .parse errors => ", ".intercalate (errors.map ParseError.message)
  | .malformedDefinition text => s!"Malformed definition '{text}'"
  | .emptyBody procedure => s!"Body of procedure {procedure} does not contain an expression"
  | .misplacedDefinition text => s!"Definition is not allowed here: '{text}'"
  | .misplacedBegin text => s!"'begin' is only allowed at top level: '{text}'"
  | .malformedQuotation text => s!"Malformed quotation '{text}'"
  | .emptyApplication => "Cannot evaluate the empty combination '()'"
  | .invalidProcedure text => s!"Expected a procedure name but got '{text}'"
  | .malformedDatum text => s!"Malformed datum '{text}'"

/-- The literal of an atom that is no symbol. -/
def Literal.ofAtom? (text : String) (kind : AtomKind) : Option Literal :=
  match kind, Token.ofText? text with
  | .number, some (.number value) => some (.integer value)
  | .character, some (.character name) => some (.character name)
  | .string, some (.string content) => some (.string content)
  | .boolean, some (.boolean value) => some (.boolean value)
  | _, _ => none

namespace SExpr

def required {A : Type} (text : String) : Option A → Except SyntaxError A
  | some a => .ok a
  | none => .error (.malformedDatum text)

mutual

/-- Quoted data. A list headed by `quote` has exactly one more element. -/
def toQuoted : SExpr → Except SyntaxError Quoted
  | .unknown source => .error (.malformedDatum source.text)
  | .atom text .symbol => return .symbol (← required text (identifier? (.atom text .symbol)))
  | .atom text kind => return .constant (← required text (Literal.ofAtom? text kind))
  | .abbreviation source [] => .error (.malformedDatum source.text)
  | .abbreviation _ (quoted :: _) => return .quotation (← quoted.toQuoted)
  | .vector _ elements => return .vector (← allToQuoted elements)
  | .list source elements =>
      match specialForm? elements, elements with
      | some .quote, [_, quoted] => return .quotation (← quoted.toQuoted)
      | some .quote, _ => .error (.malformedQuotation source.text)
      | _, elements => return .list (← allToQuoted elements)

def allToQuoted : List SExpr → Except SyntaxError (List Quoted)
  | [] => return []
  | element :: rest => return (← element.toQuoted) :: (← allToQuoted rest)

end

/-- Quoting and vectors evaluate to the data they hold. -/
def toQuotation (datum : SExpr) : Except SyntaxError Expression := do
  match ← datum.toQuoted with
  | .quotation quoted => return .quotation quoted
  | quoted => return .quotation quoted

/-- Only a quotation is the value of a list headed by `quote`. -/
def toQuoteForm (datum : SExpr) : Except SyntaxError Expression := do
  match ← datum.toQuoted with
  | .quotation quoted => return .quotation quoted
  | _ => .error (.malformedQuotation datum.text)

mutual

def toExpression : SExpr → Except SyntaxError Expression
  | .unknown source => .error (.malformedDatum source.text)
  | .atom text .symbol => return .identifier (← required text (identifier? (.atom text .symbol)))
  | .atom text kind => return .constant (← required text (Literal.ofAtom? text kind))
  | .abbreviation source elements => toQuotation (.abbreviation source elements)
  | .vector source elements => toQuotation (.vector source elements)
  | .list source elements =>
      match specialForm? elements with
      | some .quote => toQuoteForm (.list source elements)
      | some .define => .error (.misplacedDefinition source.text)
      | some .begin => .error (.misplacedBegin source.text)
      | _ =>
          match elements with
          | [] => .error .emptyApplication
          | head :: operands =>
              match head.identifier? with
              | none => .error (.invalidProcedure head.text)
              | some procedure => return .application procedure (← allToExpressions operands)

def allToExpressions : List SExpr → Except SyntaxError (List Expression)
  | [] => return []
  | element :: rest => return (← element.toExpression) :: (← allToExpressions rest)

end

/-- The name and the parameters of a procedure. -/
def signature? (elements : List SExpr) : Option (String × List String) := do
  match ← elements.mapM identifier? with
  | name :: params => return (name, params)
  | [] => none

/-- The last body expression gives the result, so a body needs one. -/
def procedureOf (name : String) (params : List String) (definitions : List Definition)
    (expressions : List Expression) : Except SyntaxError Definition :=
  match expressions.getLast? with
  | none => .error (.emptyBody name)
  | some body => .ok (.procedure ⟨name, params, definitions, expressions.dropLast, body⟩)

mutual

/-- The definition that a list headed by `define` makes. -/
def toDefinition : SExpr → Except SyntaxError Definition
  | .list source (_ :: target :: parts) =>
      match target.identifier? with
      | some name =>
          match parts with
          | [value] => return .value name (← value.toExpression)
          | _ => .error (.malformedDefinition source.text)
      | none =>
          match target with
          | .list _ names =>
              match signature? names with
              | none => .error (.malformedDefinition source.text)
              | some (name, params) => do
                  let (definitions, expressions) ← toBody false parts
                  procedureOf name params definitions expressions
          | _ => .error (.malformedDefinition source.text)
  | datum => .error (.malformedDefinition datum.text)

/-- No definition follows the first expression of a body. -/
def toBody (started : Bool) :
    List SExpr → Except SyntaxError (List Definition × List Expression)
  | [] => return ([], [])
  | part :: rest =>
      if part.isDefinition then
        if started then .error (.misplacedDefinition part.text)
        else do
          let definition ← part.toDefinition
          let (definitions, expressions) ← toBody false rest
          return (definition :: definitions, expressions)
      else do
        let expression ← part.toExpression
        let (definitions, expressions) ← toBody true rest
        return (definitions, expression :: expressions)

end

mutual

def toForm : SExpr → Except SyntaxError Form
  | .list source elements =>
      match specialForm? elements with
      | some .define => return .definition (← toDefinition (.list source elements))
      | some .begin =>
          match elements with
          | [] => return .begin []
          | _ :: forms => return .begin (← allToForms forms)
      | _ => return .expression (← toExpression (.list source elements))
  | datum => return .expression (← datum.toExpression)

def allToForms : List SExpr → Except SyntaxError (List Form)
  | [] => return []
  | element :: rest => return (← element.toForm) :: (← allToForms rest)

end

end SExpr

namespace Program

/-- The program of a parsed source, whatever the parser reported. -/
def ofParse (parse : Parse) : Except SyntaxError Program :=
  return ⟨← SExpr.allToForms parse.data⟩

/-- The program of a source without parse errors, whose tree has to be a root. -/
def ofSource (source : String) : Except SyntaxError Program :=
  let parse := Parse.ofSource source
  if parse.errors.isEmpty then
    match parse.module? with
    | some _ => ofParse parse
    | none => .error (.malformedDatum source)
  else .error (.parse parse.errors)

end Program

end SmallScheme
