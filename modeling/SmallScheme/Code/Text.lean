/-
This file writes the parts of a compiled program as text.
-/

import SmallScheme.Code.Assembly
import SmallScheme.Text.Lines

namespace SmallScheme.Code

def Place.text : Place → String
  | .held name => s!"{localName name}.clone()"
  | .slot index => s!"params[{index}].clone()"

theorem Place.text_held (name : String) : (held name).text = localName name ++ ".clone()" := rfl

theorem Place.text_slot (index : Nat) :
    (slot index).text = "params[" ++ toString index ++ "].clone()" := rfl

def conditionalName (index : Nat) : String :=
  numbered "if" index

def definitionName (name : String) (index : Nat) : String :=
  numbered (procedureName name) index

def commas (parts : List String) : String :=
  ", ".intercalate parts

mutual

def Expr.text : Expr → String
  | .integer digits => s!"Value::integer(\"{digits}\")?"
  | .character value => s!"Value::Character({Text.quoteChar value})"
  | .string content => s!"Value::string({Text.quoteString content})"
  | .boolean value => s!"Value::Boolean({value})"
  | .list elements => s!"Value::List(vec![{commas (texts elements)}])"
  | .vector elements => s!"Value::Vector(vec![{commas (texts elements)}])"
  | .quotation quoted => s!"Value::quotation({quoted.text})"
  | .read place => place.text
  | .global name => s!"{globalName name}.get()?"
  | .dynamic name true =>
      s!"world::variable({Text.quoteString name}, Some(&{globalName name}))?"
  | .dynamic name false => s!"world::variable({Text.quoteString name}, None)?"
  | .host builtin arguments => s!"world::{builtin.host}(&[{commas (texts arguments)}])?"
  | .call procedure arguments =>
      s!"{procedureName procedure}.call(&[{commas (texts arguments)}])?"
  | .conditional index arguments => s!"{conditionalName index}({commas (texts arguments)})?"

def texts : List Expr → List String
  | [] => []
  | expression :: rest => expression.text :: texts rest

end

theorem texts_eq_map (expressions : List Expr) : texts expressions = expressions.map Expr.text := by
  induction expressions with
  | nil => rfl
  | cons expression rest ih => rw [texts, ih, List.map_cons]

namespace Expr

theorem text_integer (digits : String) :
    (integer digits).text = "Value::integer(\"" ++ digits ++ "\")?" := rfl

theorem text_character (value : Char) :
    (character value).text = "Value::Character(" ++ Text.quoteChar value ++ ")" := rfl

theorem text_string (content : String) :
    (string content).text = "Value::string(" ++ Text.quoteString content ++ ")" := rfl

theorem text_true : (boolean true).text = "Value::Boolean(true)" := rfl

theorem text_false : (boolean false).text = "Value::Boolean(false)" := rfl

theorem text_list (elements : List Expr) :
    (list elements).text = "Value::List(vec![" ++ commas (texts elements) ++ "])" := rfl

theorem text_vector (elements : List Expr) :
    (vector elements).text = "Value::Vector(vec![" ++ commas (texts elements) ++ "])" := rfl

theorem text_quotation (quoted : Expr) :
    (quotation quoted).text = "Value::quotation(" ++ quoted.text ++ ")" := rfl

theorem text_global (name : String) : (global name).text = globalName name ++ ".get()?" := rfl

theorem text_dynamic_global (name : String) :
    (dynamic name true).text =
      "world::variable(" ++ Text.quoteString name ++ ", Some(&" ++ globalName name ++ "))?" := rfl

theorem text_dynamic (name : String) :
    (dynamic name false).text = "world::variable(" ++ Text.quoteString name ++ ", None)?" := rfl

theorem text_host (builtin : Builtin) (arguments : List Expr) :
    (host builtin arguments).text =
      "world::" ++ builtin.host ++ "(&[" ++ commas (texts arguments) ++ "])?" := rfl

theorem text_call (procedure : String) (arguments : List Expr) :
    (call procedure arguments).text =
      procedureName procedure ++ ".call(&[" ++ commas (texts arguments) ++ "])?" := rfl

theorem text_conditional (index : Nat) (arguments : List Expr) :
    (conditional index arguments).text =
      conditionalName index ++ "(" ++ commas (texts arguments) ++ ")?" := rfl

end Expr

def Tail.text : Tail → String
  | .value expression => s!"Ok({expression.text})"
  | .branch condition consequent alternative =>
      s!"if world::is_true(&{condition.text}) \x7b\n" ++ Text.indent consequent.text ++
        "\n\x7d else \x7b\n" ++ Text.indent alternative.text ++ "\n\x7d"

theorem Tail.text_value (expression : Expr) :
    (value expression).text = "Ok(" ++ expression.text ++ ")" := rfl

theorem Tail.text_branch (condition : Expr) (consequent alternative : Tail) :
    (branch condition consequent alternative).text =
      "if world::is_true(&" ++ condition.text ++ ") \x7b\n" ++ Text.indent consequent.text ++
        "\n\x7d else \x7b\n" ++ Text.indent alternative.text ++ "\n\x7d" := rfl

def patternText : Option String → String
  | some name => localName name
  | none => "_"

def Step.text : Step → String
  | .unpack pattern =>
      s!"let [{commas (pattern.map patternText)}] = " ++
        s!"world::parameters::<{pattern.length}>(arguments)?;"
  | .enterFrame => "let frame = Frame::enter();"
  | .publish name => s!"frame.bind({Text.quoteString name}, {localName name}.clone());"
  | .bind name expression => s!"let {localName name} = {expression.text};"
  | .effect expression => s!"{expression.text};"

namespace Step

theorem text_unpack (pattern : List (Option String)) :
    (unpack pattern).text =
      "let [" ++ commas (pattern.map patternText) ++ "] = " ++
        ("world::parameters::<" ++ toString pattern.length ++ ">(arguments)?;") := rfl

theorem text_publish (name : String) :
    (publish name).text =
      "frame.bind(" ++ Text.quoteString name ++ ", " ++ localName name ++ ".clone());" := rfl

theorem text_bind (name : String) (expression : Expr) :
    (bind name expression).text = "let " ++ localName name ++ " = " ++ expression.text ++ ";" := rfl

theorem text_effect (expression : Expr) : (effect expression).text = expression.text ++ ";" := rfl

end Step

def Body.text : Body → List String
  | .plain steps result => steps.map Step.text ++ [result.text]
  | .loop size negated condition updates exit =>
      [s!"let mut params: [Value; {size}] = world::parameters(arguments)?;",
        "while " ++ (if negated then "!" else "") ++ s!"world::is_true(&{condition.text}) \x7b",
        s!"    params = [{commas (texts updates)}];",
        "\x7d",
        exit.text]

theorem Body.text_plain (steps : List Step) (result : Tail) :
    (plain steps result).text = steps.map Step.text ++ [result.text] := rfl

theorem Body.text_loop (size : Nat) (negated : Bool) (condition : Expr) (updates : List Expr)
    (exit : Tail) :
    (loop size negated condition updates exit).text =
      ["let mut params: [Value; " ++ toString size ++ "] = world::parameters(arguments)?;",
        "while " ++ (if negated then "!" else "") ++
          ("world::is_true(&" ++ condition.text ++ ") \x7b"),
        "    params = [" ++ commas (texts updates) ++ "];", "\x7d"] ++ [exit.text] := rfl

def Statement.text : Statement → String
  | .evaluate expression => s!"{expression.text};"
  | .define global expression => s!"{globalName global}.define({expression.text})?;"
  | .bind procedure index =>
      s!"{procedureName procedure}.define({definitionName procedure index});"

namespace Statement

theorem text_evaluate (expression : Expr) :
    (evaluate expression).text = expression.text ++ ";" := rfl

theorem text_define (name : String) (expression : Expr) :
    (define name expression).text = globalName name ++ ".define(" ++ expression.text ++ ")?;" := rfl

theorem text_bind (procedure : String) (index : Nat) :
    (bind procedure index).text =
      procedureName procedure ++ ".define(" ++ definitionName procedure index ++ ");" := rfl

end Statement

end SmallScheme.Code
