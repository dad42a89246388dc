/-
This file says what the expressions that build values denote in the text of generated code, and shows
that a text denotes at most one value and that written code denotes the value that it is made for.
-/

import Mathlib.Data.List.Forall2
import SmallScheme.Proofs.Code.Literals
import SmallScheme.Proofs.Machine.Library

namespace SmallScheme.Code

/-- The ways to build a value in generated code. -/
inductive Constructor where
  | integer
  | character
  | string
  | boolean
  | list
  | vector
  | quotation

namespace Constructor

/-- The text up to the first argument or element. -/
def opening : Constructor → String
  | .integer => "Value::integer("
  | .character => "Value::Character("
  | .string => "Value::string("
  | .boolean => "Value::Boolean("
  | .list => "Value::List(vec!["
  | .vector => "Value::Vector(vec!["
  | .quotation => "Value::quotation("

/-- The text of an expression shows how it builds its value, and where its arguments start. -/
theorem opening_append_inj {first second : Constructor} {text other : List Char}
    (same : first.opening.toList ++ text = second.opening.toList ++ other) :
    first = second ∧ text = other := by
  cases first <;> cases second <;> simp [opening] at same ⊢ <;> exact same

/-- No expression starts with the closing bracket of a list. -/
theorem opening_append_ne (constructor : Constructor) (text rest : List Char) :
    constructor.opening.toList ++ text ≠ ']' :: rest := by
  cases constructor <;> simp [opening]

end Constructor

mutual

/-- The text starts with an expression for the value. -/
inductive Denotes : List Char → Value → List Char → Prop
  | build {constructor : Constructor} {source text rest : List Char} {value : Value}
      (opens : source = constructor.opening.toList ++ text)
      (builds : Builds constructor text value rest) : Denotes source value rest

/-- The text starts with what follows the opening of an expression for the value. An integer that
cannot be read leaves the function with an error, so the expression denotes nothing. -/
inductive Builds : Constructor → List Char → Value → List Char → Prop
  | integer {text content rest : List Char} {value : Value}
      (literal : Text.ReadsString text content (')' :: '?' :: rest))
      (reads : Value.ofDigits (String.ofList content) = .ok value) :
      Builds .integer ('\x22' :: text) value rest
  | character {text rest : List Char} {c : Char} (literal : Text.ReadsChar text c (')' :: rest)) :
      Builds .character ('\x27' :: text) (.character c) rest
  | string {text content rest : List Char}
      (literal : Text.ReadsString text content (')' :: rest)) :
      Builds .string ('\x22' :: text) (.string (String.ofList content)) rest
  | true {rest : List Char} :
      Builds .boolean ('t' :: 'r' :: 'u' :: 'e' :: ')' :: rest) (.boolean Bool.true) rest
  | false {rest : List Char} :
      Builds .boolean ('f' :: 'a' :: 'l' :: 's' :: 'e' :: ')' :: rest) (.boolean Bool.false) rest
  | list {text rest : List Char} {values : List Value}
      (elements : DenotesAll text values (')' :: rest)) : Builds .list text (.list values) rest
  | vector {text rest : List Char} {values : List Value}
      (elements : DenotesAll text values (')' :: rest)) : Builds .vector text (.vector values) rest
  | quotation {text rest : List Char} {value : Value}
      (quoted : Denotes text value (')' :: rest)) :
      Builds .quotation text (.quotation value) rest

/-- The text starts with expressions for the values and the closing bracket. A comma follows every
expression but the last, where it may stand too. -/
inductive DenotesAll : List Char → List Value → List Char → Prop
  | close {rest : List Char} : DenotesAll (']' :: rest) [] rest
  | last {text rest : List Char} {value : Value} (element : Denotes text value (']' :: rest)) :
      DenotesAll text [value] rest
  | more {text middle rest : List Char} {value : Value} {values : List Value}
      (element : Denotes text value (',' :: middle))
      (others : DenotesAll (middle.dropWhile Text.isLayout) values rest) :
      DenotesAll text (value :: values) rest

end

/-- A closing bracket denotes no value. -/
theorem not_denotes_close {rest others : List Char} {value : Value} :
    ¬ Denotes (']' :: rest) value others := by
  rintro ⟨opens, _⟩
  exact Constructor.opening_append_ne _ _ _ opens.symm

mutual

/-- A text starts with an expression for one value at most, and this ends in one place. -/
theorem Denotes.unique {source rest others : List Char} {value other : Value}
    (first : Denotes source value rest) (second : Denotes source other others) :
    value = other ∧ rest = others := by
  match first, second with
  | .build opens builds, .build opensAgain buildsAgain =>
      obtain ⟨rfl, rfl⟩ := Constructor.opening_append_inj (opens.symm.trans opensAgain)
      exact builds.unique buildsAgain

/-- The arguments of an expression give one value at most, and end in one place. -/
theorem Builds.unique {constructor : Constructor} {text rest others : List Char}
    {value other : Value} (first : Builds constructor text value rest)
    (second : Builds constructor text other others) : value = other ∧ rest = others := by
  match first with
  | .integer literal reads =>
      cases second with
      | integer literalAgain readsAgain =>
          obtain ⟨rfl, rests⟩ := literal.unique literalAgain
          cases rests
          exact ⟨Except.ok.inj (reads.symm.trans readsAgain), rfl⟩
  | .character literal =>
      cases second with
      | character literalAgain =>
          obtain ⟨rfl, rests⟩ := literal.unique literalAgain
          cases rests
          exact ⟨rfl, rfl⟩
  | .string literal =>
      cases second with
      | string literalAgain =>
          obtain ⟨rfl, rests⟩ := literal.unique literalAgain
          cases rests
          exact ⟨rfl, rfl⟩
  | .true =>
      cases second with
      | true => exact ⟨rfl, rfl⟩
  | .false =>
      cases second with
      | false => exact ⟨rfl, rfl⟩
  | .list elements =>
      cases second with
      | list elementsAgain =>
          obtain ⟨rfl, rests⟩ := elements.unique elementsAgain
          cases rests
          exact ⟨rfl, rfl⟩
  | .vector elements =>
      cases second with
      | vector elementsAgain =>
          obtain ⟨rfl, rests⟩ := elements.unique elementsAgain
          cases rests
          exact ⟨rfl, rfl⟩
  | .quotation quoted =>
      cases second with
      | quotation quotedAgain =>
          obtain ⟨rfl, rests⟩ := quoted.unique quotedAgain
          cases rests
          exact ⟨rfl, rfl⟩

/-- The elements of a list give their values in one way at most, and end in one place. -/
theorem DenotesAll.unique {text rest others : List Char} {values again : List Value}
    (first : DenotesAll text values rest) (second : DenotesAll text again others) :
    values = again ∧ rest = others := by
  match first with
  | .close =>
      cases second with
      | close => exact ⟨rfl, rfl⟩
      | last element => exact absurd element not_denotes_close
      | more element => exact absurd element not_denotes_close
  | .last element =>
      cases second with
      | close => exact absurd element not_denotes_close
      | last elementAgain =>
          obtain ⟨rfl, rests⟩ := element.unique elementAgain
          cases rests
          exact ⟨rfl, rfl⟩
      | more elementAgain => cases (element.unique elementAgain).2
  | .more element elements =>
      cases second with
      | close => exact absurd element not_denotes_close
      | last elementAgain => cases (element.unique elementAgain).2
      | more elementAgain elementsAgain =>
          obtain ⟨rfl, rests⟩ := element.unique elementAgain
          cases rests
          obtain ⟨rfl, rfl⟩ := elements.unique elementsAgain
          exact ⟨rfl, rfl⟩

end

/-- The text of the code denotes the value, whatever follows it. -/
def Expr.Writes (code : Expr) (value : Value) : Prop :=
  ∀ rest, Denotes (code.text.toList ++ rest) value rest

section Writes

/-- No character of an integer needs an escape. -/
theorem readsString_decimal (value : Int) (rest : List Char) :
    Text.ReadsString ((Text.Decimal.text value).toList ++ '\x22' :: rest)
      (Text.Decimal.text value).toList rest := by
  have general (chars : List Char) (plain : ∀ c ∈ chars, c.isDigit = true ∨ c = '-') :
      Text.ReadsString (chars ++ '\x22' :: rest) chars rest := by
    induction chars with
    | nil => exact .close
    | cons c others ih =>
        rw [List.forall_mem_cons] at plain
        have different (d : Char) (special : d.isDigit = false ∧ d ≠ '-') : c ≠ d := by
          rintro rfl
          rcases plain.1 with digit | minus
          · rw [special.1] at digit
            cases digit
          · exact special.2 minus
        exact .plain (different _ (by decide)) (different _ (by decide)) (different _ (by decide))
          (ih plain.2)
  exact general _ fun _ => Text.Decimal.isDigit_or_minus_of_mem

/-- An integer is written as its decimal digits, which are read back as the integer. -/
theorem writes_integer (value : Int) :
    (Expr.integer (Text.Decimal.text value)).Writes (.integer value) := by
  intro rest
  refine .build ?_ (.integer (readsString_decimal value _) ?_)
  · simp [Expr.text_integer, Constructor.opening]
  · rw [String.ofList_toList, Value.ofDigits_text]

/-- A character is written as a literal that is read back as the character. -/
theorem writes_character (c : Char) : (Expr.character c).Writes (.character c) := by
  intro rest
  obtain ⟨text, written, literal⟩ := Text.exists_quoteChar c (')' :: rest)
  refine .build ?_ (.character literal)
  simp [Expr.text_character, Constructor.opening, ← written]

/-- A string is written as a literal that is read back as its content. -/
theorem writes_string (content : String) : (Expr.string content).Writes (.string content) := by
  intro rest
  obtain ⟨text, written, literal⟩ := Text.exists_quoteString content (')' :: rest)
  have builds := Builds.string literal
  rw [String.ofList_toList] at builds
  refine .build ?_ builds
  simp [Expr.text_string, Constructor.opening, ← written]

/-- A boolean is written as its own name. -/
theorem writes_boolean (value : Bool) : (Expr.boolean value).Writes (.boolean value) := by
  intro rest
  cases value with
  | true => exact .build (by simp [Expr.text_true, Constructor.opening]) .true
  | false => exact .build (by simp [Expr.text_false, Constructor.opening]) .false

/-- No element starts with a blank. -/
theorem DenotesAll.dropWhile_eq {text rest : List Char} {values : List Value}
    (denotes : DenotesAll text values rest) : text.dropWhile Text.isLayout = text := by
  have element {source middle : List Char} {value : Value} (first : Denotes source value middle) :
      source.dropWhile Text.isLayout = source := by
    cases first with
    | @build constructor _ text _ _ opens _ =>
        rw [opens]
        cases constructor <;> rfl
  cases denotes with
  | close => rfl
  | last first => exact element first
  | more first => exact element first

/-- Codes with commas between them denote their values one after the other. -/
theorem denotesAll_commas {codes : List Expr} {values : List Value}
    (writes : List.Forall₂ Expr.Writes codes values) (rest : List Char) :
    DenotesAll ((commas (texts codes)).toList ++ ']' :: rest) values rest := by
  induction writes with
  | nil => exact .close
  | @cons code value codes values first others ih =>
      cases codes with
      | nil =>
          cases others
          exact .last (first _)
      | cons next codes =>
          have joined : (commas (texts (code :: next :: codes))).toList ++ ']' :: rest =
              code.text.toList ++ ',' :: ' ' ::
                ((commas (texts (next :: codes))).toList ++ ']' :: rest) := by
            change (", ".intercalate (code.text :: next.text :: texts codes)).toList ++ _ = _
            rw [String.intercalate_cons_cons]
            simp [commas, texts]
          rw [joined]
          refine .more (first _) ?_
          rw [List.dropWhile_cons_of_pos (by decide), ih.dropWhile_eq]
          exact ih

/-- The code of a list denotes the list of what its elements denote. -/
theorem writes_list {codes : List Expr} {values : List Value}
    (writes : List.Forall₂ Expr.Writes codes values) : (Expr.list codes).Writes (.list values) := by
  intro rest
  refine .build ?_ (.list (denotesAll_commas writes (')' :: rest)))
  simp [Expr.text_list, Constructor.opening]

/-- The code of a vector denotes the vector of what its elements denote. -/
theorem writes_vector {codes : List Expr} {values : List Value}
    (writes : List.Forall₂ Expr.Writes codes values) :
    (Expr.vector codes).Writes (.vector values) := by
  intro rest
  refine .build ?_ (.vector (denotesAll_commas writes (')' :: rest)))
  simp [Expr.text_vector, Constructor.opening]

/-- The code of a quotation denotes the quotation of what its datum denotes. -/
theorem writes_quotation {code : Expr} {value : Value} (writes : code.Writes value) :
    (Expr.quotation code).Writes (.quotation value) := by
  intro rest
  refine .build ?_ (.quotation (writes (')' :: rest)))
  simp [Expr.text_quotation, Constructor.opening]

end Writes

end SmallScheme.Code
