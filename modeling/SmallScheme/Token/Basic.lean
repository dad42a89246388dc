/-
This file gives the tokens of the language, a pattern for each kind and the payload of a matched text.
-/

import SmallScheme.Text.Decimal
import SmallScheme.Token.Pattern

namespace SmallScheme

inductive LexError where
  | invalid
  | malformedNumber
  deriving DecidableEq, Repr

def LexError.message : LexError → String
  | .invalid => "invalid token encountered"
  | .malformedNumber => "malformed number"

/-- A character token keeps the name after the backslash, and a string token drops its quotes. -/
inductive Token where
  | whitespace
  | lineEnding
  | comment
  | leftParen
  | rightParen
  | quote
  | startVector
  | identifier (name : String)
  | boolean (value : Bool)
  | character (name : String)
  | string (content : String)
  | number (value : Int)
  deriving DecidableEq, Repr

namespace Token

inductive Kind where
  | whitespace
  | lineEnding
  | comment
  | leftParen
  | rightParen
  | quote
  | startVector
  | identifier
  | boolean
  | character
  | string
  | number
  deriving DecidableEq, Repr

def kind : Token → Kind
  | .whitespace => .whitespace
  | .lineEnding => .lineEnding
  | .comment => .comment
  | .leftParen => .leftParen
  | .rightParen => .rightParen
  | .quote => .quote
  | .startVector => .startVector
  | .identifier _ => .identifier
  | .boolean _ => .boolean
  | .character _ => .character
  | .string _ => .string
  | .number _ => .number

def isBlank (c : Char) : Bool :=
  c == ' ' || c == '\t' || c == '\x0c'

def isInitial (c : Char) : Bool :=
  c.isAlpha || ['!', '$', '%', '&', '*', '/', ':', '<', '=', '>', '?', '^', '_', '~'].contains c

def isSign (c : Char) : Bool :=
  c == '+' || c == '-'

def isSubsequent (c : Char) : Bool :=
  isInitial c || c.isDigit || isSign c || c == '.' || c == '@'

def isSignSubsequent (c : Char) : Bool :=
  isInitial c || isSign c || c == '@'

def isDotSubsequent (c : Char) : Bool :=
  isSignSubsequent c || c == '.'

/-- These characters end a character name. -/
def isDelimiter (c : Char) : Bool :=
  c == ' ' || c == '\t' || c == '\r' || c == '\n' || c == '(' || c == ')'

/-- The letters that differ only in case from an ASCII letter fold to its lower case. -/
def foldCase (c : Char) : Char :=
  if c == 'ſ' then 's' else if c == 'K' then 'k' else c.toLower

/-- The pattern of one text in any case. -/
def anyCase (text : List Char) : Pattern :=
  .sequence (text.map fun c other => foldCase other == c)

def verbatim (text : List Char) : Pattern :=
  .sequence (text.map fun c other => other == c)

/-- The rest of an identifier after its start. -/
def subsequents : Pattern :=
  .star (.char isSubsequent)

/-- An identifier may not be mistaken for a number, so a sign or a dot restricts what follows it. -/
def identifierPattern : Pattern :=
  .oneOf [
    .seq (.char isInitial) subsequents,
    .char isSign,
    .seq (.char isSign) (.seq (.char isSignSubsequent) subsequents),
    .seq (.char isSign) (.seq (.char (· == '.')) (.seq (.char isDotSubsequent) subsequents)),
    .seq (.char (· == '.')) (.seq (.char isDotSubsequent) subsequents)]

def Kind.pattern : Kind → Pattern
  | .whitespace => .plus (.char isBlank)
  | .lineEnding => .oneOf [verbatim ['\n'], verbatim ['\r', '\n'], verbatim ['\r']]
  | .comment => .seq (.char (· == ';')) (.star (.char (· != '\n')))
  | .leftParen => verbatim ['(']
  | .rightParen => verbatim [')']
  | .quote => verbatim ['\x27']
  | .startVector => verbatim ['#', '(']
  | .identifier => identifierPattern
  | .boolean =>
      .alt (.seq (anyCase ['#', 't']) (.optional (anyCase ['r', 'u', 'e'])))
        (.seq (anyCase ['#', 'f']) (.optional (anyCase ['a', 'l', 's', 'e'])))
  | .character =>
      .seq (verbatim ['#', '\\'])
        (.seq (.char (· != '\n')) (.star (.char fun c => !isDelimiter c)))
  | .string =>
      .seq (.char (· == '\x22'))
        (.seq (.star (.char fun c => c != '\x22' && c != '\\')) (.char (· == '\x22')))
  | .number => .seq (.optional (.char isSign)) (.plus (.char Char.isDigit))

def Kind.all : List Kind :=
  [.whitespace, .lineEnding, .comment, .leftParen, .rightParen, .quote, .startVector,
    .identifier, .boolean, .character, .string, .number]

/-- The token of a text that matches the pattern of the kind. -/
def Kind.read (text : List Char) : Kind → Except LexError Token
  | .whitespace => .ok .whitespace
  | .lineEnding => .ok .lineEnding
  | .comment => .ok .comment
  | .leftParen => .ok .leftParen
  | .rightParen => .ok .rightParen
  | .quote => .ok .quote
  | .startVector => .ok .startVector
  | .identifier => .ok (.identifier (String.ofList text))
  | .boolean => .ok (.boolean (text[1]?.map foldCase == some 't'))
  | .character => .ok (.character (String.ofList (text.drop 2)))
  | .string => .ok (.string (String.ofList (text.drop 1).dropLast))
  | .number =>
      match Text.Decimal.read? text with
      | some value => .ok (.number value)
      | none => .error .malformedNumber

end Token

end SmallScheme
