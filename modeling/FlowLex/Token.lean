import FlowLex.Variables

/-!
# Tokens

A token is a lexeme with its class and the number of its line. The words of
the language that cannot be names have a class for each of their categories.
-/

namespace FlowLex

/-! ## Reserved words -/

/-- What a reserved word stands for: a part of a statement or a truth value. -/
inductive Category where
  | keyword
  | boolean
  deriving DecidableEq, Repr

def Category.tag : Category → String
  | .keyword => "keyword"
  | .boolean => "boolean"

/-- The reserved words. -/
def reservedWords : List (String × Category) :=
  [("Start", .keyword), ("End", .keyword),
   ("checkThis", .keyword), ("maybeThis", .keyword),
   ("otherwiseThis", .keyword),
   ("keepDoing", .keyword), ("repeatTimes", .keyword),
   ("stopNow", .keyword), ("nextRound", .keyword),
   ("show", .keyword), ("ask", .keyword),
   ("declare", .keyword), ("assign", .keyword),
   ("doThis", .keyword), ("runThis", .keyword),
   ("comment", .keyword),
   ("correct", .boolean), ("incorrect", .boolean)]

/-- The category of a reserved word; spelling counts, case included. -/
def reserved? (word : String) : Option Category :=
  reservedWords.lookup word

/-! ## Classes -/

/-- The class of a token. A name carries its variable number. -/
inductive TokenClass where
  | reserved (category : Category)
  | number
  | string
  | name (id : Nat)
  | operator
  | symbol
  | semicolon
  deriving DecidableEq, Repr

def TokenClass.tag : TokenClass → String
  | .reserved category => category.tag
  | .number => "number"
  | .string => "string"
  | .name id => idTag id
  | .operator => "operator"
  | .symbol => "symbol"
  | .semicolon => "semicolon"

structure Token where
  line : Nat
  kind : TokenClass
  value : String
  deriving DecidableEq, Repr

/-- How a token is written in the summary of its line. -/
def Token.text (token : Token) : String :=
  "(" ++ token.kind.tag ++ ", " ++ token.value ++ ")"

end FlowLex
