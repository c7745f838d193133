import RegisterMachine.ErrorDerivation.Expansion
import RegisterMachine.Text

set_option autoImplicit false

/-!
# The text of generated code

Code is a sequence of tokens, of which some are groups: sequences between parentheses or braces.  In
the text of a sequence there is one space between any two tokens.  Parentheses close tightly around
their tokens, braces leave a space at either side.

A string literal is the text of its value between double quotes.  What would end the literal, could
not be seen in it or would be shown as part of another character is escaped: common characters by a
letter, the others by their code point.  A single quote needs no escape between double quotes.

The code for an error type is two implementations, one that displays a value and one that makes the
type an error.  In place of refused code stands an error for the compiler to report.
-/

namespace RegisterMachine.ErrorDerivation

/-! ## String literals -/

namespace StringLiteral

/-- The escape of a character by its code point, in hexadecimal digits. -/
def codePointEscape (c : Char) : List Char :=
  ['\\', 'u', '{'] ++ Nat.toDigits 16 c.toNat ++ ['}']

/-- The escape of the null character before the given text.  Before an octal digit it has two
digits of its own, so that nobody takes it for a longer octal escape. -/
def nullEscape : List Char → List Char
  | [] => ['\\', '0']
  | c :: _ => if '0' ≤ c ∧ c ≤ '7' then ['\\', 'x', '0', '0'] else ['\\', '0']

/-- A character as it stands in a literal, before the given text. -/
def escape (c : Char) (rest : List Char) : List Char :=
  match c with
  | '\x00' => nullEscape rest
  | '\t' => ['\\', 't']
  | '\r' => ['\\', 'r']
  | '\n' => ['\\', 'n']
  | '\\' => ['\\', '\\']
  | '"' => ['\\', '"']
  | c => if isGraphemeExtend c || !isPrintable c then codePointEscape c else [c]

/-- The text between the quotes of the literal with the given value. -/
def escapeAll : List Char → List Char
  | [] => []
  | c :: rest => escape c rest ++ escapeAll rest

end StringLiteral

/-- The string literal with the given value. -/
def stringLiteral (value : String) : String :=
  String.ofList ('"' :: StringLiteral.escapeAll value.toList ++ ['"'])

/-! ## Tokens -/

/-- A token of generated code. -/
inductive Token where
  /-- A name, a number or a punctuation mark. -/
  | word (text : String)
  /-- A string literal with the given value. -/
  | literal (value : String)
  /-- A group between parentheses. -/
  | parens (tokens : List Token)
  /-- A group between braces. -/
  | braces (tokens : List Token)

namespace Token

mutual

/-- The text of a token. -/
def render : Token → String
  | word text => text
  | literal value => stringLiteral value
  | parens tokens => "(" ++ renderAll tokens ++ ")"
  | braces [] => "\x7b \x7d"
  | braces (t :: rest) => "\x7b " ++ renderAll (t :: rest) ++ " \x7d"

/-- The text of a sequence of tokens. -/
def renderAll : List Token → String
  | [] => ""
  | [t] => t.render
  | t :: rest => t.render ++ " " ++ renderAll rest

end

end Token

/-! ## The code -/

open Token (word literal parens braces)

/-- Names and punctuation marks. -/
def words (texts : List String) : List Token := texts.map word

/-- Sequences with a comma between any two. -/
def commaSeparated (parts : List (List Token)) : List Token := [word ","].intercalate parts

/-- The path from the root to what the last of the names stands for. -/
def path (names : List String) : List Token := names.flatMap fun name => words ["::", name]

/-- The value of an argument. -/
def Source.tokens : Source → List Token
  | binding name => [word name]
  | field selector => words ["self", ".", selector]

/-- An argument under its name. -/
def Argument.tokens (a : Argument) : List Token := words [a.name, "="] ++ a.source.tokens

/-- The invocation that writes to the formatter `f`. -/
def Write.tokens (w : Write) : List Token :=
  let arguments :=
    match w.arguments with
    | none => []
    | some arguments => word "," :: commaSeparated (arguments.map Argument.tokens)
  [word "write", word "!", parens ([word "f", word ",", literal w.message] ++ arguments)]

/-- What follows the name of the variant. -/
def Pattern.tokens : Pattern → List Token
  | unit => []
  | tuple names => [parens (commaSeparated (names.map fun name => [word name]))]
  | named names => [braces (commaSeparated (names.map fun name => [word name]))]

/-- One arm, with the comma after it. -/
def Arm.tokens (a : Arm) : List Token :=
  words ["Self", "::", a.variant] ++ a.pattern.tokens ++ [word "=>"] ++ a.write.tokens ++ [word ","]

/-- The body of the display function. -/
def Body.tokens : Body → List Token
  | .arms list => words ["match", "self"] ++ [braces (list.flatMap Arm.tokens)]
  | .write w => w.tokens

/-- A name with a bound. -/
def bounded (name bound : String) : List Token := words [name, ":", bound]

namespace Implementation

/-- The generic parameters with their bounds. -/
def parameterTokens (i : Implementation) : List Token :=
  if i.generics.isEmpty then []
  else
    [word "<"] ++
      commaSeparated (i.generics.map fun g =>
        match g.bound with
        | some bound => bounded g.name bound
        | none => [word g.name]) ++
      [word ">"]

/-- The type, applied to its generic parameters. -/
def typeTokens (i : Implementation) : List Token :=
  word i.name ::
    if i.generics.isEmpty then []
    else [word "<"] ++ commaSeparated (i.generics.map fun g => [word g.name]) ++ [word ">"]

/-- The conditions on the generic parameters. -/
def conditionTokens (i : Implementation) : List Token :=
  if i.conditions.isEmpty then []
  else word "where" :: commaSeparated (i.conditions.map fun c => bounded c.name c.bound)

/-- The implementation of what the path stands for, with the given members. -/
def implTokens (i : Implementation) (subject : List String) (members : List Token) : List Token :=
  [word "impl"] ++ i.parameterTokens ++ path subject ++ [word "for"] ++ i.typeTokens ++
    i.conditionTokens ++ [braces members]

/-- The function that displays a value. -/
def displayTokens (i : Implementation) : List Token :=
  words ["fn", "fmt"] ++
    [parens (words ["&", "self", ",", "f", ":", "&", "mut"] ++ path ["std", "fmt", "Formatter"] ++
      words ["<", "'_", ">"])] ++
    [word "->"] ++ path ["std", "fmt", "Result"] ++ [braces i.body.tokens]

/-- The code of both implementations. -/
def tokens (i : Implementation) : List Token :=
  i.implTokens ["std", "fmt", "Display"] i.displayTokens ++
    i.implTokens ["std", "error", "Error"] []

end Implementation

/-- The code that makes the compiler report a refusal. -/
def Refusal.tokens (r : Refusal) : List Token :=
  path ["core", "compile_error"] ++ [word "!", braces [literal r.text]]

/-- The text of the code for a type. -/
def Item.code (item : Item) : String :=
  Token.renderAll <|
    match item.expand with
    | .ok implementation => implementation.tokens
    | .error refusal => refusal.tokens

end RegisterMachine.ErrorDerivation
