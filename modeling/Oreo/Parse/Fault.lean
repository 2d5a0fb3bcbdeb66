import Oreo.Token.Fault

/-!
# Grammatical faults

What can be wrong with a sequence of tokens. A fault names the construct that was being read
and what stood there instead; `ParseFault.message`, `ParseFault.excerpt` and `ParseFault.hint`
hold all of its wording.
-/

namespace Oreo

/-- The constructs in which a fault can be found. -/
inductive Construct where
  /-- An expression in parentheses. -/
  | parenthesis
  /-- A list of values in brackets. -/
  | array
  /-- A list of entries in braces. -/
  | object
  /-- The arguments of a call. -/
  | arguments
  /-- The parameters of a function. -/
  | parameters
  /-- The index behind a value. -/
  | index
  /-- Statements in braces. -/
  | block
  /-- The place of a statement. -/
  | statement
  /-- The place of a value. -/
  | expression
  /-- The operand of a negation. -/
  | negation
  /-- The name of a declared variable. -/
  | variableName
  /-- The name of a function. -/
  | functionName
  /-- The head of a `for` loop. -/
  | forLoop
  /-- A `do` loop. -/
  | doWhile
  /-- The body of a case. -/
  | case
  /-- A name at the beginning of a statement. -/
  | assignment
deriving DecidableEq, Repr

namespace Construct

/-- The construct as messages call it. -/
def text : Construct → String
  | .parenthesis => "parenthesis"
  | .array => "array"
  | .object => "object"
  | .arguments => "arguments"
  | .parameters => "function parameters"
  | .index => "index"
  | .block => "block"
  | .statement => "statement"
  | .expression => "expression"
  | .negation => "'!'"
  | .variableName => "variable name"
  | .functionName => "function name"
  | .forLoop => "for loop"
  | .doWhile => "'do while'"
  | .case => "case"
  | .assignment => "assignment"

/-- What an excerpt shows before the offending token. -/
def lead : Construct → String
  | .parenthesis | .arguments => "(..."
  | .parameters => "fn (..."
  | .array | .index => "[..."
  | .object => "\x7b..."
  | .block => "\x7b ... "
  | .negation => "!"
  | .functionName => "fn "
  | .forLoop => "for ... "
  | .doWhile => "do \x7b...\x7d "
  | .case => "case "
  | _ => ""

end Construct

/-- The three pairs of brackets. -/
inductive Bracket where
  /-- The pair `( )`. -/
  | paren
  /-- The pair `[ ]`. -/
  | square
  /-- The pair of braces. -/
  | brace
deriving DecidableEq, Repr

namespace Bracket

/-- The mark that opens the pair. -/
def opener : Bracket → Punctuation
  | .paren => .openParen
  | .square => .openBracket
  | .brace => .openBrace

/-- The mark that closes the pair. -/
def closer : Bracket → Punctuation
  | .paren => .closeParen
  | .square => .closeBracket
  | .brace => .closeBrace

/-- The pair that a character closes; any but the two others closes braces. -/
def closedBy (character : Char) : Bracket :=
  if character = ')' then .paren else if character = ']' then .square else .brace

/-- The pair as messages call it. -/
def text : Bracket → String
  | .paren => "parenthesis \")\""
  | .square => "bracket \"]\""
  | .brace => "brace \"\x7d\""

end Bracket

/-- Why a sequence of tokens is not a program. A token that was found is given by its text,
and is missing at the end of the source. -/
inductive ParseFault where
  /-- A token of another class is expected, such as a name. -/
  | expectedKind (expected : String) (context : Construct) (found : Option String)
  /-- A certain token is expected, such as a comma. -/
  | expectedToken (expected : String) (context : Construct) (found : Option String)
  /-- A token cannot stand here. -/
  | unexpectedToken (context : Construct) (found : Option String)
  /-- A keyword cannot begin a statement. -/
  | unexpectedKeyword (keyword : Keyword)
  /-- A bracket is not closed. -/
  | unclosedBracket (bracket : Bracket) (context : Construct) (found : Option String)
  /-- A case stands outside a switch; the case is shown. -/
  | caseOutsideSwitch (shown : String)
  /-- Something else than a case stands in a switch; the switch is shown. -/
  | nonCaseInSwitch (shown : String)
  /-- The source ends too early, behind a token with the given text. -/
  | unexpectedEnd (context : Construct) (after : String)
  /-- Statements, blocks or brackets nest beyond the limit. -/
  | nestingTooDeep (limit : Nat)
deriving DecidableEq, Repr

namespace ParseFault

/-- The headline of a fault. -/
def message : ParseFault → String
  | .expectedKind expected context found | .expectedToken expected context found =>
    "Expected " ++ expected ++ " when parsing " ++ context.text ++ ", got '" ++
      found.getD "nothing" ++ "'"
  | .unexpectedToken context _ => "Unexpected token found while parsing " ++ context.text ++ ":"
  | .unexpectedKeyword _ => "Unexpected keyword:"
  | .unclosedBracket bracket context found =>
    "Expected closing " ++ bracket.text ++ " when parsing " ++ context.text ++ ", got '" ++
      found.getD "nothing" ++ "'"
  | .caseOutsideSwitch _ =>
    "'case' was found out of a switch statement. Did you mismatch a '\x7b \x7d' pair?"
  | .nonCaseInSwitch _ =>
    "Found a 'non-case' object in a switch statement. Only case statements are allowed."
  | .unexpectedEnd .assignment after =>
    "Expected assignment after identifier '" ++ after ++ "', got nothing."
  | .unexpectedEnd .expression _ => "Expected an expression, got 'end of file'"
  | .unexpectedEnd context _ => "Unexpected end of file while parsing " ++ context.text
  | .nestingTooDeep limit => "Nesting exceeds the limit of " ++ toString limit ++ " levels"

/-- The code of a fault. -/
def code : ParseFault → ErrorCode
  | .expectedKind .. | .expectedToken .. => .expectedToken
  | .unexpectedToken .expression _ => .unexpectedStatement
  | .unexpectedToken .. => .misplacedToken
  | .unexpectedKeyword _ => .unexpectedStatement
  | .unclosedBracket _ .parenthesis _ => .unclosed
  | .unclosedBracket _ .block _ => .expectedToken
  | .unclosedBracket .. => .misplacedToken
  | .caseOutsideSwitch _ => .caseOutsideSwitch
  | .nonCaseInSwitch _ => .nonCaseInSwitch
  | .unexpectedEnd .expression _ => .unexpectedStatement
  | .unexpectedEnd .assignment _ | .unexpectedEnd .parenthesis _ => .unclosed
  | .unexpectedEnd .. => .expectedToken
  | .nestingTooDeep _ => .misplacedToken

/-- The line for a token that was found in a construct: the lead of the construct, and carets
under the token. -/
def excerptFound (line : UInt32) (context : Construct) (found : Option String) : Excerpt :=
  let shown := found.getD ""
  .marked line (context.lead ++ shown) context.lead.length shown.length

/-- The line shown for a fault, and the marks below it. -/
def excerpt (line : UInt32) : ParseFault → Excerpt
  | .expectedKind _ context found | .expectedToken _ context found
  | .unexpectedToken context found => excerptFound line context found
  | .unexpectedKeyword keyword => { line, text := keyword.text, underline := "^" }
  | .unclosedBracket _ .block _ => .marked line "\x7b ... " 6 1
  | .unclosedBracket bracket _ _ => .marked line (bracket.opener.text ++ "...") 4 1
  | .caseOutsideSwitch shown => .marked line shown (min 5 shown.length) (shown.length - 5)
  | .nonCaseInSwitch shown => .marked line shown (shown.length - 5) 5
  | .unexpectedEnd _ after => .marked line after after.length 1
  | .nestingTooDeep _ => { line, text := "...", underline := "^^^" }

/-- The advice where a token of another class is expected. -/
def kindHint (expected : String) : Construct → String
  | .variableName => "Expected variable name as an identifier."
  | .functionName => "Expected function name as an identifier."
  | .parameters => "Expected parameter name as an identifier."
  | _ => "Expected " ++ expected ++ "."

/-- The advice where a certain token is expected; `got` is what was found. -/
def tokenHint (expected got : String) : Construct → String
  | .forLoop => "Incomplete statement: 'for ... '.\nExpected 'comma' in for loop."
  | .doWhile =>
    "Incomplete statement: 'do \x7b...\x7d '.\n" ++
      "Expected 'while' to finish 'do-while' statement.\n" ++
      "Did you forget to include the condition?\n" ++
      "Erroneous example: do \x7b\x7d;\n" ++
      "Valid example: do \x7b\x7d while x == 1;"
  | .block =>
    "Got: '" ++ got ++ "'.\nExpected body.\nDid you forget your body?\n\n" ++
      "Erroneous example: do let x = 3; while 5 == 2;\n" ++
      "Valid example:\ndo \x7b\n\tlet x = 3;\n\x7d while 5 == 2;"
  | _ => "Got: '" ++ got ++ "'.\nExpected " ++ expected ++ "."

/-- The advice where a token cannot stand. -/
def misplacedHint (got : String) : Construct → String
  | .expression => "Unexpected token: '" ++ got ++ "'.\nAn expression was expected."
  | .statement | .case =>
    "Unknown or Incomplete statement: '" ++ got ++ "'.\nExpected an expression or statement."
  | _ =>
    if got = "," then
      "Got token: ','.\nExpected an expression or value.\n" ++
        "Did you accidentally misplace a \",\"?"
    else "Got token: '" ++ got ++ "'.\nExpected an expression or value."

/-- The advice where a bracket is not closed, which was opened at the given place. -/
def bracketHint (bracket : Bracket) (found : Option String) (opened : Location) :
    Construct → String
  | .parenthesis =>
    "Incomplete statement: '(...'.\nExpected ')' to close '(' at " ++
      toString opened.line.toNat ++ ":" ++ toString opened.column.toNat ++ "."
  | .block => "Incomplete body: '\x7b ... '.\nExpected end of body."
  | context =>
    if found.isNone && (context == .arguments || context == .parameters) then
      "Found 'end of file' while parsing function.\nExpected ')' to close function argument."
    else
      "Found '" ++ found.getD "end of file" ++ "' while parsing " ++ context.text ++
        ".\nExpected '" ++ bracket.closer.text ++ "' to close " ++ context.text ++ "."

/-- The advice where the source ends too early. -/
def endHint (after : String) : Construct → String
  | .assignment =>
    "Incomplete statement: '" ++ after ++ "'.\n" ++
      "Expected 'assignment' after variable name.\n" ++
      "Did you forget to assign a value?\n" ++
      "Erroneous example: x;\n" ++
      "Valid example: x = 3;"
  | .expression => "Unexpected token: 'end of file'.\nAn expression was expected."
  | context =>
    "Incomplete statement: '" ++ shorten after ++ "'.\nExpected " ++ context.text ++
      " before end of file."

/-- The advice on a fault at the given place. -/
def hint (location : Location) : ParseFault → String
  | .expectedKind expected context found =>
    "Incomplete statement: '" ++ context.lead ++ found.getD "" ++ "'.\n" ++
      kindHint expected context
  | .expectedToken expected context found =>
    tokenHint expected (found.getD "end of file") context
  | .unexpectedToken context found => misplacedHint (found.getD "end of file") context
  | .unexpectedKeyword keyword =>
    "Unknown or Incomplete statement: '" ++ keyword.text ++
      "'.\nExpected an expression or statement."
  | .unclosedBracket bracket context found => bracketHint bracket found location context
  | .caseOutsideSwitch shown =>
    "Got: '" ++ shown ++ "'.\nDid you mismatch a '\x7b \x7d' pair?"
  | .nonCaseInSwitch _ => "Only case statements are allowed in a switch statement."
  | .unexpectedEnd context after => endHint after context
  | .nestingTooDeep limit =>
    "Code nested deeper than " ++ toString limit ++ " levels cannot be parsed.\n" ++
      "Try moving the innermost part into a function."

end ParseFault

/-- Why a source is no program: a fault of its characters or of its tokens. -/
inductive Fault where
  /-- The characters form no tokens. -/
  | scan (fault : ScanFault)
  /-- The tokens form no program. -/
  | parse (fault : ParseFault)
deriving DecidableEq, Repr

namespace Fault

/-- The headline of a fault. -/
def message : Fault → String
  | .scan fault => fault.message
  | .parse fault => fault.message

/-- The code of a fault. -/
def code : Fault → ErrorCode
  | .scan fault => fault.code
  | .parse fault => fault.code

/-- The line shown for a fault. -/
def excerpt (line : UInt32) : Fault → Excerpt
  | .scan fault => fault.excerpt line
  | .parse fault => fault.excerpt line

/-- The advice on a fault. -/
def hint (location : Location) : Fault → String
  | .scan fault => fault.hint
  | .parse fault => fault.hint location

end Fault

/-- A fault of a source and its place. -/
abbrev SourceError := Located Fault

/-- The diagnostic that reports an error. -/
def SourceError.diagnose (error : SourceError) (options : Options) : Diagnostic where
  code := error.value.code
  message := error.value.message
  fileName := options.fileName
  location := error.location
  excerpts := [error.value.excerpt error.location.line]
  hint := error.value.hint error.location

end Oreo
