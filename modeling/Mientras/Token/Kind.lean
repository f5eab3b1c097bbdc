/-!
# Kinds of tokens

A `Kind` says what a token is.  Every kind has a `name`, a description for messages, and its
place in the language: it may be trivia, a binary operator, or the opening of a statement of
some form (`Form`).
-/

namespace Mientras

/-- The kinds of tokens. -/
inductive Kind where
  | endOfInput
  | blank
  | lineComment
  | blockComment
  | identifier
  | typeName
  | boolean
  | integer
  | float
  | text
  | openParen
  | closeParen
  | openCurly
  | closeCurly
  | comma
  | semicolon
  | assignment
  | equals
  | notEquals
  | less
  | lessEquals
  | greater
  | greaterEquals
  | plus
  | dash
  | star
  | slash
  | si
  | sino
  | finSi
  | mientras
  | finMientras
  | para
  | funcion
  | finFuncion
  | retornar
  deriving DecidableEq, Repr, Inhabited

/-- The forms of statements, as far as the first token shows them. -/
inductive Form where
  | declaration
  | identifier
  | conditional
  | alternative
  | loop
  | function
  | result
  | empty
  | invalid
  deriving DecidableEq, Repr, Inhabited

namespace Kind

/-- All kinds of tokens. -/
def all : List Kind :=
  [endOfInput, blank, lineComment, blockComment, identifier, typeName, boolean, integer, float,
   text, openParen, closeParen, openCurly, closeCurly, comma, semicolon, assignment, equals,
   notEquals, less, lessEquals, greater, greaterEquals, plus, dash, star, slash, si, sino, finSi,
   mientras, finMientras, para, funcion, finFuncion, retornar]

theorem mem_all (kind : Kind) :
  kind ∈ all
  := by
  cases kind <;> decide

/-- The name under which a kind is shown. -/
def name : Kind → String
  | endOfInput => "EOF"
  | blank => "Whitespace"
  | lineComment => "Comment"
  | blockComment => "BlockComment"
  | identifier => "Identifier"
  | typeName => "DataType"
  | boolean => "Boolean"
  | integer => "Integer"
  | float => "Float"
  | text => "String"
  | openParen => "OpenParen"
  | closeParen => "CloseParen"
  | openCurly => "OpenCurly"
  | closeCurly => "CloseCurly"
  | comma => "Comma"
  | semicolon => "Semicolon"
  | assignment => "Assignment"
  | equals => "Equals"
  | notEquals => "NotEquals"
  | less => "Less"
  | lessEquals => "LessEquals"
  | greater => "Greater"
  | greaterEquals => "GreaterEquals"
  | plus => "Plus"
  | dash => "Dash"
  | star => "Star"
  | slash => "Slash"
  | si => "Si"
  | sino => "Sino"
  | finSi => "FinSi"
  | mientras => "Mientras"
  | finMientras => "FinMientras"
  | para => "Para"
  | funcion => "Funcion"
  | finFuncion => "FinFuncion"
  | retornar => "Retornar"

/-- The kind with the given name. -/
def ofName? (name : String) : Option Kind :=
  all.find? (·.name == name)

/-- Every kind is found by its name. -/
theorem ofName?_name (kind : Kind) :
  ofName? kind.name = some kind
  := by
  cases kind <;> decide

/-- How a message speaks of a kind that it expects. -/
def description : Kind → String
  | endOfInput => "end of input"
  | identifier => "an identifier"
  | typeName => "a type name"
  | openParen => "`(`"
  | closeParen => "`)`"
  | openCurly => "`\x7b`"
  | closeCurly => "`\x7d`"
  | comma => "`,`"
  | semicolon => "`;`"
  | assignment => "`=`"
  | kind => kind.name

/-- Trivia are blanks and comments: they part tokens and mean nothing else. -/
def isTrivia : Kind → Bool
  | blank | lineComment | blockComment => true
  | _ => false

/-- The operators that may stand between two operands. -/
def isOperator : Kind → Bool
  | plus | dash | star | slash => true
  | equals | notEquals | less | lessEquals | greater | greaterEquals => true
  | _ => false

/-- The form of the statements that open with a token of the given kind. -/
def form : Kind → Form
  | typeName => .declaration
  | identifier => .identifier
  | si => .conditional
  | sino => .alternative
  | mientras => .loop
  | funcion => .function
  | retornar => .result
  | semicolon => .empty
  | _ => .invalid

/-- The reserved words, each with its kind.  A word stands before every other word that begins
it. -/
def reserved : List (String × Kind) :=
  [("sino", sino), ("si", si), ("fin_si", finSi), ("mientras", mientras),
   ("fin_mientras", finMientras), ("para", para), ("funcion", funcion), ("fin_funcion", finFuncion),
   ("retornar", retornar)]

/-- The names of types. -/
def typeNames : List (String × Kind) :=
  [("entero", typeName), ("flotante", typeName), ("texto", typeName), ("booleano", typeName)]

/-- The truth values. -/
def truthValues : List (String × Kind) :=
  [("verdadero", boolean), ("falso", boolean)]

/-- The signs, each with its kind.  A sign stands before every other sign that begins it. -/
def signs : List (String × Kind) :=
  [("==", equals), ("!=", notEquals), ("<=", lessEquals), (">=", greaterEquals), ("<", less),
   (">", greater), ("=", assignment), ("+", plus), ("-", dash), ("*", star), ("/", slash),
   ("(", openParen), (")", closeParen), ("\x7b", openCurly), ("\x7d", closeCurly), (",", comma),
   (";", semicolon)]

/-- The kind of a reserved word. -/
def ofReserved? (word : String) : Option Kind :=
  reserved.lookup word

end Kind

end Mientras
