/-!
# Token kinds

* `Kind` — what a token is: an illegal character, the end of the text, an identifier, an
  integer, an operator, a delimiter or a keyword.
* `Kind.all` — the kinds in the order of their numbers, which start at one.
* `Kind.name`, `Kind.ofName?` — the name of a kind in the output, and its reading.
-/

namespace Lexline

/-- What a token is. -/
inductive Kind where
  | illegal
  | eof
  | ident
  | int
  | assign
  | plus
  | minus
  | bang
  | slash
  | asterisk
  | lt
  | gt
  | eq
  | notEq
  | lte
  | gte
  | comma
  | semicolon
  | lparen
  | rparen
  | lbrace
  | rbrace
  | letWord
  | functionWord
  | ifWord
  | elseWord
  | returnWord
  | trueWord
  | falseWord
  deriving DecidableEq, Repr

namespace Kind

/-- All kinds, in the order of their numbers. -/
def all : List Kind :=
  [illegal, eof, ident, int, assign, plus, minus, bang, slash, asterisk, lt, gt, eq, notEq, lte,
   gte, comma, semicolon, lparen, rparen, lbrace, rbrace, letWord, functionWord, ifWord, elseWord,
   returnWord, trueWord, falseWord]

/-- The name of a kind in the output. -/
def name : Kind → String
  | illegal => "ILLEGAL"
  | eof => "EOF"
  | ident => "IDENT"
  | int => "INT"
  | assign => "ASSIGN"
  | plus => "PLUS"
  | minus => "MINUS"
  | bang => "BANG"
  | slash => "SLASH"
  | asterisk => "ASTERISK"
  | lt => "LT"
  | gt => "GT"
  | eq => "EQ"
  | notEq => "NOT_EQ"
  | lte => "LTE"
  | gte => "GTE"
  | comma => "COMMA"
  | semicolon => "SEMICOLON"
  | lparen => "LPAREN"
  | rparen => "RPAREN"
  | lbrace => "LBRACE"
  | rbrace => "RBRACE"
  | letWord => "LET"
  | functionWord => "FUNCTION"
  | ifWord => "IF"
  | elseWord => "ELSE"
  | returnWord => "RETURN"
  | trueWord => "TRUE"
  | falseWord => "FALSE"

/-- The kind with a given name. -/
def ofName? (s : String) : Option Kind := all.find? (fun k => k.name == s)

/-- The number of a kind: its place in `all`, counted from one. -/
def number (k : Kind) : Nat := all.idxOf k + 1

theorem mem_all (k : Kind) : k ∈ all := by
  cases k <;> decide

end Kind

end Lexline
