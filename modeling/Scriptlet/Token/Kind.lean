/-!
Kinds of tokens. They are numbered from zero in the order below; a token made by hand may carry a
number that belongs to no kind, which is kept as `unknown`.
-/

namespace Scriptlet

inductive TokenKind where
  | leftParen | rightParen | leftBrace | rightBrace | comma | dot | minus | plus | semicolon
  | slash | star
  | bang | bangEqual | equal | equalEqual | greater | greaterEqual | less | lessEqual
  | identifier | string | number
  | kwAnd | kwClass | kwElse | kwFalse | kwFun | kwFor | kwIf | kwNil | kwOr | kwPrint | kwReturn
  | kwSuper | kwThis | kwTrue | kwVar | kwWhile
  | endOfFile
  | unknown (code : Int8)
  deriving DecidableEq, Repr, Inhabited

namespace TokenKind

/-- The numbered kinds, in order. -/
def numbered : List TokenKind :=
  [.leftParen, .rightParen, .leftBrace, .rightBrace, .comma, .dot, .minus, .plus, .semicolon,
   .slash, .star, .bang, .bangEqual, .equal, .equalEqual, .greater, .greaterEqual, .less,
   .lessEqual, .identifier, .string, .number, .kwAnd, .kwClass, .kwElse, .kwFalse, .kwFun,
   .kwFor, .kwIf, .kwNil, .kwOr, .kwPrint, .kwReturn, .kwSuper, .kwThis, .kwTrue, .kwVar,
   .kwWhile, .endOfFile]

def ofCode (code : Int8) : TokenKind :=
  if code < 0 then .unknown code
  else (numbered[code.toNatClampNeg]?).getD (.unknown code)

def code : TokenKind → Int8
  | .unknown code => code
  | kind => Int8.ofNat (numbered.idxOf kind)

/-- How a kind is called in messages and listings. -/
def name : TokenKind → String
  | .leftParen => "'('"
  | .rightParen => "')'"
  | .leftBrace => "'\x7b'"
  | .rightBrace => "'\x7d'"
  | .comma => "','"
  | .dot => "'.'"
  | .minus => "'-'"
  | .plus => "'+'"
  | .semicolon => "';'"
  | .slash => "'/'"
  | .star => "'*'"
  | .bang => "'!'"
  | .bangEqual => "'!='"
  | .equal => "'='"
  | .equalEqual => "'=='"
  | .greater => "'>'"
  | .greaterEqual => "'>='"
  | .less => "'<'"
  | .lessEqual => "'<='"
  | .identifier => "identifier"
  | .string => "string"
  | .number => "number"
  | .kwAnd => "'and'"
  | .kwClass => "'class'"
  | .kwElse => "'else'"
  | .kwFalse => "'false'"
  | .kwFun => "'fun'"
  | .kwFor => "'for'"
  | .kwIf => "'if'"
  | .kwNil => "'nil'"
  | .kwOr => "'or'"
  | .kwPrint => "'print'"
  | .kwReturn => "'return'"
  | .kwSuper => "'super'"
  | .kwThis => "'this'"
  | .kwTrue => "'true'"
  | .kwVar => "'var'"
  | .kwWhile => "'while'"
  | .endOfFile => "end of file"
  | .unknown code => "TokType(" ++ toString code.toInt ++ ")"

/-- The reserved words, spelled in capitals. -/
def keywords : List (String × TokenKind) :=
  [("AND", .kwAnd), ("CLASS", .kwClass), ("ELSE", .kwElse), ("FALSE", .kwFalse), ("FOR",
   .kwFor), ("FUN", .kwFun), ("IF", .kwIf), ("NIL", .kwNil), ("OR", .kwOr), ("PRINT", .kwPrint),
   ("RETURN", .kwReturn), ("SUPER", .kwSuper), ("THIS", .kwThis), ("TRUE", .kwTrue), ("VAR",
   .kwVar), ("WHILE", .kwWhile)]

/-- The kind of a reserved word spelled in capitals. -/
def ofKeyword? (word : String) : Option TokenKind :=
  keywords.lookup word

end TokenKind

end Scriptlet
