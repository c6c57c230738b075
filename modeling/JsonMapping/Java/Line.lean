import JsonMapping.Text.Blank

/-! Lines of Java source: pieces of code and string literals at a depth of nesting. -/

namespace JsonMapping.Java

inductive Piece where
  | code (text : String)
  | literal (value : String)
deriving DecidableEq

structure Line where
  depth : Nat
  pieces : List Piece
deriving DecidableEq

/-- Quotes, backslashes and the usual control characters are escaped; all else stands for itself. -/
def escape (c : Char) : List Char :=
  if c = '"' then ['\\', '"']
  else if c = '\\' then ['\\', '\\']
  else if c = '\n' then ['\\', 'n']
  else if c = '\x0d' then ['\\', 'r']
  else if c = '\t' then ['\\', 't']
  else [c]

def Piece.chars : Piece → List Char
  | .code text => text.toList
  | .literal value => '"' :: value.toList.flatMap escape ++ ['"']

/-- Pieces with a separator between them. -/
def joined (separator : String) (parts : List (List Piece)) : List Piece :=
  List.intercalate [.code separator] parts

namespace Line

def blank : Line := ⟨0, []⟩

def ofPieces (pieces : List Piece) : Line := ⟨0, pieces⟩

def code (text : String) : Line := ofPieces [.code text]

def nested (l : Line) : Line := { l with depth := l.depth + 1 }

def chars (indent : Nat) (l : Line) : List Char :=
  List.replicate (indent * l.depth) ' ' ++ l.pieces.flatMap Piece.chars

/-- A header, the lines of a body one level deeper, and the closing brace. -/
def block (header : List Piece) (body : List Line) : List Line :=
  ofPieces (header ++ [.code " \x7b"]) :: (body.map nested ++ [code "\x7d"])

/-- Blocks of which each starts on the line where the one before ends. -/
def chain : List (List Piece × List Line) → List Line
  | [] => [code "\x7d"]
  | (header, body) :: rest =>
    ofPieces (.code "\x7d else " :: header ++ [.code " \x7b"]) :: (body.map nested ++ chain rest)

/-- Groups of lines with a blank line between them. -/
def spaced (groups : List (List Line)) : List Line := List.intercalate [blank] groups

/-- The whole text. No line ends in blanks, also where a name of the mapper breaks one. -/
def textOf (indent : Nat) (ls : List Line) : String :=
  let raw := List.intercalate ['\n'] (ls.map (chars indent))
  String.ofList ((Text.pieces '\n' raw).flatMap fun l => Text.trimEnd l ++ ['\n'])

end Line

end JsonMapping.Java
