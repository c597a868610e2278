import Netlist.Text.Dump

set_option autoImplicit false

namespace Netlist

structure Position where
  line : Nat := 1
  column : Nat := 1
deriving DecidableEq

def Position.after (position : Position) (c : Char) : Position :=
  if c = '\n' then { line := position.line + 1, column := 1 }
  else { line := position.line, column := position.column + 1 }

inductive Heading where
  | inputs
  | outputs
  | parts
  | wires
deriving DecidableEq

namespace Heading

def all : List Heading :=
  [.inputs, .outputs, .parts, .wires]

def word : Heading -> String
  | .inputs => "Inputs"
  | .outputs => "Outputs"
  | .parts => "Parts"
  | .wires => "Wires"

def ofWord? (text : String) : Option Heading :=
  all.find? fun heading => heading.word = text

end Heading

namespace Token

inductive Kind where
  | endOfInput
  -- a character with which no token starts
  | invalid
  -- a run of spaces and tabs
  | blank
  -- a run of line feeds
  | newline
  -- a run of decimal digits
  | digits
  -- a letter, then letters and digits, that is no keyword
  | name
  | keyword (heading : Heading)
  | dot
  | comma
  | semicolon
  | colon
  | leftBracket
  | rightBracket
  | arrow
  -- two slashes and the rest of their line
  | comment
deriving DecidableEq

namespace Kind

def all : List Kind :=
  [.endOfInput, .invalid, .blank, .newline, .digits, .name] ++ Heading.all.map .keyword ++
    [.dot, .comma, .semicolon, .colon, .leftBracket, .rightBracket, .arrow, .comment]

def label : Kind -> String
  | .endOfInput => "Eof"
  | .invalid => "Invalid"
  | .blank => "Whitespace"
  | .newline => "Newline"
  | .digits => "Digit"
  | .name => "Letter"
  | .keyword heading => heading.word
  | .dot => "Dot"
  | .comma => "Comma"
  | .semicolon => "Semicolon"
  | .colon => "Colon"
  | .leftBracket => "LeftBracket"
  | .rightBracket => "RightBracket"
  | .arrow => "Arrow"
  | .comment => "Comment"

def describe : Kind -> String
  | .endOfInput => "end of input"
  | .invalid => "invalid character"
  | .blank => "whitespace"
  | .newline => "newline"
  | .digits => "digit"
  | .name => "identifier"
  | .keyword heading => heading.word
  | .dot => "."
  | .comma => ","
  | .semicolon => ";"
  | .colon => ":"
  | .leftBracket => "["
  | .rightBracket => "]"
  | .arrow => "->"
  | .comment => "comment"

def isLayout : Kind -> Bool
  | .blank | .newline | .comment => true
  | _ => false

theorem ne_endOfInput_of_isLayout {kind : Kind} (layout : kind.isLayout) : kind ≠ .endOfInput := by
  intro ended
  rw [ended] at layout
  simp [isLayout] at layout

def ofWord (text : String) : Kind :=
  match Heading.ofWord? text with
  | some heading => .keyword heading
  | none => .name

end Kind

end Token

structure Token where
  kind : Token.Kind
  text : String
  position : Position
deriving DecidableEq

namespace Token

def display (token : Token) : String :=
  match token.kind with
  | .endOfInput => "end of input"
  | _ => "'" ++ token.text ++ "'"

def dump (token : Token) : Dump :=
  .record "Token"
    [("kind", .word token.kind.label), ("text", .quoted token.text),
      ("line", .number token.position.line), ("column", .number token.position.column)]

end Token

end Netlist
