import Netlist.Fault
import Netlist.Token

set_option autoImplicit false

namespace Netlist

inductive Diagnostic where
  -- a token stands where something else was called for
  | unexpected (found expected : String) (position : Position)
  -- a number is larger than every pin number
  | pinOutOfRange (literal : String) (position : Position)
deriving DecidableEq

namespace Diagnostic

def unexpectedToken (token : Token) (expected : String) : Diagnostic :=
  .unexpected token.text expected token.position

def pinToken (token : Token) : Diagnostic :=
  .pinOutOfRange token.text token.position

def position : Diagnostic -> Position
  | .unexpected _ _ position => position
  | .pinOutOfRange _ position => position

def message (diagnostic : Diagnostic) : String :=
  "line " ++ diagnostic.position.line.repr ++ ", column " ++ diagnostic.position.column.repr ++
    match diagnostic with
    | .unexpected found expected _ =>
        ": found " ++ Text.quoted found ++ ", expected " ++ Text.quoted expected
    | .pinOutOfRange literal _ => ": pin index '" ++ literal ++ "' is out of range"

def dump (diagnostic : Diagnostic) : Dump :=
  let place :=
    [("line", .number diagnostic.position.line), ("column", .number diagnostic.position.column)]
  match diagnostic with
  | .unexpected found expected _ =>
      .record "UnexpectedToken"
        ([("found", .quoted found), ("expected", .quoted expected)] ++ place)
  | .pinOutOfRange literal _ => .record "InvalidPinIndex" ([("literal", .quoted literal)] ++ place)

end Diagnostic

inductive Failure where
  | grammar (diagnostic : Diagnostic)
  | stream (fault : Fault)
  | file (path : String) (fault : Fault)
deriving DecidableEq

namespace Failure

def fault? : Failure -> Option Fault
  | .grammar _ => none
  | .stream fault => some fault
  | .file _ fault => some fault

def message : Failure -> String
  | .grammar diagnostic => diagnostic.message
  | .stream fault => "Failed to read netlist source: " ++ fault.message
  | .file path fault => "Failed to read netlist file '" ++ path ++ "': " ++ fault.message

def dump : Failure -> Dump
  | .grammar diagnostic => diagnostic.dump
  | .stream fault => .record "Io" [("source", fault.dump)]
  | .file path fault => .record "FileReadError" [("path", .quoted path), ("source", fault.dump)]

end Failure

end Netlist
