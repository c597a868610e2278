import Netlist.Text.Dump

set_option autoImplicit false

namespace Netlist

namespace Fault

inductive Kind where
  | other
  | interrupted
  | unexpectedEnd
  | invalidData
  | timedOut
  | permissionDenied
  | brokenPipe
  | wouldBlock
  | notFound
  | isDirectory
deriving DecidableEq

namespace Kind

def all : List Kind :=
  [.other, .interrupted, .unexpectedEnd, .invalidData, .timedOut, .permissionDenied, .brokenPipe,
    .wouldBlock, .notFound, .isDirectory]

def label : Kind -> String
  | .other => "Other"
  | .interrupted => "Interrupted"
  | .unexpectedEnd => "UnexpectedEof"
  | .invalidData => "InvalidData"
  | .timedOut => "TimedOut"
  | .permissionDenied => "PermissionDenied"
  | .brokenPipe => "BrokenPipe"
  | .wouldBlock => "WouldBlock"
  | .notFound => "NotFound"
  | .isDirectory => "IsADirectory"

end Kind

end Fault

inductive Fault where
  -- the device reports a failure in its own words
  | reported (kind : Fault.Kind) (text : String)
  -- a byte with which no UTF-8 sequence starts
  | strayByte (byte : UInt8)
  -- the stream ends inside a UTF-8 sequence
  | truncated
  -- the first `length` bytes of a sequence can begin no character
  | malformed (length : Nat)
  | noSuchFile
  | isDirectory
deriving DecidableEq

namespace Fault

def kind : Fault -> Kind
  | .reported kind _ => kind
  | .strayByte _ => .invalidData
  | .truncated => .unexpectedEnd
  | .malformed _ => .invalidData
  | .noSuchFile => .notFound
  | .isDirectory => .isDirectory

def message : Fault -> String
  | .reported _ text => text
  -- a stray byte is 0x80 or more, so it always has two digits
  | .strayByte byte => "invalid UTF-8 leading byte 0x" ++ Text.hex byte.toNat
  | .truncated => "truncated UTF-8 sequence"
  | .malformed length => "invalid utf-8 sequence of " ++ length.repr ++ " bytes from index 0"
  | .noSuchFile => "No such file or directory (os error 2)"
  | .isDirectory => "Is a directory (os error 21)"

def custom (kind : Kind) (cause : Dump) : Dump :=
  .record "Custom" [("kind", .word kind.label), ("error", cause)]

def numbered (code : Nat) (kind : Kind) (text : String) : Dump :=
  .record "Os" [("code", .number code), ("kind", .word kind.label), ("message", .quoted text)]

def dump (fault : Fault) : Dump :=
  match fault with
  | .reported .. | .strayByte _ | .truncated => custom fault.kind (.quoted fault.message)
  | .malformed length =>
      custom fault.kind
        (.record "Utf8Error"
          [("valid_up_to", .number 0), ("error_len", .wrapped "Some" (.number length))])
  | .noSuchFile => numbered 2 fault.kind "No such file or directory"
  | .isDirectory => numbered 21 fault.kind "Is a directory"

end Fault

end Netlist
