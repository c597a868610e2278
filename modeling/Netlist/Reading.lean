import Netlist.Grammar.Statement
import Netlist.Source.Utf8

set_option autoImplicit false

namespace Netlist

structure Reading where
  result : Except Failure Program
  journal : Journal := {}

inductive File where
  -- it cannot be opened
  | closed (fault : Fault)
  | opened (script : List Read)

namespace File

def missing : File :=
  .closed .noSuchFile

def directory : File :=
  .opened [.failed .isDirectory]

def regular (bytes : List UInt8) : File :=
  .opened (bytes.map .byte)

end File

namespace Reading

def ofText (text : String) : Reading :=
  let (result, cursor) := Grammar.program (Cursor.ofSource (Feed.ofText text))
  { result := result.mapError .grammar, journal := cursor.journal }

def ofReads (script : List Read) : Reading :=
  let (result, cursor) := Grammar.program (Cursor.ofSource { script : ByteReader })
  let result :=
    match cursor.lexer.source.kept with
    | some fault => .error (.stream fault)
    | none => result.mapError .grammar
  { result, journal := cursor.journal }

def inFile (path : String) : Failure -> Failure
  | .stream fault => .file path fault
  | failure => failure

def ofFile (path : String) : File -> Reading
  | .closed fault => { result := .error (.file path fault) }
  | .opened script =>
      let reading := ofReads script
      { reading with result := reading.result.mapError (inFile path) }

end Reading

def Program.parse (text : String) : Except Failure Program :=
  (Reading.ofText text).result

end Netlist
