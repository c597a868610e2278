import Netlist.Command

set_option autoImplicit false

namespace Netlist

structure Arguments where
  path : Option String := none
  format : Command.Format := .summary
  verbosity : Nat := 0

namespace Arguments

def formatOf? : String -> Option Command.Format
  | "summary" => some .summary
  | "debug" => some .dump
  | "text" => some .canonical
  | _ => none

def read? : List String -> Arguments -> Option Arguments
  | [], arguments => some arguments
  | "-f" :: format :: rest, arguments | "--format" :: format :: rest, arguments => do
      read? rest { arguments with format := <- formatOf? format }
  | "-v" :: rest, arguments | "--verbose" :: rest, arguments =>
      read? rest { arguments with verbosity := arguments.verbosity + 1 }
  | "-vv" :: rest, arguments =>
      read? rest { arguments with verbosity := arguments.verbosity + 2 }
  | path :: rest, arguments =>
      if arguments.path.isSome then none else read? rest { arguments with path := some path }

end Arguments

partial def readAll (stream : IO.FS.Stream) (bytes : ByteArray) : IO ByteArray := do
  let more <- stream.read 65536
  if more.isEmpty then pure bytes else readAll stream (bytes ++ more)

def openFile (path : String) : IO File := do
  match <- (IO.FS.readBinFile path).toBaseIO with
  | .ok bytes => pure (.regular bytes.toList)
  | .error (.noFileOrDirectory ..) => pure .missing
  | .error (.inappropriateType ..) => pure .directory
  | .error failure => pure (.closed (.reported .other failure.toString))

def openInput (path : String) : IO Command.Input := do
  if path = "-" then
    let bytes <- readAll (<- IO.getStdin) .empty
    pure (.standard (bytes.toList.map .byte))
  else
    pure (.file path (<- openFile path))

end Netlist

def main (arguments : List String) : IO UInt32 := do
  match Netlist.Arguments.read? arguments {} with
  | some { path := some path, format, verbosity } => do
      let input <- Netlist.openInput path
      let outcome := Netlist.Command.run { input, format, verbosity }
      for line in outcome.stderr do
        IO.eprintln line
      IO.print outcome.stdout
      pure outcome.exitCode
  | _ => do
      IO.eprintln "usage: mhrd [--format summary|debug|text] [-v] FILE"
      pure 2
