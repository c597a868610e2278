import Netlist.Reading
import Netlist.Program.Render
import Netlist.Program.Dump

set_option autoImplicit false

namespace Netlist

namespace Command

inductive Format where
  -- every statement with the number of its entries, then the entries
  | summary
  | dump
  | canonical
deriving DecidableEq

def portLine (port : Port) : String :=
  "  " ++ port.id ++ " (" ++ port.width.toNat.repr ++ " pin(s))\n"

def summarize (program : Program) : String :=
  "inputs:  " ++ program.inputs.length.repr ++ "\n" ++ String.join (program.inputs.map portLine) ++
    "outputs: " ++ program.outputs.length.repr ++ "\n" ++
    String.join (program.outputs.map portLine) ++
    "parts:   " ++ program.parts.length.repr ++ "\n" ++
    String.join (program.parts.map fun part => "  " ++ part.id ++ ": " ++ part.module ++ "\n") ++
    "wires:   " ++ program.wires.length.repr ++ "\n" ++
    String.join (program.wires.map fun wire => "  " ++ wire.render ++ "\n")

def Format.print (format : Format) (program : Program) : String :=
  match format with
  | .summary => summarize program
  | .dump => program.dump.indented 0 ++ "\n"
  | .canonical => program.render

def level : Nat -> Level
  | 0 => .warn
  | 1 => .debug
  | _ => .trace

def logLine (record : Record) : String :=
  let label := record.level.label
  "[" ++ label ++ String.ofList (List.replicate (5 - label.length) ' ') ++ " " ++
    record.component ++ "] " ++ record.text

inductive Input where
  | standard (script : List Read)
  | file (path : String) (contents : File)

def Input.read : Input -> Reading
  | .standard script => .ofReads script
  | .file path contents => .ofFile path contents

structure Request where
  input : Input
  format : Format := .summary
  verbosity : Nat := 0

structure Outcome where
  exitCode : UInt32
  stdout : String
  -- lines without their ends
  stderr : List String

def run (request : Request) : Outcome :=
  let reading := request.input.read
  let log := (reading.journal.upTo (level request.verbosity)).map logLine
  match reading.result with
  | .ok program => { exitCode := 0, stdout := request.format.print program, stderr := log }
  | .error failure =>
      { exitCode := 1, stdout := "", stderr := log ++ ["Error: " ++ failure.dump.inline] }

end Command

end Netlist
