import Netlist.Program

set_option autoImplicit false

namespace Netlist

def decimal (pin : UInt32) : String :=
  pin.toNat.repr

def Port.render (port : Port) : String :=
  if port.pins = .ofWidth 1 then port.id else port.id ++ "[" ++ decimal port.width ++ "]"

def Part.render (part : Part) : String :=
  part.id ++ " " ++ part.module

def PinRange.render (range : PinRange) : String :=
  if range.isUnspecified then ""
  else if range.first = range.last then "[" ++ decimal range.first ++ "]"
  else "[" ++ decimal range.first ++ ":" ++ decimal range.last ++ "]"

def Endpoint.render (endpoint : Endpoint) : String :=
  let selector :=
    match endpoint.selector with
    | none => ""
    | some selector => "." ++ selector
  endpoint.name ++ selector ++ endpoint.pins.render

def Wire.render (wire : Wire) : String :=
  wire.source.render ++ " -> " ++ wire.target.render

namespace Statement

def texts : Statement -> List String
  | .inputs entries => entries.map Port.render
  | .outputs entries => entries.map Port.render
  | .parts entries => entries.map Part.render
  | .wires entries => entries.map Wire.render

def listed : List String -> String
  | [] => ""
  | text :: rest => " " ++ text ++ String.join (rest.map (", " ++ ·))

def render (statement : Statement) : String :=
  statement.heading.word ++ ":" ++ listed statement.texts ++ ";"

end Statement

def Program.render (program : Program) : String :=
  String.join (program.statements.map fun statement => statement.render ++ "\n")

end Netlist
