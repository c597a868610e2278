import Netlist.PinRange
import Netlist.Token

set_option autoImplicit false

namespace Netlist

structure Port where
  id : String
  pins : PinRange
deriving DecidableEq

namespace Port

def ofWidth (id : String) (width : UInt32) : Port :=
  { id, pins := .ofWidth width }

def width (port : Port) : UInt32 :=
  port.pins.last

end Port

structure Part where
  id : String
  module : String
deriving DecidableEq

/-- One end of a wire: a port or a part, for a part the name of one of its ports, and some pins. -/
structure Endpoint where
  name : String
  selector : Option String := none
  pins : PinRange := .unspecified
deriving DecidableEq

structure Wire where
  -- a constant, or what drives the wire
  source : Endpoint
  target : Endpoint
deriving DecidableEq

def Wire.isConstant (wire : Wire) : Bool :=
  wire.source.name.toList.head?.any Char.isDigit

inductive Statement where
  | inputs (entries : List Port)
  | outputs (entries : List Port)
  | parts (entries : List Part)
  | wires (entries : List Wire)
deriving DecidableEq

namespace Statement

def heading : Statement -> Heading
  | .inputs _ => .inputs
  | .outputs _ => .outputs
  | .parts _ => .parts
  | .wires _ => .wires

def size : Statement -> Nat
  | .inputs entries => entries.length
  | .outputs entries => entries.length
  | .parts entries => entries.length
  | .wires entries => entries.length

end Statement

structure Program where
  inputs : List Port := []
  outputs : List Port := []
  parts : List Part := []
  wires : List Wire := []
deriving DecidableEq

namespace Program

def statements (program : Program) : List Statement :=
  [.inputs program.inputs, .outputs program.outputs, .parts program.parts, .wires program.wires]

def widthOf (program : Program) (id : String) : Option UInt32 :=
  ((program.inputs ++ program.outputs).find? fun port => port.id = id).map Port.width

end Program

end Netlist
