import Netlist.Program
import Netlist.Text.Dump

set_option autoImplicit false

namespace Netlist

def PinRange.dump (range : PinRange) : Dump :=
  .record "Range" [("start", .number range.first.toNat), ("end", .number range.last.toNat)]

def Port.dump (port : Port) : Dump :=
  .record "Port" [("id", .quoted port.id), ("pins", port.pins.dump)]

def Part.dump (part : Part) : Dump :=
  .record "Part" [("id", .quoted part.id), ("module", .quoted part.module)]

def Wire.dump (wire : Wire) : Dump :=
  .record "Wire"
    [("source", .quoted wire.source.name), ("source_out", .optional wire.source.selector),
      ("source_range", wire.source.pins.dump), ("target", .quoted wire.target.name),
      ("target_in", .optional wire.target.selector), ("target_range", wire.target.pins.dump)]

def Statement.dump : Statement -> Dump
  | .inputs entries => .record "InputStatement" [("ports", .list (entries.map Port.dump))]
  | .outputs entries => .record "OutputStatement" [("ports", .list (entries.map Port.dump))]
  | .parts entries => .record "PartStatement" [("parts", .list (entries.map Part.dump))]
  | .wires entries => .record "WireStatement" [("wires", .list (entries.map Wire.dump))]

def Program.dump (program : Program) : Dump :=
  .record "Program"
    [("inputs", (Statement.inputs program.inputs).dump),
      ("outputs", (Statement.outputs program.outputs).dump),
      ("parts", (Statement.parts program.parts).dump),
      ("wires", (Statement.wires program.wires).dump)]

end Netlist
