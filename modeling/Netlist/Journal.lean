import Netlist.Fault
import Netlist.Token

set_option autoImplicit false

namespace Netlist

inductive Level where
  | warn
  | debug
  | trace
deriving DecidableEq

namespace Level

def all : List Level :=
  [.warn, .debug, .trace]

def rank : Level -> Nat
  | .warn => 0
  | .debug => 1
  | .trace => 2

def label : Level -> String
  | .warn => "WARN"
  | .debug => "DEBUG"
  | .trace => "TRACE"

end Level

inductive Record where
  | sourceFailed (fault : Fault)
  | opening (heading : Heading)
  | completed (heading : Heading) (count : Nat)
  | met (token : Token)
deriving DecidableEq

namespace Record

def level : Record -> Level
  | .sourceFailed _ => .warn
  | .opening _ => .debug
  | .completed .. => .debug
  | .met _ => .trace

def component : Record -> String
  | .sourceFailed _ => "mhrd_core::dsl::source"
  | _ => "mhrd_core::dsl::parser"

def entries : Heading -> String
  | .inputs => "input port(s)"
  | .outputs => "output port(s)"
  | .parts => "part(s)"
  | .wires => "wire(s)"

def text : Record -> String
  | .sourceFailed fault =>
      "character source failed, treating as end of input: " ++ fault.message
  | .opening heading => "parsing " ++ heading.word ++ " statement"
  | .completed heading count => "parsed " ++ count.repr ++ " " ++ entries heading
  | .met token =>
      token.position.line.repr ++ ":" ++ token.position.column.repr ++ ": " ++ token.kind.label ++
        " " ++ Text.quoted token.text

end Record

/-- Records, the latest first. -/
structure Journal where
  latest : List Record := []
deriving DecidableEq

namespace Journal

def write (journal : Journal) (record : Record) : Journal :=
  { latest := record :: journal.latest }

def toList (journal : Journal) : List Record :=
  journal.latest.reverse

@[simp]
theorem toList_empty : ({} : Journal).toList = [] := rfl

@[simp]
theorem toList_write (journal : Journal) (record : Record) :
    (journal.write record).toList = journal.toList ++ [record] := by
  simp [write, toList]

def upTo (journal : Journal) (level : Level) : List Record :=
  journal.toList.filter fun record => record.level.rank ≤ level.rank

end Journal

end Netlist
