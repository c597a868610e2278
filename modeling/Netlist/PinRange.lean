set_option autoImplicit false

/-!
# Ranges of pins

Two pin numbers, both included. A port's width `n` is the range from 1 to `n`; at the end of a wire
a range picks pins by number, in either direction. The range from 0 to 0 stands for no choice.
-/

namespace Netlist

structure PinRange where
  first : UInt32
  last : UInt32
deriving DecidableEq

namespace PinRange

def maxPin : Nat :=
  UInt32.size - 1

def ofWidth (width : UInt32) : PinRange :=
  { first := 1, last := width }

def single (pin : UInt32) : PinRange :=
  { first := pin, last := pin }

def unspecified : PinRange :=
  { first := 0, last := 0 }

/-- The number of pins from `first` up to `last`; none if `last` comes before `first`. -/
def count (range : PinRange) : UInt32 :=
  .ofNat (min (range.last.toNat + 1 - range.first.toNat) maxPin)

/-- The number of pins between the two ends, in either direction. -/
def span (range : PinRange) : UInt32 :=
  let low := min range.first.toNat range.last.toNat
  let high := max range.first.toNat range.last.toNat
  .ofNat (min (high - low + 1) maxPin)

def isDescending (range : PinRange) : Bool :=
  range.last < range.first

def isUnspecified (range : PinRange) : Bool :=
  range = unspecified

end PinRange

end Netlist
