import Netlist.Fault

set_option autoImplicit false

/-!
# Character sources

Anything that characters can be pulled from, one at a time. A source may report its end and go on
afterwards; it never brings more characters than its size says.
-/

namespace Netlist

inductive Pull where
  | char (c : Char)
  | stop
  | failed (fault : Fault)
deriving DecidableEq

def Pull.count : Pull -> Nat
  | .char _ => 1
  | _ => 0

class Source (σ : Type) where
  pull : σ -> Pull × σ
  -- a bound on the characters still to come
  size : σ -> Nat
  count_add_size_pull : forall source,
    (pull source).1.count + size (pull source).2 ≤ size source

/-- Characters and ends in the order in which they will be met; after the last of them the end is
met for ever. -/
structure Feed where
  events : List (Option Char)
deriving DecidableEq

namespace Feed

def ofText (text : String) : Feed :=
  { events := text.toList.map some }

def ofSegments (segments : List String) : Feed :=
  { events := [none].intercalate (segments.map fun text => text.toList.map some) }

def pull (feed : Feed) : Pull × Feed :=
  match feed.events with
  | [] => (.stop, feed)
  | none :: rest => (.stop, { events := rest })
  | some c :: rest => (.char c, { events := rest })

theorem count_add_length_pull (feed : Feed) :
    feed.pull.1.count + feed.pull.2.events.length ≤ feed.events.length := by
  obtain ⟨events⟩ := feed
  match events with
  | [] => simp [pull, Pull.count]
  | none :: rest => simp [pull, Pull.count]
  | some c :: rest => simp [pull, Pull.count, Nat.add_comm]

instance : Source Feed where
  pull := pull
  size feed := feed.events.length
  count_add_size_pull := count_add_length_pull

end Feed

end Netlist
