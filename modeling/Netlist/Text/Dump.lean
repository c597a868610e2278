import Netlist.Text.Quoted

set_option autoImplicit false

namespace Netlist

inductive Dump where
  | word (text : String)
  | quoted (text : String)
  | wrapped (name : String) (inner : Dump)
  | record (name : String) (fields : List (String × Dump))
  | list (items : List Dump)

namespace Dump

def number (n : Nat) : Dump :=
  .word n.repr

def optional : Option String -> Dump
  | none => .word "None"
  | some text => .wrapped "Some" (.quoted text)

mutual

def inline : Dump -> String
  | .word text => text
  | .quoted text => Text.quoted text
  | .wrapped name inner => name ++ "(" ++ inner.inline ++ ")"
  | .record name fields => name ++ " \x7b " ++ ", ".intercalate (inlineFields fields) ++ " \x7d"
  | .list items => "[" ++ ", ".intercalate (inlineItems items) ++ "]"

def inlineFields : List (String × Dump) -> List String
  | [] => []
  | (label, value) :: rest => (label ++ ": " ++ value.inline) :: inlineFields rest

def inlineItems : List Dump -> List String
  | [] => []
  | item :: rest => item.inline :: inlineItems rest

end

def margin (depth : Nat) : String :=
  String.ofList (List.replicate (4 * depth) ' ')

mutual

def indented (depth : Nat) : Dump -> String
  | .word text => text
  | .quoted text => Text.quoted text
  | .wrapped name inner =>
      name ++ "(\n" ++ margin (depth + 1) ++ inner.indented (depth + 1) ++ ",\n" ++
        margin depth ++ ")"
  | .record name fields =>
      name ++ " \x7b\n" ++ String.join (indentedFields (depth + 1) fields) ++ margin depth ++ "\x7d"
  | .list [] => "[]"
  | .list items =>
      "[\n" ++ String.join (indentedItems (depth + 1) items) ++ margin depth ++ "]"

def indentedFields (depth : Nat) : List (String × Dump) -> List String
  | [] => []
  | (label, value) :: rest =>
      (margin depth ++ label ++ ": " ++ value.indented depth ++ ",\n") :: indentedFields depth rest

def indentedItems (depth : Nat) : List Dump -> List String
  | [] => []
  | item :: rest => (margin depth ++ item.indented depth ++ ",\n") :: indentedItems depth rest

end

end Dump

end Netlist
