import Netlist.Text.Printable
import Netlist.Text.Extending

set_option autoImplicit false

namespace Netlist.Text

def hex (n : Nat) : String :=
  String.ofList (Nat.toDigits 16 n)

def escape (c : Char) : String :=
  match c with
  | '"' => "\\\""
  | '\\' => "\\\\"
  | '\t' => "\\t"
  | '\r' => "\\r"
  | '\n' => "\\n"
  | '\x00' => "\\0"
  | _ =>
      if isExtending c || !isPrintable c then "\\u\x7b" ++ hex c.toNat ++ "\x7d"
      else String.singleton c

def quoted (text : String) : String :=
  "\"" ++ String.join (text.toList.map escape) ++ "\""

end Netlist.Text
