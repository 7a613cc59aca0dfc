import Troupe.Text.Hidden

/-!
# Visible characters

`Text.visible` puts a text in double quotes and replaces every character that would not show by an escape.
-/

namespace Troupe.Text

def isVisible (c : Char) : Bool := !hidden.holds c.toNat

def hex (n : Nat) : String := String.ofList (Nat.toDigits 16 n)

def visibleChar (c : Char) : String :=
  if c = '"' then "\\\""
  else if c = '\\' then "\\\\"
  else if c = '\n' then "\\n"
  else if c = '\r' then "\\r"
  else if c = '\t' then "\\t"
  else if c.toNat = 0 then "\\0"
  else if c = ' ' || isVisible c then c.toString
  else "\\u\x7b" ++ hex c.toNat ++ "\x7d"

/-- A text in double quotes, every character visible. -/
def visible (s : String) : String := "\"" ++ String.join (s.toList.map visibleChar) ++ "\""

/-- Texts in brackets, each in double quotes with every character visible. -/
def visibleList (texts : List String) : String := "[" ++ ", ".intercalate (texts.map visible) ++ "]"

end Troupe.Text
