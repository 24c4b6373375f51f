import ArenaPeak.Text.Unprintable

/-!
The quoted form in which a symbol's text is shown for inspection: double quotes around it, a
backslash before a quote or a backslash, short escapes for the usual control characters, and the
code point in hexadecimal for every other character that cannot be seen.
-/

namespace ArenaPeak.Text

/-- The digits of a number in base sixteen, small letters. -/
def hex (n : Nat) : String :=
  String.ofList (Nat.toDigits 16 n)

def quotedChar (c : Char) : String :=
  if c = '\x00' then "\\0"
  else if c = '\t' then "\\t"
  else if c = '\n' then "\\n"
  else if c = '\r' then "\\r"
  else if c = '"' then "\\\""
  else if c = '\\' then "\\\\"
  else if isUnprintable c then "\\u\x7b" ++ hex c.toNat ++ "\x7d"
  else c.toString

def quoted (s : String) : String :=
  "\"" ++ String.join (s.toList.map quotedChar) ++ "\""

example : quoted "tab\tquote\" é" = "\"tab\\tquote\\\" é\"" := by decide +kernel
example : quoted "\x1b[0m\u0301" = "\"\\u\x7b1b\x7d[0m\\u\x7b301\x7d\"" := by decide +kernel

end ArenaPeak.Text
