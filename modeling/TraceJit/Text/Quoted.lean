import TraceJit.Text.Hex
import TraceJit.Text.Printable

/-!
Text in double quotes as messages show it. Visible characters stand for themselves; the others
are written as a short escape where one exists and by their number otherwise.
-/

namespace TraceJit.Text

def escapeChar (c : Char) : String :=
  if c == '"' then "\\\""
  else if c == '\\' then "\\\\"
  else if isPrintable c then c.toString
  else match c.toNat with
    | 7 => "\\a"
    | 8 => "\\b"
    | 9 => "\\t"
    | 10 => "\\n"
    | 11 => "\\v"
    | 12 => "\\f"
    | 13 => "\\r"
    | n =>
      if n < 0x20 || n == 0x7F then "\\x" ++ padLeft '0' 2 (hex n)
      else if n < 0x10000 then "\\u" ++ padLeft '0' 4 (hex n)
      else "\\U" ++ padLeft '0' 8 (hex n)

/-- `s` in double quotes, with everything that is not visible escaped. -/
def quoted (s : String) : String :=
  "\"" ++ String.join (s.toList.map escapeChar) ++ "\""

def quotedChar (c : Char) : String :=
  let inner :=
    if c.toNat = 39 then "\\'"
    else if c == '"' then "\""
    else escapeChar c
  "'" ++ inner ++ "'"

end TraceJit.Text
