import TraceJit.Text.Hex

/-!
JSON text. Besides what JSON asks for, the characters that are special in web pages and the two
line separators of Unicode are escaped in strings.
-/

namespace TraceJit.Text

def jsonChar (c : Char) : String :=
  match c with
  | '"' => "\\\""
  | '\\' => "\\\\"
  | '\n' => "\\n"
  | '\r' => "\\r"
  | '\t' => "\\t"
  | c =>
    let n := c.toNat
    if n = 8 then "\\b"
    else if n = 12 then "\\f"
    else if n < 0x20 || c == '<' || c == '>' || c == '&' || n = 0x2028 || n = 0x2029 then
      "\\u" ++ padLeft '0' 4 (hex n)
    else c.toString

def jsonString (s : String) : String :=
  "\"" ++ String.join (s.toList.map jsonChar) ++ "\""

/-- Fields of a JSON object whose values are already written. -/
def jsonObject (fields : List (String × String)) : String :=
  "\x7b" ++ String.intercalate "," (fields.map fun (k, v) => jsonString k ++ ":" ++ v) ++ "\x7d"

/-- Written items between brackets, one to a line; the lines of the brackets are indented by
`depth` steps of two blanks and those of the items by one more. -/
def jsonBlock (opening closing : String) (depth : Nat) (items : List String) : String :=
  if items.isEmpty then opening ++ closing
  else
    let margin := "\n".pushn ' ' (2 * depth)
    opening ++ String.intercalate "," (items.map fun i => margin ++ "  " ++ i) ++ margin ++ closing

/-- A list over several lines. -/
def jsonList (depth : Nat) (items : List String) : String :=
  jsonBlock "[" "]" depth items

/-- An object over several lines. -/
def jsonFields (depth : Nat) (fields : List (String × String)) : String :=
  jsonBlock "\x7b" "\x7d" depth (fields.map fun (k, v) => jsonString k ++ ": " ++ v)

end TraceJit.Text
