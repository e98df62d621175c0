import TraceJit.Text.Numeral

/-!
Texts of the TOML format: in double quotes with escapes or in single quotes without, on one line
or, between three quotes, on several. Readers take characters from the front and give back the
rest.
-/

namespace TraceJit.Toml

def isGap (c : Char) : Bool := c == ' ' || c == '\t'

def isLineEnd (c : Char) : Bool := c == '\n' || c == '\r'

def escapedChar? (digits : List Char) : Option Char :=
  match Text.readDigits 16 0xffffffff digits with
  | .ok n => if n.isValidChar then some (Char.ofNat n) else none
  | .error _ => none

def shortEscape? : Char → Option Char
  | 'b' => some '\x08'
  | 't' => some '\t'
  | 'n' => some '\n'
  | 'f' => some '\x0c'
  | 'r' => some '\r'
  | '"' => some '"'
  | '\\' => some '\\'
  | _ => none

/-- Replace the escapes of a text. A backslash in front of a line end, with nothing but blanks
between, hides all blanks and line ends that follow; `hushed` says that this goes on. -/
def unescape (hushed : Bool) : List Char → Option (List Char)
  | [] => some []
  | '\\' :: 'u' :: a :: b :: c :: d :: rest => do
    let ch ← escapedChar? [a, b, c, d]
    return ch :: (← unescape false rest)
  | '\\' :: 'U' :: a :: b :: c :: d :: e :: f :: g :: h :: rest => do
    let ch ← escapedChar? [a, b, c, d, e, f, g, h]
    return ch :: (← unescape false rest)
  | '\\' :: c :: rest =>
    if ((c :: rest).takeWhile fun c => isGap c || isLineEnd c).contains '\n' then
      unescape true rest
    else do
      let ch ← shortEscape? c
      return ch :: (← unescape false rest)
  | c :: rest =>
    if c == '\\' then none
    else if hushed && (isGap c || isLineEnd c) then unescape true rest
    else do return c :: (← unescape false rest)

/-- The characters up to the closing double quote, escapes untouched. -/
def basicRaw : List Char → Option (List Char × List Char)
  | [] => none
  | '"' :: rest => some ([], rest)
  | '\\' :: c :: rest =>
    if isLineEnd c then none
    else (basicRaw rest).map fun (raw, rest) => ('\\' :: c :: raw, rest)
  | c :: rest =>
    if isLineEnd c then none else (basicRaw rest).map fun (raw, rest) => (c :: raw, rest)

/-- A text in double quotes, the opening one of which has been read. -/
def basicText (cs : List Char) : Option (String × List Char) := do
  let (raw, rest) ← basicRaw cs
  return (String.ofList (← unescape false raw), rest)

/-- A text in single quotes, the opening one of which has been read. -/
def literalText (cs : List Char) : Option (String × List Char) :=
  let raw := cs.takeWhile (· != '\'')
  if raw.any isLineEnd then none
  else match cs.drop raw.length with
    | _ :: rest => some (String.ofList raw, rest)
    | [] => none

/-- Five quotes end the characters `seen`, latest first, and no backslash stands before them. -/
def fiveQuotes (quote : Char) (escapes : Bool) (seen : List Char) : Bool :=
  (seen.take 5) == List.replicate 5 quote && !(escapes && seen[5]? == some '\\')

/-- The characters up to the closing three quotes, escapes untouched. Up to two more quotes in
front of the closing ones belong to the text. `escaped` says that a backslash comes directly
before, and `seen` has what was read so far, latest first. -/
def longRaw (quote : Char) (escapes escaped : Bool) (seen : List Char) :
    List Char → Option (List Char × List Char)
  | [] => none
  | c :: rest =>
    if escaped then longRaw quote escapes false (c :: seen) rest
    else if c == '\\' && escapes then longRaw quote escapes true (c :: seen) rest
    else if c == quote && rest.take 2 == [quote, quote] then
      if rest[2]? == some quote then
        if fiveQuotes quote escapes (quote :: quote :: quote :: seen) then none
        else longRaw quote escapes false (c :: seen) rest
      else some (seen.reverse, rest.drop 2)
    else longRaw quote escapes false (c :: seen) rest

/-- A text without the line end that it may begin with. -/
def dropFirstLineEnd : List Char → List Char
  | '\n' :: rest => rest
  | '\r' :: '\n' :: rest => rest
  | cs => cs

/-- A text in three double quotes, the opening ones of which have been read. -/
def longBasicText (cs : List Char) : Option (String × List Char) := do
  let (raw, rest) ← longRaw '"' true false [] cs
  return (String.ofList (← unescape false (dropFirstLineEnd raw)), rest)

/-- A text in three single quotes, the opening ones of which have been read. -/
def longLiteralText (cs : List Char) : Option (String × List Char) := do
  let (raw, rest) ← longRaw '\'' false false [] cs
  return (String.ofList (dropFirstLineEnd raw), rest)

end TraceJit.Toml
