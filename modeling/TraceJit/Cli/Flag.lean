import TraceJit.Text.Numeral
import TraceJit.Text.Quoted

/-!
Flags on a command line. A long flag is a word behind two hyphens, with its value behind an equals
sign or in the next word; a switch needs no value. Switches may have a letter behind one hyphen as
a short form. Flags and arguments may be mixed, and two hyphens alone end the flags.
-/

namespace TraceJit.Cli

/-- What kind of value a flag has, and what the value does to the options. -/
inductive Setter (ω : Type) where
  | text (set : String → ω → ω)
  | truth (set : Bool → ω → ω)
  | integer (set : Int → ω → ω)
  | word32 (set : UInt32 → ω → ω)

structure Flag (ω : Type) where
  name : String
  setter : Setter ω
  /-- The short form of a switch. -/
  short : Option Char := none

/-- Why the flags of a command line could not be read. -/
inductive FlagError where
  /-- The word behind two hyphens has no name. -/
  | malformed (word : String)
  | unknown (name : String)
  /-- No switch has this letter, the first of `letters`. -/
  | unknownShort (letter : Char) (letters : String)
  | noValue (name : String)
  | badValue (value flag cause : String)
  deriving DecidableEq, Repr

/-- The wording of flags that could not be read. Of a letter beyond ASCII only the first octet is
shown, and that is the same for all of them. -/
def FlagError.message : FlagError → String
  | .malformed word => "bad flag syntax: " ++ word
  | .unknown name => "unknown flag: --" ++ name
  | .unknownShort letter letters =>
    "unknown shorthand flag: " ++
      Text.quotedChar (if letter.toNat < 0x80 then letter else Char.ofNat 0xC3) ++
      " in -" ++ letters
  | .noValue name => "flag needs an argument: --" ++ name
  | .badValue value flag cause =>
    "invalid argument " ++ Text.quoted value ++ " for " ++ Text.quoted flag ++ " flag: " ++ cause

def valueProblem (reader value : String) (fault : Text.NumeralFault) : String :=
  "strconv." ++ reader ++ ": parsing " ++ Text.quoted value ++ ": " ++ fault.message

def readTruth? (s : String) : Option Bool :=
  if ["1", "t", "T", "TRUE", "true", "True"].contains s then some true
  else if ["0", "f", "F", "FALSE", "false", "False"].contains s then some false
  else none

namespace Flag

variable {ω : Type}

def isSwitch (f : Flag ω) : Bool :=
  match f.setter with
  | .truth _ => true
  | _ => false

def title (f : Flag ω) : String :=
  match f.short with
  | none => "--" ++ f.name
  | some c => "-" ++ c.toString ++ ", --" ++ f.name

def set (f : Flag ω) (value : String) (o : ω) : Except FlagError ω :=
  let fail (reader : String) (fault : Text.NumeralFault) : Except FlagError ω :=
    .error (.badValue value f.title (valueProblem reader value fault))
  match f.setter with
  | .text set => .ok (set value o)
  | .truth set =>
    match readTruth? value with
    | some b => .ok (set b o)
    | none => fail "ParseBool" .badDigit
  | .integer set =>
    match Text.readMarkedSigned 64 value.toList with
    | .ok i => .ok (set i o)
    | .error e => fail "ParseInt" e
  | .word32 set =>
    match Text.readMarked 0xffffffff value.toList with
    | .ok n => .ok (set n.toUInt32 o)
    | .error e => fail "ParseUint" e

end Flag

variable {ω : Type}

/-- The flag that a word behind two hyphens names, and the value behind an equals sign. -/
def longFlag (flags : List (Flag ω)) (word : String) :
    Except FlagError (Flag ω × Option String) :=
  match word.toList.drop 2 with
  | [] => .error (.malformed word)
  | c :: cs =>
    if c == '-' || c == '=' then .error (.malformed word)
    else
      let name := String.ofList ((c :: cs).takeWhile (· != '='))
      match flags.find? (·.name == name) with
      | none => .error (.unknown name)
      | some f =>
        .ok (f, match (c :: cs).dropWhile (· != '=') with
          | [] => none
          | _ :: value => some (String.ofList value))

/-- The letters are a flag of a test run, which means nothing here. -/
def isTestFlag (letters : List Char) : Bool := "test.".toList.isPrefixOf letters

/-- Turn on the switches with the given letters; the last may have a value behind an equals
sign, and a flag of a test run ends them. -/
def setSwitches (flags : List (Flag ω)) : List Char → ω → Except FlagError ω
  | [], o => .ok o
  | c :: cs, o =>
    match isTestFlag (c :: cs), flags.find? (·.short == some c) with
    | true, _ => .ok o
    | false, none => .error (.unknownShort c (String.ofList (c :: cs)))
    | false, some f =>
      match cs with
      | '=' :: v :: vs => f.set (String.ofList (v :: vs)) o
      | cs =>
        match f.set "true" o with
        | .error e => .error e
        | .ok o => setSwitches flags cs o

/-- Read the words of a command line after options `o` and arguments `args` have been found. -/
def readWords (flags : List (Flag ω)) (o : ω) (args : List String) :
    List String → Except FlagError (ω × List String)
  | [] => .ok (o, args)
  | w :: rest =>
    if !w.startsWith "-" || w = "-" then readWords flags o (args ++ [w]) rest
    else if w = "--" then .ok (o, args ++ rest)
    else if w.startsWith "--" then
      match longFlag flags w with
      | .error e => .error e
      | .ok (f, some value) =>
        match f.set value o with
        | .error e => .error e
        | .ok o => readWords flags o args rest
      | .ok (f, none) =>
        if f.isSwitch then
          match f.set "true" o with
          | .error e => .error e
          | .ok o => readWords flags o args rest
        else
          match rest with
          | [] => .error (.noValue f.name)
          | value :: rest =>
            match f.set value o with
            | .error e => .error e
            | .ok o => readWords flags o args rest
    else
      match setSwitches flags (w.toList.drop 1) o with
      | .error e => .error e
      | .ok o => readWords flags o args rest

end TraceJit.Cli
