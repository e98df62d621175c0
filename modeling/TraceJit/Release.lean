import TraceJit.Display.Paint

/-!
Which build of the program this is.
-/

namespace TraceJit

/-- A build: its version, and where and when it was made if that is known. -/
structure Release where
  version : String
  commit : String := ""
  date : String := ""
  deriving DecidableEq, Repr, Inhabited

namespace Release

/-- The build at hand. -/
def current : Release := { version := "0.1.0-dev" }

/-- `s` up to the first occurrence of `c`, and what stands behind it. -/
def cut (c : Char) (s : String) : String × Option String :=
  let cs := s.toList
  (String.ofList (cs.takeWhile (· != c)),
    match cs.dropWhile (· != c) with
    | [] => none
    | _ :: rest => some (String.ofList rest))

/-- The version with its three numbers painted. A version that does not have three numbers stays
plain; the last number takes in all that follows, up to the first hyphen. -/
def colored (r : Release) (color : Bool) : String :=
  let (core, suffix) := cut '-' r.version
  match cut '.' core with
  | (major, some rest) =>
    match cut '.' rest with
    | (minor, some patch) =>
      Paint.yellow.apply color major ++ "." ++ Paint.green.apply color minor ++ "." ++
        Paint.blue.apply color patch ++
        (match suffix with
          | none | some "" => ""
          | some s => "-" ++ s)
    | _ => r.version
  | _ => r.version

def line (r : Release) (color : Bool) : String :=
  "dexjit " ++ r.colored color ++
    (if r.commit = "" then "" else " (" ++ r.commit ++ ")") ++
    (if r.date = "" then "" else " built " ++ r.date)

end Release

end TraceJit
