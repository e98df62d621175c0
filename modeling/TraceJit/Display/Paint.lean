/-!
Coloured text on terminals.
-/

namespace TraceJit

/-- A way to paint text: the attributes that switch it on and those that switch it off. -/
structure Paint where
  on : String
  off : String
  deriving DecidableEq, Repr

namespace Paint

def red : Paint := ⟨"31;1", "0;22"⟩
def green : Paint := ⟨"32;1", "0;22"⟩
def yellow : Paint := ⟨"33;1", "0;22"⟩
def blue : Paint := ⟨"34;1", "0;22"⟩
def cyan : Paint := ⟨"36", "0"⟩
def faint : Paint := ⟨"2", "22"⟩

/-- Paint a text, if colours are shown at all. -/
def apply (p : Paint) (colored : Bool) (s : String) : String :=
  if colored then "\x1b[" ++ p.on ++ "m" ++ s ++ "\x1b[" ++ p.off ++ "m" else s

end Paint

end TraceJit
