import TraceJit.Text.Utf8

/-!
Texts as files store them. A file may hold any octets where a text belongs, and two texts are the
same only if their octets are; shown, octets without meaning become the replacement character.
-/

namespace TraceJit

/-- A text as a file stores it: octets, which need not be those of characters. -/
structure StoredText where
  octets : List UInt8 := []
  deriving DecidableEq, Repr, Inhabited

namespace StoredText

def ofString (s : String) : StoredText := ⟨Text.utf8 s⟩

/-- The characters to show. -/
def shown (t : StoredText) : String := Text.ofUtf8 t.octets

end StoredText

end TraceJit
