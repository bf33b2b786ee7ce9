/-!
# The order of names

Names are ordered by their UTF-8 bytes, the first difference deciding.
-/

namespace TaskRelay.Text

def bytes (s : String) : List UInt8 := s.toUTF8.data.toList

/-- The first difference decides, and a proper beginning comes before its continuations. -/
def bytesBefore : List UInt8 → List UInt8 → Bool
  | _, [] => false
  | [], _ :: _ => true
  | a :: as, b :: bs => a.toNat < b.toNat || (a == b && bytesBefore as bs)

def before (s t : String) : Bool := bytesBefore (bytes s) (bytes t)

end TaskRelay.Text
