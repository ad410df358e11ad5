/-! # UTF-8 text in bytes

A field or a settings file is text only if all of it is; the length of the longest valid part from
the start says where the first fault is.
-/

namespace RehashChart.Text

def validUpToFrom (bytes : ByteArray) (i : Nat) : Nat :=
  if i < bytes.size then
    match bytes.utf8DecodeChar? i with
    | none => i
    | some c => validUpToFrom bytes (i + c.utf8Size)
  else i
termination_by bytes.size - i
decreasing_by
  have := c.utf8Size_pos
  omega

def validUpTo (bytes : ByteArray) : Nat := validUpToFrom bytes 0

/-- The text that `bytes` are, or the length of their longest valid part. -/
def decode (bytes : ByteArray) : Except Nat String :=
  match String.fromUTF8? bytes with
  | some text => .ok text
  | none => .error (validUpTo bytes)

end RehashChart.Text
