import RehashChart.Png.Bytes
import RehashChart.Png.Checksum

/-! # Data stored as it is -/

namespace RehashChart.Png

def maxBlock : Nat := 65535

/-- A block: whether it is the last one, its length twice, the second time inverted, and its
bytes. -/
def block (isLast : Bool) (bytes : ByteArray) : ByteArray :=
  let size := UInt32.ofNat bytes.size
  ⟨#[if isLast then 1 else 0]⟩ ++ twoBytes size ++ twoBytes (size ^^^ 0xFFFF) ++ bytes

def blocks : List ByteArray → List ByteArray
  | [] => []
  | [last] => [block true last]
  | first :: rest => block false first :: blocks rest

def streamStart : ByteArray := ⟨#[0x78, 0x01]⟩

def pack (bytes : ByteArray) : ByteArray :=
  concat (streamStart :: blocks (chopFrom (maxBlock - 1) bytes 0)) ++ fourBytes (adler bytes)

end RehashChart.Png
