import RehashChart.Png.Bits

/-! # Code books

Of the codewords of one length, the lower one stands for the lower symbol, and they come before all
longer ones; so the lengths of the codewords are all that has to be written of a code book.
-/

namespace RehashChart.Png

def maxCodeword : Nat := 15

/-- How many codewords there are of the lengths from one on, and the symbols in the order of their
codewords. -/
structure CodeBook where
  counts : List Nat
  symbols : Array Nat

/-- The code book in which the symbols from zero on have codewords of the given lengths; a symbol
with the length zero has none. -/
def CodeBook.ofLengths (lengths : List Nat) : CodeBook where
  counts := (List.range maxCodeword).map fun l => lengths.count (l + 1)
  symbols :=
    ((List.range maxCodeword).flatMap fun l =>
      (lengths.zipIdx.filter fun (length, _) => length = l + 1).map (·.2)).toArray

/-- How many codewords of the greatest length more there could be, or if negative, how many there
are too many. -/
def CodeBook.spare (book : CodeBook) : Int :=
  book.counts.foldl (fun (spare : Int) (count : Nat) => 2 * spare - count) 1

def CodeBook.isComplete (book : CodeBook) : Bool := book.spare = 0

/-- Whether there are no two codewords, and none of two bits. -/
def CodeBook.isSingle (book : CodeBook) : Bool := 0 < book.spare && book.counts.tail.all (· = 0)

/-- The symbol of a codeword and where it ends. Of the codewords as long as the bits so far, `first`
is the lowest, and its symbol is the one at `index`. -/
def CodeBook.findFrom? (book : CodeBook) (bytes : ByteArray) :
    List Nat → Nat → Nat → Nat → Nat → Option (Nat × Nat)
  | [], _, _, _, _ => none
  | count :: counts, code, first, index, p =>
      let code := 2 * code + bitAt bytes p
      let first := 2 * first
      if code < first + count then book.symbols[index + (code - first)]?.map (·, p + 1)
      else findFrom? book bytes counts code (first + count) (index + count) (p + 1)

/-- The symbol of the codeword that starts at a bit, and where it ends, which may be beyond the end
of the data. -/
def CodeBook.find? (book : CodeBook) (bytes : ByteArray) (p : Nat) : Option (Nat × Nat) :=
  book.findFrom? bytes book.counts 0 0 0 p

/-! ## Code books in data -/

/-- The order in which the lengths of the codewords for lengths are written. -/
def lengthOrder : List Nat := [16, 17, 18, 0, 8, 7, 9, 6, 10, 5, 11, 4, 12, 3, 13, 2, 14, 1, 15]

def readShortLengths : List Nat → BitReader (List (Nat × Nat))
  | [] => fun _ p => .ok ([], p)
  | symbol :: symbols => fun bytes p => do
      let (length, p) ← readBits 3 bytes p
      let (rest, p) ← readShortLengths symbols bytes p
      return ((symbol, length) :: rest, p)

/-- The symbols that stand for several lengths: how many, at least, and the number of bits that say
how many more. -/
def repeatOf : Nat → Nat × Nat
  | 16 => (3, 2)
  | 17 => (3, 3)
  | _ => (11, 7)

/-- The most bits of a codeword for lengths. A length is not read before as many bits are there. -/
def lengthBits : Nat := 7

/-- Reads lengths until there are as many as there should be. The symbol 16 stands for the last
length several times, and those after it for zeros. -/
def readLengths (book : CodeBook) (total : Nat) (bytes : ByteArray) :
    Nat → Nat → Array Nat → Except Stop (Array Nat × Nat)
  | 0, _, _ => .error .short
  | fuel + 1, p, found =>
      if total ≤ found.size then .ok (found, p)
      else if 8 * bytes.size < p + lengthBits then .error .short
      else
        match book.find? bytes p with
        | none => .error .faulty
        | some (symbol, p) =>
            if symbol < 16 then readLengths book total bytes fuel p (found.push symbol)
            else
              let (least, count) := repeatOf symbol
              match readBits count bytes p with
              | .error stop => .error stop
              | .ok (more, p) =>
                  let length? := if symbol = 16 then found.back? else some 0
                  match length? with
                  | none => .error .faulty
                  | some length =>
                      if total < found.size + (least + more) then .error .faulty
                      else
                        readLengths book total bytes fuel p
                          (found ++ Array.replicate (least + more) length)

def maxLetters : Nat := 286
def maxDistances : Nat := 30

/-- The symbol for the end of a block; the lower ones are bytes, the higher ones copies. -/
def endSymbol : Nat := 256

/-- The code books of a block by the lengths in it. The end of the block has a codeword, the
letters have a complete book, and so have the distances, unless there is at most one. -/
def codeBooksOf (letters distances : List Nat) : Except Stop (CodeBook × CodeBook) :=
  let books := (CodeBook.ofLengths letters, CodeBook.ofLengths distances)
  if letters.getD endSymbol 0 = 0 || !books.1.isComplete ||
      !(books.2.isComplete || books.2.isSingle) then
    .error .faulty
  else .ok books

def readCodeBooks : BitReader (CodeBook × CodeBook) := fun bytes p => do
  let (moreLetters, p) ← readBits 5 bytes p
  let (moreDistances, p) ← readBits 5 bytes p
  let (moreLengths, p) ← readBits 4 bytes p
  let letterCount := moreLetters + 257
  let distanceCount := moreDistances + 1
  if maxLetters < letterCount ∨ maxDistances < distanceCount then throw .faulty
  let (short, p) ← readShortLengths (lengthOrder.take (moreLengths + 4)) bytes p
  let book := CodeBook.ofLengths ((List.range 19).map fun symbol => (short.lookup symbol).getD 0)
  if !book.isComplete then throw .faulty
  let total := letterCount + distanceCount
  let (lengths, p) ← readLengths book total bytes (total + 1) p #[]
  let lengths := lengths.toList
  let books ← codeBooksOf (lengths.take letterCount) (lengths.drop letterCount)
  return (books, p)

end RehashChart.Png
