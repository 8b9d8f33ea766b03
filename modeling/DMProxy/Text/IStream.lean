import DMProxy.Text.Bytes

/-!
# Formatted input from a stream buffer

The three extractions the program applies to a `std::istream` over a stream buffer.
Each returns what it extracted and the bytes left in the buffer; `none` sets the fail
bit, after which every later extraction fails too.
-/

namespace DMProxy.Text

/-- `stream >> word`: skip white space and read up to the next white space. -/
def readWord (buffer : Bytes) : Option (Bytes × Bytes) :=
  let skipped := buffer.dropWhile isSpace
  let word := skipped.takeWhile fun byte => !isSpace byte
  if word.isEmpty then none
  else some (word, skipped.dropWhile fun byte => !isSpace byte)

/-- The value of a run of decimal digits. -/
def digitsValue (digits : Bytes) : Nat :=
  digits.foldl (fun value digit => 10 * value + (digit.toNat - 48)) 0

/-- `stream >> number` for an `unsigned`: an optional sign and decimal digits.  A
negative number wraps around, a number out of range fails. -/
def readUnsigned (buffer : Bytes) : Option (Nat × Bytes) :=
  let skipped := buffer.dropWhile isSpace
  let negative := skipped.head? = some 45
  let unsigned := if negative ∨ skipped.head? = some 43 then skipped.tail else skipped
  let digits := unsigned.takeWhile fun byte => 48 ≤ byte && byte ≤ 57
  let value := digitsValue digits
  if digits.isEmpty ∨ unsignedRange ≤ value then none
  else
    some (if negative then (unsignedRange - value) % unsignedRange else value,
      unsigned.dropWhile fun byte => 48 ≤ byte && byte ≤ 57)

/-- `std::getline`: extract up to and including the next line feed.  It fails on an
empty buffer. -/
def getLine (buffer : Bytes) : Option (Bytes × Bytes) :=
  if buffer.isEmpty then none
  else
    some (buffer.takeWhile (· != 10), (buffer.dropWhile (· != 10)).drop 1)

end DMProxy.Text
