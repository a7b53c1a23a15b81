/-! SipHash with one round for each word and three at the end, under a key of zeros: a hash of any
number of bytes to 64 bits. -/

namespace Fabric.SipHash

/-- The four words that are mixed. -/
structure State where
  v0 : UInt64
  v1 : UInt64
  v2 : UInt64
  v3 : UInt64

def rotate (x n : UInt64) : UInt64 := x <<< n ||| x >>> (64 - n)

namespace State

def start : State := ⟨0x736f6d6570736575, 0x646f72616e646f6d, 0x6c7967656e657261, 0x7465646279746573⟩

/-- Both halves of the state are mixed, then crossed over. -/
def round (s : State) : State :=
  let v0 := s.v0 + s.v1
  let v1 := rotate s.v1 13 ^^^ v0
  let v2 := s.v2 + s.v3
  let v3 := rotate s.v3 16 ^^^ v2
  let w0 := rotate v0 32 + v3
  let w2 := v2 + v1
  ⟨w0, rotate v1 17 ^^^ w2, rotate w2 32, rotate v3 21 ^^^ w0⟩

def absorb (s : State) (word : UInt64) : State :=
  let s := { s with v3 := s.v3 ^^^ word }.round
  { s with v0 := s.v0 ^^^ word }

def finish (s : State) : UInt64 :=
  let s := { s with v2 := s.v2 ^^^ 0xff }.round.round.round
  s.v0 ^^^ s.v1 ^^^ s.v2 ^^^ s.v3

end State

/-- The word of at most eight bytes, the lowest first. -/
def littleEndian (bytes : List UInt8) : UInt64 := bytes.foldr (fun b w => w <<< 8 ||| b.toUInt64) 0

/-- Absorbs whole words, and last what remains, under the lowest byte of the length. -/
def absorbAll (length : Nat) (s : State) : List UInt8 → State
  | a :: b :: c :: d :: e :: f :: g :: h :: r =>
    absorbAll length (s.absorb (littleEndian [a, b, c, d, e, f, g, h])) r
  | r => s.absorb (length.toUInt64 <<< 56 ||| littleEndian r)

def hash (bytes : List UInt8) : UInt64 := (absorbAll bytes.length .start bytes).finish

end Fabric.SipHash
