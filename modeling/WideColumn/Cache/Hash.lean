/-!
The hash by which keys are spread over the shards of a cache: SipHash with one round for each word, three
at the end, and a key of zeros.
-/
namespace WideColumn

structure SipHash where
  v0 : UInt64
  v1 : UInt64
  v2 : UInt64
  v3 : UInt64

namespace SipHash

def rotate (x bits : UInt64) : UInt64 := x <<< bits ||| x >>> (64 - bits)

def round : SipHash → SipHash
  | ⟨v0, v1, v2, v3⟩ =>
    let v0 := v0 + v1
    let v2 := v2 + v3
    let v1 := rotate v1 13 ^^^ v0
    let v3 := rotate v3 16 ^^^ v2
    let v0 := rotate v0 32 + v3
    let v2 := v2 + v1
    ⟨v0, rotate v1 17 ^^^ v2, rotate v2 32, rotate v3 21 ^^^ v0⟩

/-- The constants are the text "somepseudorandomlygeneratedbytes". -/
def start : SipHash := ⟨0x736f6d6570736575, 0x646f72616e646f6d, 0x6c7967656e657261, 0x7465646279746573⟩

def absorb (s : SipHash) (word : UInt64) : SipHash :=
  let s := { s with v3 := s.v3 ^^^ word }.round
  { s with v0 := s.v0 ^^^ word }

/-- The least significant byte comes first. -/
def word (bytes : List UInt8) : UInt64 := bytes.foldr (fun b w => w <<< 8 ||| b.toUInt64) 0

/-- Eight bytes at a time. The length of the whole goes into the last word, with the bytes that are left. -/
def absorbAll (s : SipHash) (length : UInt64) : List UInt8 → SipHash
  | b0 :: b1 :: b2 :: b3 :: b4 :: b5 :: b6 :: b7 :: rest =>
    (s.absorb (word [b0, b1, b2, b3, b4, b5, b6, b7])).absorbAll length rest
  | rest => s.absorb (length <<< 56 ||| word rest)

def finish (s : SipHash) : UInt64 :=
  let s := { s with v2 := s.v2 ^^^ 0xff }.round.round.round
  s.v0 ^^^ s.v1 ^^^ s.v2 ^^^ s.v3

def hash (bytes : List UInt8) : UInt64 := (start.absorbAll (UInt64.ofNat bytes.length) bytes).finish

end SipHash

/-- Keys that have a hash, which is that of these bytes. -/
class Hashed (κ : Type u) where
  bytes : κ → List UInt8

@[irreducible]
def Hashed.hash {κ : Type u} [Hashed κ] (k : κ) : UInt64 := SipHash.hash (bytes k)

/-- A byte that no text has marks its end, so that texts in a row can be told apart. -/
instance : Hashed String := ⟨fun s => s.toUTF8.data.toList ++ [0xff]⟩

end WideColumn
