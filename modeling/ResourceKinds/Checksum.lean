namespace ResourceKinds

structure Checksum where
  hex : String
deriving DecidableEq

namespace Checksum

/-- The fractional parts of the cube roots of the first 64 primes. -/
def roundConstants : List UInt32 := [
  0x428a2f98, 0x71374491, 0xb5c0fbcf, 0xe9b5dba5, 0x3956c25b, 0x59f111f1, 0x923f82a4, 0xab1c5ed5,
  0xd807aa98, 0x12835b01, 0x243185be, 0x550c7dc3, 0x72be5d74, 0x80deb1fe, 0x9bdc06a7, 0xc19bf174,
  0xe49b69c1, 0xefbe4786, 0x0fc19dc6, 0x240ca1cc, 0x2de92c6f, 0x4a7484aa, 0x5cb0a9dc, 0x76f988da,
  0x983e5152, 0xa831c66d, 0xb00327c8, 0xbf597fc7, 0xc6e00bf3, 0xd5a79147, 0x06ca6351, 0x14292967,
  0x27b70a85, 0x2e1b2138, 0x4d2c6dfc, 0x53380d13, 0x650a7354, 0x766a0abb, 0x81c2c92e, 0x92722c85,
  0xa2bfe8a1, 0xa81a664b, 0xc24b8b70, 0xc76c51a3, 0xd192e819, 0xd6990624, 0xf40e3585, 0x106aa070,
  0x19a4c116, 0x1e376c08, 0x2748774c, 0x34b0bcb5, 0x391c0cb3, 0x4ed8aa4a, 0x5b9cca4f, 0x682e6ff3,
  0x748f82ee, 0x78a5636f, 0x84c87814, 0x8cc70208, 0x90befffa, 0xa4506ceb, 0xbef9a3f7, 0xc67178f2]

structure Digest where
  a : UInt32
  b : UInt32
  c : UInt32
  d : UInt32
  e : UInt32
  f : UInt32
  g : UInt32
  h : UInt32

/-- The fractional parts of the square roots of the first 8 primes. -/
def start : Digest :=
  ⟨0x6a09e667, 0xbb67ae85, 0x3c6ef372, 0xa54ff53a, 0x510e527f, 0x9b05688c, 0x1f83d9ab, 0x5be0cd19⟩

def rotate (x : UInt32) (n : UInt32) : UInt32 := (x >>> n) ||| (x <<< (32 - n))

/-- One word of the schedule from the sixteen before it, the latest first. -/
def nextWord (words : List UInt32) : UInt32 :=
  let word (back : Nat) : UInt32 := words.getD (back - 1) 0
  let low := word 15
  let high := word 2
  let s0 := rotate low 7 ^^^ rotate low 18 ^^^ (low >>> 3)
  let s1 := rotate high 17 ^^^ rotate high 19 ^^^ (high >>> 10)
  word 16 + s0 + word 7 + s1

/-- The schedule with more words, the latest first. -/
def extend : Nat → List UInt32 → List UInt32
  | 0, words => words
  | n + 1, words => extend n (nextWord words :: words)

def round (s : Digest) (constant word : UInt32) : Digest :=
  let s1 := rotate s.e 6 ^^^ rotate s.e 11 ^^^ rotate s.e 25
  let choice := (s.e &&& s.f) ^^^ (~~~s.e &&& s.g)
  let t1 := s.h + s1 + choice + constant + word
  let s0 := rotate s.a 2 ^^^ rotate s.a 13 ^^^ rotate s.a 22
  let majority := (s.a &&& s.b) ^^^ (s.a &&& s.c) ^^^ (s.b &&& s.c)
  ⟨t1 + s0 + majority, s.a, s.b, s.c, s.d + t1, s.e, s.f, s.g⟩

/-- The digest after a block of sixteen words. -/
def compress (s : Digest) (words : List UInt32) : Digest :=
  let schedule := (extend 48 words.reverse).reverse
  let t := (roundConstants.zip schedule).foldl (fun s (constant, word) => round s constant word) s
  ⟨s.a + t.a, s.b + t.b, s.c + t.c, s.d + t.d, s.e + t.e, s.f + t.f, s.g + t.g, s.h + t.h⟩

def bigEndian (width n : Nat) : List UInt8 :=
  (List.range width).reverse.map fun place => (n / Nat.pow 256 place % 256).toUInt8

/-- A one bit, zeros up to a multiple of 64 bytes, and the length in bits. -/
def padded (bytes : List UInt8) : List UInt8 :=
  bytes ++ 0x80 :: List.replicate ((119 - bytes.length % 64) % 64) 0 ++ bigEndian 8 (8 * bytes.length)

def toWords : List UInt8 → List UInt32
  | a :: b :: c :: d :: rest =>
    (a.toUInt32 <<< 24 ||| b.toUInt32 <<< 16 ||| c.toUInt32 <<< 8 ||| d.toUInt32) :: toWords rest
  | _ => []

/-- The digest after as many blocks as the words fill. -/
def digestBlocks : Nat → Digest → List UInt32 → Digest
  | 0, s, _ => s
  | blocks + 1, s, words => digestBlocks blocks (compress s (words.take 16)) (words.drop 16)

def digest (bytes : List UInt8) : Digest :=
  let words := toWords (padded bytes)
  digestBlocks (words.length / 16) start words

private def hexOf (word : UInt32) : String :=
  String.ofList ((List.range 8).reverse.map fun place =>
    let n := word.toNat / Nat.pow 16 place % 16
    if n < 10 then Char.ofNat (48 + n) else Char.ofNat (87 + n))

def ofText (text : String) : Checksum :=
  let s := digest text.toUTF8.toList
  ⟨String.join ([s.a, s.b, s.c, s.d, s.e, s.f, s.g, s.h].map hexOf)⟩

def verify (checksum : Checksum) (text : String) : Bool := ofText text = checksum

end Checksum

end ResourceKinds
