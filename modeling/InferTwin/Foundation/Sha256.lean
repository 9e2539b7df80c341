import Mathlib.Data.Nat.Notation

/-! SHA-256 over lists of bytes. The words are numbers below `2 ^ 32`. -/

namespace InferTwin.Sha256

def rotr (n word : ℕ) : ℕ := (word >>> n ||| word <<< (32 - n)) % 0x100000000

/-- `Σ₀` and `Σ₁`. -/
def mix (a b c word : ℕ) : ℕ := rotr a word ^^^ rotr b word ^^^ rotr c word

/-- `σ₀` and `σ₁`, whose last part is a shift. -/
def spread (a b c word : ℕ) : ℕ := rotr a word ^^^ rotr b word ^^^ word >>> c

/-- The working variables. -/
structure Words where
  a : ℕ
  b : ℕ
  c : ℕ
  d : ℕ
  e : ℕ
  f : ℕ
  g : ℕ
  h : ℕ

/-- The square roots of the first eight primes. -/
def initial : Words where
  a := 0x6a09e667
  b := 0xbb67ae85
  c := 0x3c6ef372
  d := 0xa54ff53a
  e := 0x510e527f
  f := 0x9b05688c
  g := 0x1f83d9ab
  h := 0x5be0cd19

/-- The cube roots of the first 64 primes. -/
def constants : List ℕ := [
  0x428a2f98, 0x71374491, 0xb5c0fbcf, 0xe9b5dba5, 0x3956c25b, 0x59f111f1, 0x923f82a4, 0xab1c5ed5,
  0xd807aa98, 0x12835b01, 0x243185be, 0x550c7dc3, 0x72be5d74, 0x80deb1fe, 0x9bdc06a7, 0xc19bf174,
  0xe49b69c1, 0xefbe4786, 0x0fc19dc6, 0x240ca1cc, 0x2de92c6f, 0x4a7484aa, 0x5cb0a9dc, 0x76f988da,
  0x983e5152, 0xa831c66d, 0xb00327c8, 0xbf597fc7, 0xc6e00bf3, 0xd5a79147, 0x06ca6351, 0x14292967,
  0x27b70a85, 0x2e1b2138, 0x4d2c6dfc, 0x53380d13, 0x650a7354, 0x766a0abb, 0x81c2c92e, 0x92722c85,
  0xa2bfe8a1, 0xa81a664b, 0xc24b8b70, 0xc76c51a3, 0xd192e819, 0xd6990624, 0xf40e3585, 0x106aa070,
  0x19a4c116, 0x1e376c08, 0x2748774c, 0x34b0bcb5, 0x391c0cb3, 0x4ed8aa4a, 0x5b9cca4f, 0x682e6ff3,
  0x748f82ee, 0x78a5636f, 0x84c87814, 0x8cc70208, 0x90befffa, 0xa4506ceb, 0xbef9a3f7, 0xc67178f2]

namespace Words

def add (s t : Words) : Words where
  a := (s.a + t.a) % 0x100000000
  b := (s.b + t.b) % 0x100000000
  c := (s.c + t.c) % 0x100000000
  d := (s.d + t.d) % 0x100000000
  e := (s.e + t.e) % 0x100000000
  f := (s.f + t.f) % 0x100000000
  g := (s.g + t.g) % 0x100000000
  h := (s.h + t.h) % 0x100000000

def round (constant word : ℕ) (s : Words) : Words :=
  let choice := s.e &&& s.f ^^^ (0xffffffff - s.e) &&& s.g
  let majority := s.a &&& s.b ^^^ s.a &&& s.c ^^^ s.b &&& s.c
  let t := s.h + mix 6 11 25 s.e + choice + constant + word
  { a := (t + (mix 2 13 22 s.a + majority)) % 0x100000000
    b := s.a
    c := s.b
    d := s.c
    e := (s.d + t) % 0x100000000
    f := s.e
    g := s.f
    h := s.g }

def toList (s : Words) : List ℕ := [s.a, s.b, s.c, s.d, s.e, s.f, s.g, s.h]

end Words

/-- The rounds of a block, with the next sixteen words of its message schedule. -/
def rounds : List ℕ → List ℕ → Words → Words
  | constant :: constants, word :: schedule, s =>
    let next := (word + spread 7 18 3 (schedule.getD 0 0) + schedule.getD 8 0 +
      spread 17 19 10 (schedule.getD 13 0)) % 0x100000000
    rounds constants (schedule ++ [next]) (s.round constant word)
  | _, _, s => s

/-- The compression of the blocks of a message, of which there are at most `count`. -/
def compress : ℕ → List ℕ → Words → Words
  | 0, _, s => s
  | _, [], s => s
  | count + 1, word :: words, s =>
    compress count ((word :: words).drop 16) (s.add (rounds constants ((word :: words).take 16) s))

def ofBytes : List UInt8 → List ℕ
  | a :: b :: c :: d :: bytes =>
    (a.toNat <<< 24 ||| b.toNat <<< 16 ||| c.toNat <<< 8 ||| d.toNat) :: ofBytes bytes
  | _ => []

def toBytes (word : ℕ) : List UInt8 :=
  [UInt8.ofNat (word >>> 24), UInt8.ofNat (word >>> 16), UInt8.ofNat (word >>> 8), UInt8.ofNat word]

/-- The message with its mark and its length in bits, in whole blocks of 64 bytes. -/
def pad (message : List UInt8) : List UInt8 :=
  message ++ 0x80 :: List.replicate ((119 - message.length % 64) % 64) 0 ++
    toBytes (message.length * 8 / 0x100000000) ++ toBytes (message.length * 8)

def digest (message : List UInt8) : List UInt8 :=
  (compress (message.length / 64 + 2) (ofBytes (pad message)) initial).toList.flatMap toBytes

theorem length_digest (message : List UInt8) : (digest message).length = 32 := rfl

example : digest "abc".toUTF8.toList = [
    0xba, 0x78, 0x16, 0xbf, 0x8f, 0x01, 0xcf, 0xea, 0x41, 0x41, 0x40, 0xde, 0x5d, 0xae, 0x22, 0x23,
    0xb0, 0x03, 0x61, 0xa3, 0x96, 0x17, 0x7a, 0x9c, 0xb4, 0x10, 0xff, 0x61, 0xf2, 0x00, 0x15, 0xad] :=
  by decide +kernel

end InferTwin.Sha256
