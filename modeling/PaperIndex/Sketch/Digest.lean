/-! # The digest of a member

SHA-256 of the bytes of a text, of which the sketches use the first 64 bits. The message is padded
to blocks of sixteen words; each block is mixed into eight chaining words in 64 rounds. -/

namespace PaperIndex.Sketch.Digest

/-- The round constants: the first 32 fraction bits of the cube roots of the first 64 primes. -/
def roundConstants : List UInt32 := [
  0x428a2f98, 0x71374491, 0xb5c0fbcf, 0xe9b5dba5, 0x3956c25b, 0x59f111f1, 0x923f82a4, 0xab1c5ed5,
  0xd807aa98, 0x12835b01, 0x243185be, 0x550c7dc3, 0x72be5d74, 0x80deb1fe, 0x9bdc06a7, 0xc19bf174,
  0xe49b69c1, 0xefbe4786, 0x0fc19dc6, 0x240ca1cc, 0x2de92c6f, 0x4a7484aa, 0x5cb0a9dc, 0x76f988da,
  0x983e5152, 0xa831c66d, 0xb00327c8, 0xbf597fc7, 0xc6e00bf3, 0xd5a79147, 0x06ca6351, 0x14292967,
  0x27b70a85, 0x2e1b2138, 0x4d2c6dfc, 0x53380d13, 0x650a7354, 0x766a0abb, 0x81c2c92e, 0x92722c85,
  0xa2bfe8a1, 0xa81a664b, 0xc24b8b70, 0xc76c51a3, 0xd192e819, 0xd6990624, 0xf40e3585, 0x106aa070,
  0x19a4c116, 0x1e376c08, 0x2748774c, 0x34b0bcb5, 0x391c0cb3, 0x4ed8aa4a, 0x5b9cca4f, 0x682e6ff3,
  0x748f82ee, 0x78a5636f, 0x84c87814, 0x8cc70208, 0x90befffa, 0xa4506ceb, 0xbef9a3f7, 0xc67178f2]

/-- The eight chaining words. -/
structure Chain where
  a : UInt32
  b : UInt32
  c : UInt32
  d : UInt32
  e : UInt32
  f : UInt32
  g : UInt32
  h : UInt32

/-- The chaining words before the first block: the first 32 fraction bits of the square roots of
the first eight primes. -/
def Chain.start : Chain :=
  ⟨0x6a09e667, 0xbb67ae85, 0x3c6ef372, 0xa54ff53a, 0x510e527f, 0x9b05688c, 0x1f83d9ab, 0x5be0cd19⟩

/-- Turns a word to the right by `n` bits, for `0 < n < 32`. -/
def turn (x : UInt32) (n : UInt32) : UInt32 := (x >>> n) ||| (x <<< (32 - n))

/-- One round with its constant and its schedule word. -/
def Chain.round (s : Chain) (k w : UInt32) : Chain :=
  let choice := (s.e &&& s.f) ^^^ ((~~~s.e) &&& s.g)
  let t₁ := s.h + (turn s.e 6 ^^^ turn s.e 11 ^^^ turn s.e 25) + choice + k + w
  let majority := (s.a &&& s.b) ^^^ (s.a &&& s.c) ^^^ (s.b &&& s.c)
  let t₂ := (turn s.a 2 ^^^ turn s.a 13 ^^^ turn s.a 22) + majority
  ⟨t₁ + t₂, s.a, s.b, s.c, s.d + t₁, s.e, s.f, s.g⟩

/-- The chaining words after a block, from those before it and those after its rounds. -/
def Chain.add (s t : Chain) : Chain :=
  ⟨s.a + t.a, s.b + t.b, s.c + t.c, s.d + t.d, s.e + t.e, s.f + t.f, s.g + t.g, s.h + t.h⟩

/-- The next word of the schedule after the words so far. -/
def nextWord (w : Array UInt32) : UInt32 :=
  let back (n : Nat) : UInt32 := w.getD (w.size - n) 0
  let x := back 15
  let y := back 2
  back 16 + (turn x 7 ^^^ turn x 18 ^^^ (x >>> 3)) + back 7 +
    (turn y 17 ^^^ turn y 19 ^^^ (y >>> 10))

/-- The sixteen words of a block, followed by `n` words made from them. -/
def extend (w : Array UInt32) : Nat → Array UInt32
  | 0 => w
  | n + 1 => extend (w.push (nextWord w)) n

/-- The big-endian word at a place among the bytes. -/
def wordAt (bytes : ByteArray) (i : Nat) : UInt32 :=
  let byte (j : Nat) : UInt32 := if h : i + j < bytes.size then bytes[i + j].toUInt32 else 0
  (byte 0 <<< 24) ||| (byte 1 <<< 16) ||| (byte 2 <<< 8) ||| byte 3

/-- The words of the block that starts at a place among the bytes. -/
def blockAt (bytes : ByteArray) (start : Nat) : Array UInt32 :=
  (Array.range 16).map fun i => wordAt bytes (start + 4 * i)

/-- Mixes a block into the chaining words. -/
def Chain.mix (s : Chain) (block : Array UInt32) : Chain :=
  let words := (extend block 48).toList
  s.add ((roundConstants.zip words).foldl (fun t kw => t.round kw.1 kw.2) s)

/-- The message, a one bit, zeros up to a whole number of blocks, and the length in bits. -/
def padded (message : ByteArray) : ByteArray :=
  let zeros := (119 - message.size % 64) % 64
  let bits := 8 * message.size
  let withOne := message.push 0x80
  let withZeros := zeros.fold (fun _ _ bytes => bytes.push 0) withOne
  let byte (i : Nat) : UInt8 := (bits / Nat.pow 256 (7 - i) % 256).toUInt8
  (List.range 8).foldl (fun bytes i => bytes.push (byte i)) withZeros

/-- The chaining words after a whole message. -/
def chain (message : ByteArray) : Chain :=
  let bytes := padded message
  (List.range (bytes.size / 64)).foldl (fun s i => s.mix (blockAt bytes (64 * i))) .start

end PaperIndex.Sketch.Digest

namespace PaperIndex.Sketch

/-- The first 64 bits of the SHA-256 of a text. -/
def hashOf (member : String) : UInt64 :=
  let s := Digest.chain member.toUTF8
  (s.a.toUInt64 <<< 32) ||| s.b.toUInt64

end PaperIndex.Sketch
