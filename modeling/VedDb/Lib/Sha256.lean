import VedDb.Lib.LittleEndian

/-!
# SHA-256

The hash function, over words kept as natural numbers below `2 ^ 32` so that closed evaluations stay
cheap.  The message is padded to blocks of 64 bytes; each block is expanded to 64 words and mixed
into eight chaining values.
-/

namespace Sha256

open LittleEndian

def add (a b : Nat) : Nat := (a + b) % 2 ^ 32

def rotr (x n : Nat) : Nat := (x >>> n) ||| ((x <<< (32 - n)) % 2 ^ 32)

def complement (x : Nat) : Nat := 0xffffffff ^^^ x

def ch (x y z : Nat) : Nat := (x &&& y) ^^^ (complement x &&& z)

def maj (x y z : Nat) : Nat := (x &&& y) ^^^ (x &&& z) ^^^ (y &&& z)

/-- `Σ₀` and `Σ₁` of a round. -/
def bigSigma0 (x : Nat) : Nat := rotr x 2 ^^^ rotr x 13 ^^^ rotr x 22

def bigSigma1 (x : Nat) : Nat := rotr x 6 ^^^ rotr x 11 ^^^ rotr x 25

/-- `σ₀` and `σ₁` of the message schedule. -/
def smallSigma0 (x : Nat) : Nat := rotr x 7 ^^^ rotr x 18 ^^^ (x >>> 3)

def smallSigma1 (x : Nat) : Nat := rotr x 17 ^^^ rotr x 19 ^^^ (x >>> 10)

def roundConstants : List Nat :=
  [0x428a2f98, 0x71374491, 0xb5c0fbcf, 0xe9b5dba5, 0x3956c25b, 0x59f111f1, 0x923f82a4, 0xab1c5ed5,
   0xd807aa98, 0x12835b01, 0x243185be, 0x550c7dc3, 0x72be5d74, 0x80deb1fe, 0x9bdc06a7, 0xc19bf174,
   0xe49b69c1, 0xefbe4786, 0x0fc19dc6, 0x240ca1cc, 0x2de92c6f, 0x4a7484aa, 0x5cb0a9dc, 0x76f988da,
   0x983e5152, 0xa831c66d, 0xb00327c8, 0xbf597fc7, 0xc6e00bf3, 0xd5a79147, 0x06ca6351, 0x14292967,
   0x27b70a85, 0x2e1b2138, 0x4d2c6dfc, 0x53380d13, 0x650a7354, 0x766a0abb, 0x81c2c92e, 0x92722c85,
   0xa2bfe8a1, 0xa81a664b, 0xc24b8b70, 0xc76c51a3, 0xd192e819, 0xd6990624, 0xf40e3585, 0x106aa070,
   0x19a4c116, 0x1e376c08, 0x2748774c, 0x34b0bcb5, 0x391c0cb3, 0x4ed8aa4a, 0x5b9cca4f, 0x682e6ff3,
   0x748f82ee, 0x78a5636f, 0x84c87814, 0x8cc70208, 0x90befffa, 0xa4506ceb, 0xbef9a3f7, 0xc67178f2]

/-- The eight chaining values. -/
structure Chain where
  a : Nat
  b : Nat
  c : Nat
  d : Nat
  e : Nat
  f : Nat
  g : Nat
  h : Nat
  deriving DecidableEq

def Chain.initial : Chain :=
  ⟨0x6a09e667, 0xbb67ae85, 0x3c6ef372, 0xa54ff53a, 0x510e527f, 0x9b05688c, 0x1f83d9ab, 0x5be0cd19⟩

def Chain.round (s : Chain) (k w : Nat) : Chain :=
  let t₁ := add s.h (add (bigSigma1 s.e) (add (ch s.e s.f s.g) (add k w)))
  let t₂ := add (bigSigma0 s.a) (maj s.a s.b s.c)
  ⟨add t₁ t₂, s.a, s.b, s.c, add s.d t₁, s.e, s.f, s.g⟩

def Chain.plus (s t : Chain) : Chain :=
  ⟨add s.a t.a, add s.b t.b, add s.c t.c, add s.d t.d, add s.e t.e, add s.f t.f, add s.g t.g,
    add s.h t.h⟩

/-- The rounds of a block.  `window` holds the sixteen words from the current one on; behind the
last constants the words that are appended to it are not used any more. -/
def Chain.rounds : List Nat → List Nat → Chain → Chain
  | k :: ks, w :: window, s =>
    let next := add (smallSigma1 (window.getD 13 0))
      (add (window.getD 8 0) (add (smallSigma0 (window.getD 0 0)) w))
    rounds ks (window ++ [next]) (s.round k w)
  | _, _, s => s

def Chain.compress (s : Chain) (block : List Nat) : Chain :=
  s.plus (s.rounds roundConstants block)

/-- A big-endian word of four bytes. -/
def word (bytes : Bytes) : Nat := bytes.foldl (fun n b => 256 * n + b.toNat) 0

/-- The message with a one bit, zeros and its length in bits. -/
def pad (message : Bytes) : Bytes :=
  let zeros := (119 - message.length % 64) % 64
  message ++ 0x80 :: (List.replicate zeros 0 ++ (leBytes 8 (8 * message.length)).reverse)

/-- Words of four bytes, `n` of them. -/
def words : Nat → Bytes → List Nat
  | 0, _ => []
  | n + 1, bytes => word (bytes.take 4) :: words n (bytes.drop 4)

def blocks : Nat → Bytes → Chain → Chain
  | 0, _, s => s
  | n + 1, bytes, s => blocks n (bytes.drop 64) (s.compress (words 16 (bytes.take 64)))

def Chain.digest (s : Chain) : Bytes :=
  [s.a, s.b, s.c, s.d, s.e, s.f, s.g, s.h].flatMap fun w => (leBytes 4 w).reverse

def hash (message : Bytes) : Bytes :=
  let padded := pad message
  (blocks (padded.length / 64) padded .initial).digest

theorem length_hash (message : Bytes) : (hash message).length = 32 := by
  simp [hash, Chain.digest]

-- The test vector `abc`, by its first and last words.
example : (hash [97, 98, 99]).take 4 = [0xba, 0x78, 0x16, 0xbf] ∧
    (hash [97, 98, 99]).drop 28 = [0xf2, 0x00, 0x15, 0xad] := by
  decide +kernel

end Sha256
