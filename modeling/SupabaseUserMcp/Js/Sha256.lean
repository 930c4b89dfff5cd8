import Mathlib.Data.Set.Function
import SupabaseUserMcp.Js.Text

/- The digest of `node:crypto`'s `createHash('sha256')`. Results are about any
   function to 32-byte strings; what one needs beyond the length, that no two of
   the messages it speaks of collide, it assumes by name. `sha256` is the
   standard's function, on 32-bit words as natural numbers: the instance at
   which those assumptions are tested. -/
namespace Js

/-- A hash function with 32-byte digests. -/
structure Sha256 where
  digest : Bytes → Bytes
  length_digest : ∀ message, (digest message).length = 32

attribute [simp] Sha256.length_digest

/-- No two different messages of a set share a digest. -/
def Sha256.CollisionFree (sha : Sha256) (messages : Set Bytes) : Prop :=
  Set.InjOn sha.digest messages

theorem Sha256.CollisionFree.mono {sha : Sha256} {small large : Set Bytes}
    (h : sha.CollisionFree large) (hsub : small ⊆ large) : sha.CollisionFree small :=
  Set.InjOn.mono hsub h

/-! The standard's function. -/

namespace Sha256

def word (n : ℕ) : ℕ := n % 0x100000000

def rotr (n x : ℕ) : ℕ := (x >>> n) ||| word (x <<< (32 - n))

def ch (x y z : ℕ) : ℕ := (x &&& y) ^^^ ((0xffffffff ^^^ x) &&& z)
def maj (x y z : ℕ) : ℕ := (x &&& y) ^^^ (x &&& z) ^^^ (y &&& z)
def bigSigma0 (x : ℕ) : ℕ := rotr 2 x ^^^ rotr 13 x ^^^ rotr 22 x
def bigSigma1 (x : ℕ) : ℕ := rotr 6 x ^^^ rotr 11 x ^^^ rotr 25 x
def smallSigma0 (x : ℕ) : ℕ := rotr 7 x ^^^ rotr 18 x ^^^ (x >>> 3)
def smallSigma1 (x : ℕ) : ℕ := rotr 17 x ^^^ rotr 19 x ^^^ (x >>> 10)

def roundConstants : List ℕ := [
  0x428a2f98, 0x71374491, 0xb5c0fbcf, 0xe9b5dba5, 0x3956c25b, 0x59f111f1, 0x923f82a4, 0xab1c5ed5,
  0xd807aa98, 0x12835b01, 0x243185be, 0x550c7dc3, 0x72be5d74, 0x80deb1fe, 0x9bdc06a7, 0xc19bf174,
  0xe49b69c1, 0xefbe4786, 0x0fc19dc6, 0x240ca1cc, 0x2de92c6f, 0x4a7484aa, 0x5cb0a9dc, 0x76f988da,
  0x983e5152, 0xa831c66d, 0xb00327c8, 0xbf597fc7, 0xc6e00bf3, 0xd5a79147, 0x06ca6351, 0x14292967,
  0x27b70a85, 0x2e1b2138, 0x4d2c6dfc, 0x53380d13, 0x650a7354, 0x766a0abb, 0x81c2c92e, 0x92722c85,
  0xa2bfe8a1, 0xa81a664b, 0xc24b8b70, 0xc76c51a3, 0xd192e819, 0xd6990624, 0xf40e3585, 0x106aa070,
  0x19a4c116, 0x1e376c08, 0x2748774c, 0x34b0bcb5, 0x391c0cb3, 0x4ed8aa4a, 0x5b9cca4f, 0x682e6ff3,
  0x748f82ee, 0x78a5636f, 0x84c87814, 0x8cc70208, 0x90befffa, 0xa4506ceb, 0xbef9a3f7, 0xc67178f2]

/-- The eight words of the hash value. -/
structure State where
  a : ℕ
  b : ℕ
  c : ℕ
  d : ℕ
  e : ℕ
  f : ℕ
  g : ℕ
  h : ℕ

def initial : State := ⟨0x6a09e667, 0xbb67ae85, 0x3c6ef372, 0xa54ff53a, 0x510e527f, 0x9b05688c,
  0x1f83d9ab, 0x5be0cd19⟩

/-- One round, with its constant and its schedule word. -/
def round (s : State) (kw : ℕ × ℕ) : State :=
  let t1 := s.h + bigSigma1 s.e + ch s.e s.f s.g + kw.1 + kw.2
  let t2 := bigSigma0 s.a + maj s.a s.b s.c
  ⟨word (t1 + t2), s.a, s.b, s.c, word (s.d + t1), s.e, s.f, s.g⟩

/-- The schedule grown by `n` words, latest first. -/
def grow : ℕ → List ℕ → List ℕ
  | 0, latest => latest
  | n + 1, latest =>
    grow n (word (smallSigma1 (latest.getD 1 0) + latest.getD 6 0 +
      smallSigma0 (latest.getD 14 0) + latest.getD 15 0) :: latest)

/-- The big-endian words of a block. -/
def words : Bytes → List ℕ
  | a :: b :: c :: d :: rest =>
    (((a.toNat * 256 + b.toNat) * 256 + c.toNat) * 256 + d.toNat) :: words rest
  | _ => []

def compress (s : State) (block : Bytes) : State :=
  let schedule := (grow 48 (words block).reverse).reverse
  let t := (roundConstants.zip schedule).foldl round s
  ⟨word (s.a + t.a), word (s.b + t.b), word (s.c + t.c), word (s.d + t.d), word (s.e + t.e),
    word (s.f + t.f), word (s.g + t.g), word (s.h + t.h)⟩

/-- The big-endian bytes of a word. -/
def wordBytes (w : ℕ) : Bytes :=
  [UInt8.ofNat (w >>> 24), UInt8.ofNat (w >>> 16), UInt8.ofNat (w >>> 8), UInt8.ofNat w]

def padding (length : ℕ) : Bytes :=
  (0x80 : UInt8) :: List.replicate ((119 - length % 64) % 64) (0 : UInt8) ++
    wordBytes (word ((8 * length) >>> 32)) ++ wordBytes (word (8 * length))

def blocks : ℕ → State → Bytes → State
  | 0, s, _ => s
  | n + 1, s, bytes => blocks n (compress s (bytes.take 64)) (bytes.drop 64)

def output (s : State) : Bytes :=
  wordBytes s.a ++ wordBytes s.b ++ wordBytes s.c ++ wordBytes s.d ++ wordBytes s.e ++
    wordBytes s.f ++ wordBytes s.g ++ wordBytes s.h

def hash (message : Bytes) : Bytes :=
  let padded := message ++ padding message.length
  output (blocks (padded.length / 64) initial padded)

end Sha256

/-- SHA-256. -/
def sha256 : Sha256 := ⟨Sha256.hash, fun _ => rfl⟩

end Js
