import SsrBackend.Foundation.Bytes

/-!
Functions of byte strings that are fixed by published standards: MD5, HMAC over
it, the ChaCha20 keystream and base64. They are given as executable definitions;
what is checked about them are the standards' own test values.
-/

namespace Digest

/-- The 32-bit words of a byte string, least significant byte first. -/
def words : List UInt8 → List UInt32
  | a :: b :: c :: d :: rest => UInt32.ofNat (leValue [a, b, c, d]) :: words rest
  | _ => []

def rotateLeft (x : UInt32) (n : Nat) : UInt32 :=
  (x <<< UInt32.ofNat n) ||| (x >>> UInt32.ofNat (32 - n))

section Md5

def md5Table : List UInt32 := [
  0xd76aa478, 0xe8c7b756, 0x242070db, 0xc1bdceee, 0xf57c0faf, 0x4787c62a, 0xa8304613, 0xfd469501,
  0x698098d8, 0x8b44f7af, 0xffff5bb1, 0x895cd7be, 0x6b901122, 0xfd987193, 0xa679438e, 0x49b40821,
  0xf61e2562, 0xc040b340, 0x265e5a51, 0xe9b6c7aa, 0xd62f105d, 0x02441453, 0xd8a1e681, 0xe7d3fbc8,
  0x21e1cde6, 0xc33707d6, 0xf4d50d87, 0x455a14ed, 0xa9e3e905, 0xfcefa3f8, 0x676f02d9, 0x8d2a4c8a,
  0xfffa3942, 0x8771f681, 0x6d9d6122, 0xfde5380c, 0xa4beea44, 0x4bdecfa9, 0xf6bb4b60, 0xbebfbc70,
  0x289b7ec6, 0xeaa127fa, 0xd4ef3085, 0x04881d05, 0xd9d4d039, 0xe6db99e5, 0x1fa27cf8, 0xc4ac5665,
  0xf4292244, 0x432aff97, 0xab9423a7, 0xfc93a039, 0x655b59c3, 0x8f0ccc92, 0xffeff47d, 0x85845dd1,
  0x6fa87e4f, 0xfe2ce6e0, 0xa3014314, 0x4e0811a1, 0xf7537e82, 0xbd3af235, 0x2ad7d2bb, 0xeb86d391]

structure Md5State where
  a : UInt32
  b : UInt32
  c : UInt32
  d : UInt32

def md5Init : Md5State := ⟨0x67452301, 0xefcdab89, 0x98badcfe, 0x10325476⟩

/-- The shift amounts of the four rounds, each used in turn. -/
def md5Shift (i : Nat) : Nat :=
  (([[7, 12, 17, 22], [5, 9, 14, 20], [4, 11, 16, 23], [6, 10, 15, 21]] : List (List Nat)).getD
    (i / 16) []).getD (i % 4) 0

/-- The Boolean function of step `i` and the word it takes in. -/
def md5Mix (s : Md5State) (i : Nat) : UInt32 × Nat :=
  if i < 16 then ((s.b &&& s.c) ||| (~~~s.b &&& s.d), i)
  else if i < 32 then ((s.d &&& s.b) ||| (~~~s.d &&& s.c), (5 * i + 1) % 16)
  else if i < 48 then (s.b ^^^ s.c ^^^ s.d, (3 * i + 5) % 16)
  else (s.c ^^^ (s.b ||| ~~~s.d), (7 * i) % 16)

def md5Step (block : List UInt32) (s : Md5State) (i : Nat) : Md5State :=
  let f := (md5Mix s i).1 + s.a + md5Table.getD i 0 + block.getD (md5Mix s i).2 0
  ⟨s.d, s.b + rotateLeft f (md5Shift i), s.b, s.c⟩

def md5Block (s : Md5State) (block : List UInt32) : Md5State :=
  let r := (List.range 64).foldl (md5Step block) s
  ⟨s.a + r.a, s.b + r.b, s.c + r.c, s.d + r.d⟩

/-- The message with a one bit, zeros and its length in bits. -/
def md5Pad (message : List UInt8) : List UInt8 :=
  message ++ 0x80 :: (List.replicate ((119 - message.length % 64) % 64) 0 ++
    leBytes 8 (8 * message.length))

def md5 (message : List UInt8) : Vector UInt8 16 :=
  let padded := md5Pad message
  let blocks := (List.range (padded.length / 64)).map fun i =>
    words (window padded (64 * i) (64 * i + 64))
  let s := blocks.foldl md5Block md5Init
  block 16 ((leBytes 4 s.a.toNat ++ leBytes 4 s.b.toNat) ++
    (leBytes 4 s.c.toNat ++ leBytes 4 s.d.toNat))

example : md5 [97, 98, 99] = #v[0x90, 0x01, 0x50, 0x98, 0x3c, 0xd2, 0x4f, 0xb0, 0xd6, 0x96, 0x3f,
    0x7d, 0x28, 0xe1, 0x7f, 0x72] := by
  decide +kernel

def hmacKey (key : List UInt8) : List UInt8 :=
  let key := if 64 < key.length then (md5 key).toList else key
  key ++ List.replicate (64 - key.length) 0

def hmacMd5 (key message : List UInt8) : Vector UInt8 16 :=
  let inner := md5 ((hmacKey key).map (· ^^^ 0x36) ++ message)
  md5 ((hmacKey key).map (· ^^^ 0x5c) ++ inner.toList)

end Md5

section ChaCha20

abbrev Words : Type := Vector UInt32 16

def quarterRound (s : Words) (a b c d : Fin 16) : Words :=
  let s := s.set a (s.get a + s.get b)
  let s := s.set d (rotateLeft (s.get d ^^^ s.get a) 16)
  let s := s.set c (s.get c + s.get d)
  let s := s.set b (rotateLeft (s.get b ^^^ s.get c) 12)
  let s := s.set a (s.get a + s.get b)
  let s := s.set d (rotateLeft (s.get d ^^^ s.get a) 8)
  let s := s.set c (s.get c + s.get d)
  s.set b (rotateLeft (s.get b ^^^ s.get c) 7)

def doubleRound (s : Words) : Words :=
  let s := quarterRound s 0 4 8 12
  let s := quarterRound s 1 5 9 13
  let s := quarterRound s 2 6 10 14
  let s := quarterRound s 3 7 11 15
  let s := quarterRound s 0 5 10 15
  let s := quarterRound s 1 6 11 12
  let s := quarterRound s 2 7 8 13
  quarterRound s 3 4 9 14

/-- The state of a key, a twelve-byte nonce and a block counter. -/
def chachaInit (key nonce : List UInt8) (counter : Nat) : Words :=
  let all := [0x61707865, 0x3320646e, 0x79622d32, 0x6b206574] ++ words key ++
    [UInt32.ofNat counter] ++ words nonce
  Vector.ofFn fun i => all.getD i 0

def chachaBlock (key nonce : List UInt8) (counter : Nat) : List UInt8 :=
  let s := chachaInit key nonce counter
  let r := (List.range 10).foldl (fun s _ => doubleRound s) s
  (List.finRange 16).flatMap fun i => leBytes 4 (r.get i + s.get i).toNat

/-- The keystream byte at a position, for blocks counted from zero. -/
def chacha20 (key nonce : List UInt8) (pos : Nat) : UInt8 :=
  (chachaBlock key nonce (pos / 64)).getD (pos % 64) 0

end ChaCha20

section Base64

/-- The character of a six-bit value. -/
def base64Char (n : Nat) : UInt8 :=
  if n < 26 then UInt8.ofNat (n + 65)
  else if n < 52 then UInt8.ofNat (n + 71)
  else if n < 62 then UInt8.ofNat (n - 4)
  else if n = 62 then 43 else 47

/-- The standard alphabet, with padding. -/
def base64 : List UInt8 → List UInt8
  | [] => []
  | [a] => [base64Char (a.toNat / 4), base64Char (a.toNat % 4 * 16), 61, 61]
  | [a, b] => [base64Char (a.toNat / 4), base64Char (a.toNat % 4 * 16 + b.toNat / 16),
      base64Char (b.toNat % 16 * 4), 61]
  | a :: b :: c :: rest =>
      [base64Char (a.toNat / 4), base64Char (a.toNat % 4 * 16 + b.toNat / 16),
        base64Char (b.toNat % 16 * 4 + c.toNat / 64), base64Char (c.toNat % 64)] ++ base64 rest

end Base64

end Digest
