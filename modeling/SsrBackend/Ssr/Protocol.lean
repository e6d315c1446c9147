import SsrBackend.Ssr.Kdf

/-!
The `auth_aes128_md5` protocol layer as `ssr/protocol.rs` computes it. Every
slice, index and subtraction of the source is a checked operation here, and a
call that fails keeps what it wrote before. `authHeader` is the body of the
`!self.has_recv_header` branch of `server_post_decrypt` and `packetTurn` the
body of its `while` loop.
-/

namespace SsrBackend

open Call

/-- The errors of the codec, one for each `bail!` and `anyhow!`. -/
inductive CodecError where
  | checkHead
  | authHeader
  | badAuthLength (length : Nat)
  | authChecksum
  | rndLenOverrun (rndLen : Nat)
  | dataLengthHmac
  | badDataLength (length : Nat)
  | dataChecksum
  | dataPadding
  | udpTooShort (bytes : Nat)
  | udpHmac
  | udpMissingIv (ivLen : Nat)
  | randomIv (reason : String)
  | encryptBeforeHandshake
  deriving DecidableEq, Repr

def CodecError.message : CodecError → String
  | checkHead => "auth_aes128_md5: check_head HMAC mismatch"
  | authHeader => "auth_aes128_md5: auth header HMAC mismatch"
  | badAuthLength length => s!"auth_aes128_md5: bad auth length {length}"
  | authChecksum => "auth_aes128_md5: auth packet checksum mismatch"
  | rndLenOverrun rndLen => s!"auth_aes128_md5: rnd_len {rndLen} overruns packet"
  | dataLengthHmac => "auth_aes128_md5: data packet length HMAC mismatch"
  | badDataLength length => s!"auth_aes128_md5: bad data length {length}"
  | dataChecksum => "auth_aes128_md5: data packet checksum mismatch"
  | dataPadding => "auth_aes128_md5: data padding overruns packet"
  | udpTooShort bytes => s!"auth_aes128_md5 udp: packet too short ({bytes} bytes)"
  | udpHmac => "auth_aes128_md5 udp: HMAC mismatch"
  | udpMissingIv ivLen => s!"udp datagram shorter than the {ivLen}-byte IV"
  | randomIv reason => s!"failed to gather random IV: {reason}"
  | encryptBeforeHandshake => "cannot encrypt before the client handshake is received"

def salt : List UInt8 := asBytes "auth_aes128_md5"

def unitLen : Nat := 8100

def maxPacket : Nat := 8192

abbrev Users : Type := Std.HashMap Nat (List UInt8)

structure AuthAes128Md5 where
  masterKey : List UInt8
  userKey : List UInt8
  users : Users
  isMultiUser : Int
  userId : Option Nat
  aesKey : Vector UInt8 16
  recvIv : List UInt8
  recvBuf : List UInt8
  hasRecvHeader : Bool
  recvId : UInt32
  packId : UInt32

section Helpers

variable {m : Type → Type} [Monad m] [MonadPanic m] (P : Primitives)

def u16Le (b : List UInt8) : m Nat := do
  return leValue [← index b 0, ← index b 1]

/-- Where the payload starts behind the padding marker. -/
def dataPos (recvBuf : List UInt8) : m Nat := do
  let posMarker := (← index recvBuf 4).toNat
  if posMarker < 255 then
    return posMarker + 4
  else
    return (← u16Le (← slice recvBuf 5 7)) + 4

/-- `EVP_BytesToKey(base64(user_key) + salt, 16)`, copied into the key array. -/
def deriveAesKey (userKey : List UInt8) : m (Vector UInt8 16) :=
  copyFromSlice 16 (evpBytesToKey P (P.base64 userKey ++ salt) 16)

end Helpers

namespace AuthAes128Md5

variable (P : Primitives)

def new {m : Type → Type} [Monad m] [MonadPanic m] (masterKey recvIv : List UInt8)
    (users : Users) (isMultiUser : Int) : m AuthAes128Md5 := do
  let aesKey ← deriveAesKey P masterKey
  return {
    masterKey := masterKey
    userKey := masterKey
    users := users
    isMultiUser := isMultiUser
    userId := none
    aesKey := aesKey
    recvIv := recvIv
    recvBuf := []
    hasRecvHeader := false
    recvId := 1
    packId := 1
  }

def rebuildAesKey : Call CodecError AuthAes128Md5 Unit := do
  let aesKey ← deriveAesKey P (← get).userKey
  modify fun s => { s with aesKey := aesKey }

def aesDecryptBlock {m : Type → Type} [Monad m] [MonadPanic m] (s : AuthAes128Md5)
    (block16 : List UInt8) : m (Vector UInt8 16) := do
  return P.aesDecrypt s.aesKey (← copyFromSlice 16 block16)

/-- `self.recv_buf.drain(..n)`. -/
def drainRecv (n : Nat) : Call CodecError AuthAes128Md5 Unit := do
  let s ← get
  let rest ← slice s.recvBuf n s.recvBuf.length
  modify fun s => { s with recvBuf := rest }

/-- Lookup of the uid in the user table, with the multi-user fallback. -/
def selectUser (uid : Nat) : Call CodecError AuthAes128Md5 Unit := do
  let s ← get
  match s.users[uid]? with
  | some userKey =>
      modify fun s => { s with userId := some uid, userKey := userKey }
      rebuildAesKey P
  | none =>
      if s.isMultiUser = 2 then
        modify fun s => { s with userId := none, userKey := s.recvIv }
        rebuildAesKey P

/-- The auth packet under the selected key. `none` is the early `return Ok(out)`. -/
def authPacket : Call CodecError AuthAes128Md5 (Option (List UInt8)) := do
  let s ← get
  let head ← s.aesDecryptBlock P (← slice s.recvBuf 11 27)
  let length ← u16Le (← slice head.toList 12 14)
  if ¬(31 ≤ length ∧ length < maxPacket) then
    bail (.badAuthLength length)
  if s.recvBuf.length < length then
    return none
  let rndLen ← u16Le (← slice head.toList 14 16)
  let checksum ← hmacMd5Prefix P s.userKey (← slice s.recvBuf 0 (← checkedSub length 4)) 4
  if checksum ≠ (← slice s.recvBuf (← checkedSub length 4) length) then
    bail .authChecksum
  let payloadStart := 31 + rndLen
  if payloadStart > (← checkedSub length 4) then
    bail (.rndLenOverrun rndLen)
  let out ← slice s.recvBuf payloadStart (← checkedSub length 4)
  drainRecv length
  modify fun s => { s with hasRecvHeader := true }
  return some out

/-- The auth header: check head, header MAC, user selection, then the packet. -/
def authHeader : Call CodecError AuthAes128Md5 (Option (List UInt8)) := do
  let s ← get
  let macKey := s.recvIv ++ s.masterKey
  if 7 ≤ s.recvBuf.length then
    let chk ← hmacMd5Prefix P macKey (← slice s.recvBuf 0 1) 6
    if chk ≠ (← slice s.recvBuf 1 7) then
      bail .checkHead
  if s.recvBuf.length < 31 then
    return none
  let authHmac ← hmacMd5Prefix P macKey (← slice s.recvBuf 7 27) 4
  if authHmac ≠ (← slice s.recvBuf 27 31) then
    bail .authHeader
  let uid := leValue [← index s.recvBuf 7, ← index s.recvBuf 8, ← index s.recvBuf 9,
    ← index s.recvBuf 10]
  selectUser P uid
  authPacket P

/-- One turn of the packet loop. `none` is the `break`. -/
def packetTurn : Call CodecError AuthAes128Md5 (Option (List UInt8)) := do
  let s ← get
  let macKey := s.userKey ++ leBytes 4 s.recvId.toNat
  let mac ← hmacMd5Prefix P macKey (← slice s.recvBuf 0 2) 2
  if mac ≠ (← slice s.recvBuf 2 4) then
    bail .dataLengthHmac
  let length ← u16Le (← slice s.recvBuf 0 2)
  if ¬(7 ≤ length ∧ length < maxPacket) then
    bail (.badDataLength length)
  if length > s.recvBuf.length then
    return none
  let checksum ← hmacMd5Prefix P macKey (← slice s.recvBuf 0 (← checkedSub length 4)) 4
  if checksum ≠ (← slice s.recvBuf (← checkedSub length 4) length) then
    bail .dataChecksum
  modify fun s => { s with recvId := s.recvId + 1 }
  let pos ← dataPos s.recvBuf
  if pos > (← checkedSub length 4) then
    bail .dataPadding
  let out ← slice s.recvBuf pos (← checkedSub length 4)
  drainRecv length
  return some out

end AuthAes128Md5

end SsrBackend
