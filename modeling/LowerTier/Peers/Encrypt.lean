import LowerTier.Tunnel.PacketDef

/-!
# Packet ciphers (`peers/encrypt/mod.rs`, `peers/encrypt/ring.rs`)

The AEAD of the `ring` crate and HMAC-SHA256 are parameters; the packet framing
around them is modelled.  A sealed payload is
`[ciphertext][tag, 16 bytes][nonce, 12 bytes]`.
-/

namespace LowerTier.Peers

open ProofSupport.ByteString Tunnel

inductive EncryptError where
  | packetTooShort (len : Nat)
  | decryptionFailed
  | encryptionFailed
  | invalidTag (tag : Bytes)
deriving DecidableEq, Repr

inductive EncryptionAlgorithm where
  | aesGcm | aes256Gcm | chaCha20Poly1305
deriving DecidableEq, Repr

/-- `EncryptionAlgorithm::try_from(algorithm).unwrap_or_default()`; the names are
compared without regard to ASCII case. -/
def EncryptionAlgorithm.fromNameOrDefault (algorithm : String) : EncryptionAlgorithm :=
  match algorithm.map Char.toLower with
  | "aes-gcm" => .aesGcm
  | "aes-256-gcm" => .aes256Gcm
  | _ => .chaCha20Poly1305

inductive RingCipher where
  | aes128Gcm (key : Bytes)
  | aes256Gcm (key : Bytes)
  | chaCha20Poly1305 (key : Bytes)
deriving DecidableEq, Repr

def createRingEncryptor (algorithm : EncryptionAlgorithm) (key128 key256 : Bytes) : RingCipher :=
  match algorithm with
  | .aesGcm => .aes128Gcm key128
  | .aes256Gcm => .aes256Gcm key256
  | .chaCha20Poly1305 => .chaCha20Poly1305 key256

def createSecureDatagramEncryptor (algorithm : String) (key128 key256 : Bytes) : RingCipher :=
  createRingEncryptor (.fromNameOrDefault algorithm) key128 key256

structure Crypto where
  /-- Key and message. -/
  hmacSha256 : Bytes → Bytes → Bytes
  /-- Nonce, associated data and plaintext to ciphertext and tag. -/
  sealInPlace : RingCipher → Bytes → Bytes → Bytes → Option (Bytes × Bytes)
  /-- Nonce, associated data and ciphertext with tag to whether the tag holds and
  what the buffer then contains. -/
  openInPlace : RingCipher → Bytes → Bytes → Bytes → Bool × Bytes

def TAG_SIZE : Nat := 16

def NONCE_SIZE : Nat := 12

def TAIL_RESERVED_SIZE : Nat := TAG_SIZE + NONCE_SIZE

/-- A cipher that passes text through, for runs on concrete packets. -/
def Crypto.passThrough : Crypto where
  hmacSha256 _ message := message
  sealInPlace _ _ _ text := some (text, List.replicate TAG_SIZE 0)
  openInPlace _ _ _ text := (true, text)

def aeadTailNonce (payload : Bytes) : Option Bytes :=
  if payload.length < TAIL_RESERVED_SIZE then
    none
  else
    some (payload.drop (payload.length - NONCE_SIZE))

namespace RingCipher

/-- `decrypt_with_aad`.  The session checks for the header before it calls this,
so the `unwrap` of the source is never reached without one. -/
def decryptWithAad (cipher : RingCipher) (crypto : Crypto) (packet : ZCPacket) (aad : Bytes) :
    Except EncryptError Unit × ZCPacket :=
  match packet.peerManagerHeader, packet.payload with
  | some header, some payload =>
    if !header.isEncrypted then
      (.error .decryptionFailed, packet)
    else
      match aeadTailNonce payload with
      | none => (.error (.packetTooShort payload.length), packet)
      | some nonce =>
        let textAndTagLen := payload.length - TAIL_RESERVED_SIZE + TAG_SIZE
        let (opened, buffer) :=
          crypto.openInPlace cipher nonce aad (payload.take textAndTagLen)
        let written := packet.setPayloadPreservingFlowHash
          (buffer ++ payload.drop textAndTagLen)
        if !opened then
          (.error .decryptionFailed, written)
        else
          let (_, unsealed) := written.mutPeerManagerHeader (·.setEncrypted false)
          (.ok (), { unsealed with
            inner := unsealed.inner.take (unsealed.inner.length - TAIL_RESERVED_SIZE) })
  | _, _ => (.error .decryptionFailed, packet)

def encryptWithNonceAndAad (cipher : RingCipher) (crypto : Crypto) (packet : ZCPacket)
    (nonce aad : Bytes) : Except EncryptError Unit × ZCPacket :=
  match packet.peerManagerHeader, packet.payload with
  | some header, some payload =>
    if header.isEncrypted then
      (.ok (), packet)
    else if nonce.length ≠ NONCE_SIZE then
      (.error .encryptionFailed, packet)
    else
      match crypto.sealInPlace cipher nonce aad payload with
      | none => (.error .encryptionFailed, { packet with parsedMetadata := none })
      | some (ciphertext, tag) =>
        let written := packet.setPayloadPreservingFlowHash ciphertext
        if tag.length ≠ TAG_SIZE then
          (.error (.invalidTag tag), written)
        else
          let (_, marked) := written.mutPeerManagerHeader (·.setEncrypted true)
          (.ok (), { marked with inner := marked.inner ++ tag ++ nonce })
  | _, _ => (.error .encryptionFailed, packet)

end RingCipher

end LowerTier.Peers
