import ClipRelay.Digest.Sha256

/-!
# ClipRelay.Digest.Hmac

The keyed hash HMAC-SHA-256 of RFC 2104.
-/

namespace ClipRelay.Hmac

/-- The block size of the underlying hash, in bytes. -/
def blockSize : Nat := 64

/-- The key at block size: a long key is hashed first, a short one is filled up
with zeros. -/
def blockKey (key : Bytes) : Bytes :=
  let k := if blockSize < key.length then Sha256.digest key else key
  k ++ List.replicate (blockSize - k.length) 0

/-- The authentication code of a message under a key. -/
def sha256 (key message : Bytes) : Bytes :=
  let k := blockKey key
  Sha256.digest ((k.map (· ^^^ 0x5c)) ++ Sha256.digest ((k.map (· ^^^ 0x36)) ++ message))

@[simp] theorem length_sha256 (key message : Bytes) :
    (sha256 key message).length = Sha256.size := by
  simp [sha256]

end ClipRelay.Hmac
