import ColumnVault.Crypto.Poly1305
import ColumnVault.Crypto.Salsa20

/-! Authenticated encryption with XSalsa20 and Poly1305. A sealed message is a sixteen-byte tag and
then the encrypted bytes, as many as the message has. -/

namespace ColumnVault.Crypto.SecretBox

def tagSize : Nat := 16

def nonceSize : Nat := 24

/-- What one key and nonce determine: a key and short nonce for the stream, and the key of the tag,
which takes the first 32 bytes of the stream. -/
structure Session where
  key : ByteArray
  nonce : ByteArray
  tagKey : ByteArray

def Session.start (key nonce : ByteArray) : Session :=
  let k := Salsa20.subkey key (nonce.extract 0 16)
  let n := nonce.extract 16 24
  ⟨k, n, (Salsa20.block k n 0).extract 0 32⟩

def Session.apply (s : Session) (data : ByteArray) : ByteArray :=
  Salsa20.xorStream s.key s.nonce 32 data

/-- Encrypts a message and puts its tag in front. -/
def encrypt (key nonce message : ByteArray) : ByteArray :=
  let s := Session.start key nonce
  let body := s.apply message
  Poly1305.tag s.tagKey body ++ body

/-- The message, if the tag is the one that its encrypted bytes have under the key and nonce. -/
def decrypt? (key nonce sealed : ByteArray) : Option ByteArray :=
  if sealed.size < tagSize then none
  else
    let s := Session.start key nonce
    let body := sealed.extract tagSize sealed.size
    if Poly1305.tag s.tagKey body = sealed.extract 0 tagSize then some (s.apply body) else none

end ColumnVault.Crypto.SecretBox
