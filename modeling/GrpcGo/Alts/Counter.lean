import GrpcGo.Alts.Record
import GrpcGo.Lib.Machine

/-!
# ALTS record counters

`credentials/alts/internal/conn`: the 96-bit little-endian counters that give each frame its
nonce, and the two record protocols that seal and open with them.

* A `Counter` is its twelve bytes, the flag `invalid`, and `overflowLen`, the number of low
  bytes that `Inc` carries into; a carry out of the last of them makes the counter invalid.
  `overflowLen` is an `int` in Go and a natural number here: the package passes only
  `overflowLenAES128GCM` and `overflowLenAES128GCMRekey`.
* `NewOutCounter` and `NewInCounter` start a side's counters; server counters have the high bit
  of the last byte set.
* `aes128gcm` and `aes128gcmRekey` hold an in-counter and an out-counter.  Their `Encrypt` and
  `Decrypt` differ only in which AEAD they call, so both are `sealNext` and `openNext` on
  their counters.  The AEAD (`cipher.AEAD`, keyed by `NewCipher` or by the rekeying HKDF) is a
  parameter: `Seal` appends the sealed plaintext to `dst`, `Open` appends the opened
  ciphertext or fails.
-/

namespace GrpcGo
namespace Alts

open GoStd Machine

/-- `counterLen`. -/
def counterLen : Nat := 12

/-- `errInvalidCounter`. -/
def errInvalidCounter : String := "invalid counter"

/-- `Counter`. -/
structure Counter where
  value : Bytes
  invalid : Bool
  overflowLen : Nat
deriving DecidableEq, Repr

namespace Counter

/-- `c.Value()`. -/
def Value (c : Counter) : Except String Bytes :=
  if c.invalid then .error errInvalidCounter else .ok c.value

/-- The loop of `Inc` from byte `i`, with `n = overflowLen - i` bytes left to carry into: the
bytes after the loop, and whether `i` reached `overflowLen`.  Past the twelfth byte Go's index
panics; no `overflowLen` of the package reaches it. -/
def incLoop : Nat → Bytes → Bytes × Bool
  | 0, value => (value, true)
  | _ + 1, [] => ([], false)
  | n + 1, b :: value =>
    -- `c.value[i]++`, and the loop stops at the first byte that does not wrap around
    if b + 1 ≠ 0 then ((b + 1) :: value, false)
    else ((b + 1) :: (incLoop n value).1, (incLoop n value).2)

/-- `c.Inc()`. -/
def Inc (c : Counter) : Counter :=
  if c.invalid then c
  else
    let r := incLoop c.overflowLen c.value
    let c := { c with value := r.1 }
    if r.2 then { c with invalid := true } else c

end Counter

/-- `NewOutCounter(s, overflowLen)`. -/
def NewOutCounter (s : Side) (overflowLen : Nat) : Counter :=
  let value := List.replicate counterLen 0
  { value := if s = .ServerSide then value.set (counterLen - 1) 0x80 else value,
    invalid := false, overflowLen }

/-- `NewInCounter(s, overflowLen)`: the counter of the frames the peer of side `s` sends. -/
def NewInCounter (s : Side) (overflowLen : Nat) : Counter :=
  let value := List.replicate counterLen 0
  { value := if s = .ClientSide then value.set (counterLen - 1) 0x80 else value,
    invalid := false, overflowLen }

/-! ## The record protocols -/

/-- `GcmTagSize`. -/
def GcmTagSize : Nat := 16
/-- `overflowLenAES128GCM`. -/
def overflowLenAES128GCM : Nat := 5
/-- `overflowLenAES128GCMRekey`. -/
def overflowLenAES128GCMRekey : Nat := 8
/-- `ErrAuth`. -/
def ErrAuth : String := "message authentication failed"

/-- `cipher.AEAD`, by the two calls the record protocols make: `Seal(dst, nonce, plaintext,
nil)` and `Open(dst, nonce, ciphertext, nil)`. -/
structure AEAD where
  Seal : Bytes → Bytes → Bytes → Bytes
  Open : Bytes → Bytes → Bytes → Except String Bytes

/-- The body of `Encrypt`: seal with the out-counter's value as the nonce, then `Inc`. -/
def sealNext (aead : AEAD) (outCounter : Counter) (dst plaintext : Bytes) :
    Except String (Bytes × Counter) := do
  let seq ← outCounter.Value
  pure (aead.Seal dst seq plaintext, outCounter.Inc)

/-- The body of `Decrypt`: open with the in-counter's value as the nonce, then `Inc`. -/
def openNext (aead : AEAD) (inCounter : Counter) (dst ciphertext : Bytes) :
    Except String (Bytes × Counter) := do
  let seq ← inCounter.Value
  let plaintext ← (aead.Open dst seq ciphertext).mapError fun _ => ErrAuth
  pure (plaintext, inCounter.Inc)

/-- `aes128gcm`; its `aead` is a parameter of the calls. -/
structure aes128gcm where
  inCounter : Counter
  outCounter : Counter

/-- `NewAES128GCM(side, key)`, once the cipher is made. -/
def NewAES128GCM (side : Side) : aes128gcm :=
  ⟨NewInCounter side overflowLenAES128GCM, NewOutCounter side overflowLenAES128GCM⟩

/-- `s.Encrypt(dst, plaintext)`. -/
def aes128gcm.Encrypt (aead : AEAD) (s : aes128gcm) (dst plaintext : Bytes) :
    Except String (Bytes × aes128gcm) := do
  let (dst, outCounter) ← sealNext aead s.outCounter dst plaintext
  pure (dst, { s with outCounter })

/-- `s.Decrypt(dst, ciphertext)`. -/
def aes128gcm.Decrypt (aead : AEAD) (s : aes128gcm) (dst ciphertext : Bytes) :
    Except String (Bytes × aes128gcm) := do
  let (plaintext, inCounter) ← openNext aead s.inCounter dst ciphertext
  pure (plaintext, { s with inCounter })

/-- `aes128gcmRekey`; its `inAEAD` and `outAEAD` are parameters of the calls. -/
structure aes128gcmRekey where
  inCounter : Counter
  outCounter : Counter

/-- `NewAES128GCMRekey(side, key)`, once the two AEADs are made. -/
def NewAES128GCMRekey (side : Side) : aes128gcmRekey :=
  ⟨NewInCounter side overflowLenAES128GCMRekey, NewOutCounter side overflowLenAES128GCMRekey⟩

/-- `s.Encrypt(dst, plaintext)`. -/
def aes128gcmRekey.Encrypt (outAEAD : AEAD) (s : aes128gcmRekey) (dst plaintext : Bytes) :
    Except String (Bytes × aes128gcmRekey) := do
  let (dst, outCounter) ← sealNext outAEAD s.outCounter dst plaintext
  pure (dst, { s with outCounter })

/-- `s.Decrypt(dst, ciphertext)`. -/
def aes128gcmRekey.Decrypt (inAEAD : AEAD) (s : aes128gcmRekey) (dst ciphertext : Bytes) :
    Except String (Bytes × aes128gcmRekey) := do
  let (plaintext, inCounter) ← openNext inAEAD s.inCounter dst ciphertext
  pure (plaintext, { s with inCounter })

/-! ## Runs of `Encrypt` -/

/-- A call of `Encrypt` on a counter as an event: what a successful call returns.  A failed call
leaves the counter as it was. -/
def sealStep (aead : AEAD) (c : Counter) (call : Bytes × Bytes) : List Bytes × Counter :=
  match sealNext aead c call.1 call.2 with
  | .ok (out, c') => ([out], c')
  | .error _ => ([], c)

/-- `Encrypt` calls on `aes128gcm`, as events. -/
def aes128gcm.encryptStep (aead : AEAD) (s : aes128gcm) (call : Bytes × Bytes) :
    List Bytes × aes128gcm :=
  match s.Encrypt aead call.1 call.2 with
  | .ok (out, s') => ([out], s')
  | .error _ => ([], s)

/-- `Encrypt` calls on `aes128gcmRekey`, as events. -/
def aes128gcmRekey.encryptStep (outAEAD : AEAD) (s : aes128gcmRekey) (call : Bytes × Bytes) :
    List Bytes × aes128gcmRekey :=
  match s.Encrypt outAEAD call.1 call.2 with
  | .ok (out, s') => ([out], s')
  | .error _ => ([], s)

end Alts
end GrpcGo
