import GrpcGo.Lib.GoStrings

/-!
# Go's `encoding/binary` byte orders

`PutUint32` writes the four bytes of a `uint32` into the start of a slice and `Uint32` reads them
back.  The model returns the four bytes as a list (the caller places them) and reads the first
four bytes of a list; Go panics on a slice shorter than four bytes, where the model reads `0`.
Both byte orders are stated through the value of the bytes, `b0 + 2^8 b1 + …`, which is what
Go's shifts and ors compute on disjoint bytes.  The one fact the framing proofs need is the
round trip `Uint32_PutUint32`.
-/

namespace GoStd
namespace Binary

/-- The value of four bytes, least significant first. -/
def value4 (b0 b1 b2 b3 : UInt8) : Nat :=
  b0.toNat + 2 ^ 8 * b1.toNat + 2 ^ 16 * b2.toNat + 2 ^ 24 * b3.toNat

/-- The four bytes of `v`, least significant first. -/
def bytes4 (v : UInt32) : UInt8 × UInt8 × UInt8 × UInt8 :=
  (UInt8.ofNat v.toNat, UInt8.ofNat (v.toNat / 2 ^ 8), UInt8.ofNat (v.toNat / 2 ^ 16),
    UInt8.ofNat (v.toNat / 2 ^ 24))

theorem value4_bytes4 (v : UInt32) :
    value4 (bytes4 v).1 (bytes4 v).2.1 (bytes4 v).2.2.1 (bytes4 v).2.2.2 = v.toNat := by
  have hv := v.toNat_lt
  simp only [value4, bytes4, UInt8.toNat_ofNat']
  omega

/-! ## Little-endian byte strings of any width -/

/-- The `n` low bytes of `v`, least significant first. -/
def leBytes : Nat → Nat → Bytes
  | 0, _ => []
  | n + 1, v => UInt8.ofNat (v % 256) :: leBytes n (v / 256)

@[simp] theorem length_leBytes (n v : Nat) : (leBytes n v).length = n := by
  induction n generalizing v with
  | zero => rfl
  | succ n ih => simp only [leBytes, List.length_cons, ih]

/-- The low `m + n` bytes are the low `m` bytes, then the `n` bytes above them. -/
theorem leBytes_add (m n v : Nat) :
    leBytes (m + n) v = leBytes m (v % 256 ^ m) ++ leBytes n (v / 256 ^ m) := by
  induction m generalizing v with
  | zero => simp [leBytes]
  | succ m ih =>
    have hlow : v % 256 ^ (m + 1) % 256 = v % 256 :=
      Nat.mod_mod_of_dvd v ⟨256 ^ m, Nat.pow_succ'⟩
    have hmid : v % 256 ^ (m + 1) / 256 = v / 256 % 256 ^ m := by
      rw [Nat.pow_succ', Nat.mod_mul_right_div_self]
    have hhigh : v / 256 ^ (m + 1) = v / 256 / 256 ^ m := by
      rw [Nat.pow_succ', Nat.div_div_eq_div_mul]
    rw [Nat.add_right_comm, leBytes, ih, leBytes, hlow, hmid, hhigh, List.cons_append]

/-- Below `256 ^ n`, the `n` low bytes tell numbers apart. -/
theorem leBytes_inj {n v w : Nat} (hv : v < 256 ^ n) (hw : w < 256 ^ n)
    (h : leBytes n v = leBytes n w) : v = w := by
  induction n generalizing v w with
  | zero =>
    rw [Nat.pow_zero] at hv hw
    omega
  | succ n ih =>
    obtain ⟨hlow, hhigh⟩ := List.cons.inj h
    have hlow' : v % 256 = w % 256 := by
      have := congrArg UInt8.toNat hlow
      simpa [UInt8.toNat_ofNat'] using this
    have hhigh' : v / 256 = w / 256 := by
      rw [Nat.pow_succ'] at hv hw
      exact ih (Nat.div_lt_of_lt_mul hv) (Nat.div_lt_of_lt_mul hw) hhigh
    omega

namespace LittleEndian

/-- `binary.LittleEndian.PutUint32(b, v)`: the bytes written to `b[0:4]`. -/
def PutUint32 (v : UInt32) : Bytes :=
  [(bytes4 v).1, (bytes4 v).2.1, (bytes4 v).2.2.1, (bytes4 v).2.2.2]

/-- `binary.LittleEndian.Uint32(b)`. -/
def Uint32 : Bytes → UInt32
  | b0 :: b1 :: b2 :: b3 :: _ => UInt32.ofNat (value4 b0 b1 b2 b3)
  | _ => 0

@[simp] theorem length_PutUint32 (v : UInt32) : (PutUint32 v).length = 4 := rfl

@[simp] theorem Uint32_PutUint32 (v : UInt32) (rest : Bytes) : Uint32 (PutUint32 v ++ rest) = v := by
  simp only [PutUint32, Uint32, List.cons_append, List.nil_append, value4_bytes4,
    UInt32.ofNat_toNat]

/-- `Uint32` reads only the first four bytes. -/
theorem Uint32_take (b : Bytes) : Uint32 (b.take 4) = Uint32 b := by
  match b with
  | [] | [_] | [_, _] | [_, _, _] => rfl
  | _ :: _ :: _ :: _ :: _ => rfl

example : PutUint32 0x01020304 = [4, 3, 2, 1] := by decide

/-- The low byte of what `Uint32` reads is the first byte. -/
theorem Uint32_and_ff (b0 b1 b2 b3 : UInt8) (rest : Bytes) :
    Uint32 (b0 :: b1 :: b2 :: b3 :: rest) &&& 0xff = b0.toUInt32 := by
  apply UInt32.toNat_inj.mp
  have h0 := b0.toNat_lt
  have h1 := b1.toNat_lt
  have h2 := b2.toNat_lt
  have h3 := b3.toNat_lt
  simp only [Uint32, UInt32.toNat_and, UInt32.toNat_ofNat', UInt32.toNat_ofNat,
    UInt8.toNat_toUInt32, value4]
  rw [show (255 : Nat) % 2 ^ 32 = 2 ^ 8 - 1 from rfl, Nat.and_two_pow_sub_one_eq_mod]
  omega

end LittleEndian

namespace BigEndian

/-- `binary.BigEndian.PutUint32(b, v)`: the bytes written to `b[0:4]`. -/
def PutUint32 (v : UInt32) : Bytes :=
  [(bytes4 v).2.2.2, (bytes4 v).2.2.1, (bytes4 v).2.1, (bytes4 v).1]

/-- `binary.BigEndian.Uint32(b)`. -/
def Uint32 : Bytes → UInt32
  | b0 :: b1 :: b2 :: b3 :: _ => UInt32.ofNat (value4 b3 b2 b1 b0)
  | _ => 0

@[simp] theorem length_PutUint32 (v : UInt32) : (PutUint32 v).length = 4 := rfl

@[simp] theorem Uint32_PutUint32 (v : UInt32) (rest : Bytes) : Uint32 (PutUint32 v ++ rest) = v := by
  simp only [PutUint32, Uint32, List.cons_append, List.nil_append, value4_bytes4,
    UInt32.ofNat_toNat]

example : PutUint32 0x01020304 = [1, 2, 3, 4] := by decide

end BigEndian

end Binary

/-! ## `uint32` arithmetic and `int32` conversions -/

/-- `math.MaxInt32`. -/
def MaxInt32 : Nat := 2147483647

/-- A `uint32` sum that does not wrap around. -/
theorem toNat_add_of_lt {a b : UInt32} (h : a.toNat + b.toNat < 2 ^ 32) :
    (a + b).toNat = a.toNat + b.toNat := by
  rw [UInt32.toNat_add]
  omega

/-- `int32(a - b)`: the `uint32` difference read back as an `int32` is the difference of the
values whenever that is in the range of `int32`, whether or not the subtraction wrapped around. -/
theorem toInt_toInt32_sub {a b : UInt32} (hlo : (b.toNat : Int) - 2 ^ 31 ≤ a.toNat)
    (hhi : (a.toNat : Int) < b.toNat + 2 ^ 31) :
    (a - b).toInt32.toInt = (a.toNat : Int) - b.toNat := by
  have hbits : (a - b).toInt32.toInt = (a - b).toBitVec.toInt := rfl
  have hnat : (a - b).toBitVec.toNat = (a - b).toNat := rfl
  rw [hbits, BitVec.toInt_eq_toNat_cond, hnat, UInt32.toNat_sub]
  have ha := a.toNat_lt
  have hb := b.toNat_lt
  split <;> omega

end GoStd
