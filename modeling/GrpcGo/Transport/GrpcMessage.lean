import GrpcGo.Lib.GoUtf8

/-!
# The percent encoding of `grpc-message`

`internal/transport/http_util.go`: `encodeGrpcMessage` and `decodeGrpcMessage`, on the bytes of
the message.  The encoder walks the runes of the message with `utf8.DecodeRuneInString` and
writes the bytes of `string(r)`: a byte of a multi-byte rune always as `%XX`, a byte of a one-byte
rune as itself when it is printable ASCII other than `%`, and otherwise as `%XX`.  An invalid
byte decodes to `RuneError`, one byte long, whose three bytes `EF BF BD` are then escaped.  The
decoder turns each `%` with two bytes after it that `strconv.ParseUint(s, 16, 8)` reads into
that byte, and copies every other byte.

`grpcMessage_roundtrip`: decoding the encoding gives the message with every byte that starts no
UTF-8 character replaced by U+FFFD (`sanitize`), so a valid UTF-8 message comes back whole; and
the encoding is printable ASCII in which every `%` is followed by two upper-case hex digits.  Both
functions' fast paths agree with their full loops (`encodeGrpcMessage_eq_unchecked`,
`decodeGrpcMessage_eq_unchecked`).
-/

namespace GrpcGo
namespace Transport

open GoStd Utf8

/-- `spaceByte`. -/
def spaceByte : UInt8 := 0x20

/-- `tildeByte`. -/
def tildeByte : UInt8 := 0x7E

/-- `percentByte`. -/
def percentByte : UInt8 := 0x25

/-! ## The encoder -/

/-- The byte `%02X` writes for a hex digit `d < 16`. -/
def hexDigitUpper (d : Nat) : UInt8 :=
  if d < 10 then UInt8.ofNat (0x30 + d) else UInt8.ofNat (0x41 + d - 10)

/-- `fmt.Sprintf("%%%02X", b)`. -/
def percentEncoded (b : UInt8) : Bytes :=
  [percentByte, hexDigitUpper (b.toNat / 16), hexDigitUpper (b.toNat % 16)]

/-- `b >= spaceByte && b <= tildeByte && b != percentByte`. -/
def plain (b : UInt8) : Bool :=
  spaceByte ≤ b && b ≤ tildeByte && b != percentByte

/-- The body of the inner loop, for a byte `b` of `string(r)` and a rune `size` bytes long in
the message. -/
def escapeByte (size : Nat) (b : UInt8) : Bytes :=
  if size > 1 then percentEncoded b
  else if plain b then [b]
  else percentEncoded b

/-- The inner loop over the bytes of `string(r)`. -/
def encodeRuneBytes (size : Nat) (bs : Bytes) : Bytes :=
  bs.flatMap (escapeByte size)

/-- The loop `for len(msg) > 0` of `encodeGrpcMessageUnchecked`, with `fuel` at least
`len(msg)`. -/
def encodeLoop : Nat → Bytes → Bytes
  | 0, _ => []
  | _ + 1, [] => []
  | fuel + 1, msg@(_ :: _) =>
    let (r, size) := DecodeRune msg
    encodeRuneBytes size (EncodeRune r) ++ encodeLoop fuel (msg.drop size)

/-- `encodeGrpcMessageUnchecked(msg)`. -/
def encodeGrpcMessageUnchecked (msg : Bytes) : Bytes :=
  encodeLoop msg.length msg

/-- `encodeGrpcMessage(msg)`: the message itself when every byte is plain. -/
def encodeGrpcMessage (msg : Bytes) : Bytes :=
  if msg = [] then []
  else if msg.all plain then msg
  else encodeGrpcMessageUnchecked msg

/-! ## The decoder -/

/-- The digit `strconv.ParseUint` reads from a byte in base 16: `0`-`9`, or a letter by
`lower(c) = c | ('x' - 'X')`, whose value must stand below the base. -/
def hexValue (c : UInt8) : Option Nat :=
  if 0x30 ≤ c.toNat ∧ c.toNat ≤ 0x39 then some (c.toNat - 0x30)
  else
    let l := (c ||| 0x20).toNat
    if 0x61 ≤ l ∧ l ≤ 0x7A ∧ l - 0x61 + 10 < 16 then some (l - 0x61 + 10) else none

/-- `strconv.ParseUint(msg[i+1:i+3], 16, 8)` with `byte(parsed)`: two digits of base 16 (no two
of them pass the 8-bit range). -/
def parseHexByte (h1 h2 : UInt8) : Option UInt8 :=
  match hexValue h1, hexValue h2 with
  | some d1, some d2 => some (UInt8.ofNat (d1 * 16 + d2))
  | _, _ => none

/-- `decodeGrpcMessageUnchecked(msg)`: a `%` with two bytes after it that parse is that byte,
and every other byte is copied. -/
def decodeGrpcMessageUnchecked : Bytes → Bytes
  | c :: h1 :: h2 :: rest =>
    if c = percentByte then
      match parseHexByte h1 h2 with
      | some b => b :: decodeGrpcMessageUnchecked rest
      | none => c :: decodeGrpcMessageUnchecked (h1 :: h2 :: rest)
    else c :: decodeGrpcMessageUnchecked (h1 :: h2 :: rest)
  | [c, d] => [c, d]
  | [c] => [c]
  | [] => []

/-- Whether some `%` of `msg` has two bytes after it. -/
def hasEscape : Bytes → Bool
  | c :: h1 :: h2 :: rest => c == percentByte || hasEscape (h1 :: h2 :: rest)
  | _ => false

/-- `decodeGrpcMessage(msg)`: the message itself when no `%` has two bytes after it. -/
def decodeGrpcMessage (msg : Bytes) : Bytes :=
  if msg = [] then []
  else if hasEscape msg then decodeGrpcMessageUnchecked msg
  else msg

example : encodeGrpcMessage [0x61, 0x25, 0xFF] = [0x61, 0x25, 0x32, 0x35, 0x25, 0x45, 0x46,
    0x25, 0x42, 0x46, 0x25, 0x42, 0x44] := by decide
example : decodeGrpcMessage [0x25, 0x34, 0x31, 0x25] = [0x41, 0x25] := by decide

/-! ## Hex digits -/

example : (List.range 16).map hexDigitUpper =
    [0x30, 0x31, 0x32, 0x33, 0x34, 0x35, 0x36, 0x37, 0x38, 0x39, 0x41, 0x42, 0x43, 0x44, 0x45,
      0x46] := by decide

theorem plain_eq_true {b : UInt8} :
    plain b = true ↔ spaceByte ≤ b ∧ b ≤ tildeByte ∧ b ≠ percentByte := by
  simp [plain, and_assoc]

/-- A digit of `%02X` is plain. -/
theorem plain_hexDigitUpper : ∀ d, d < 16 → plain (hexDigitUpper d) = true
  | 0, _ | 1, _ | 2, _ | 3, _ | 4, _ | 5, _ | 6, _ | 7, _ | 8, _ | 9, _ | 10, _ | 11, _ | 12, _
  | 13, _ | 14, _ | 15, _ => by decide
  | _ + 16, h => absurd h (by omega)

theorem hexValue_hexDigitUpper : ∀ d, d < 16 → hexValue (hexDigitUpper d) = some d
  | 0, _ | 1, _ | 2, _ | 3, _ | 4, _ | 5, _ | 6, _ | 7, _ | 8, _ | 9, _ | 10, _ | 11, _ | 12, _
  | 13, _ | 14, _ | 15, _ => by decide
  | _ + 16, h => absurd h (by omega)

/-- `ParseUint` reads back the two digits of `%02X`. -/
theorem parseHexByte_percentEncoded (b : UInt8) :
    parseHexByte (hexDigitUpper (b.toNat / 16)) (hexDigitUpper (b.toNat % 16)) = some b := by
  have hb := UInt8.toNat_lt b
  rw [parseHexByte, hexValue_hexDigitUpper _ (by omega), hexValue_hexDigitUpper _ (by omega)]
  exact congrArg some (ofNat_eq (by omega))

/-! ## Decoding an escaped rune -/

/-- A byte other than `%` is copied. -/
theorem decodeGrpcMessageUnchecked_cons_of_ne {c : UInt8} (h : c ≠ percentByte) (rest : Bytes) :
    decodeGrpcMessageUnchecked (c :: rest) = c :: decodeGrpcMessageUnchecked rest := by
  match rest with
  | [] => rfl
  | [_] => rfl
  | _ :: _ :: _ => rw [decodeGrpcMessageUnchecked, if_neg h]

theorem decodeGrpcMessageUnchecked_percentEncoded (b : UInt8) (rest : Bytes) :
    decodeGrpcMessageUnchecked (percentEncoded b ++ rest) = b :: decodeGrpcMessageUnchecked rest := by
  simp only [percentEncoded, List.cons_append, List.nil_append]
  rw [decodeGrpcMessageUnchecked, if_pos rfl, parseHexByte_percentEncoded]

theorem decodeGrpcMessageUnchecked_escapeByte (size : Nat) (b : UInt8) (rest : Bytes) :
    decodeGrpcMessageUnchecked (escapeByte size b ++ rest) =
      b :: decodeGrpcMessageUnchecked rest := by
  unfold escapeByte
  split_ifs with hsize hplain
  · exact decodeGrpcMessageUnchecked_percentEncoded b rest
  · exact decodeGrpcMessageUnchecked_cons_of_ne (plain_eq_true.mp hplain).2.2 rest
  · exact decodeGrpcMessageUnchecked_percentEncoded b rest

/-- The escape of the bytes of a rune decodes to those bytes, in front of anything. -/
theorem decodeGrpcMessageUnchecked_encodeRuneBytes (size : Nat) :
    ∀ bs rest : Bytes, decodeGrpcMessageUnchecked (encodeRuneBytes size bs ++ rest) =
      bs ++ decodeGrpcMessageUnchecked rest
  | [], _ => rfl
  | b :: bs, rest => by
    rw [encodeRuneBytes, List.flatMap_cons, List.append_assoc,
      decodeGrpcMessageUnchecked_escapeByte, ← encodeRuneBytes,
      decodeGrpcMessageUnchecked_encodeRuneBytes size bs rest, List.cons_append]

/-! ## The round trip -/

theorem encodeLoop_cons (fuel : Nat) (p0 : UInt8) (rest : Bytes) :
    encodeLoop (fuel + 1) (p0 :: rest) =
      encodeRuneBytes (DecodeRune (p0 :: rest)).2 (EncodeRune (DecodeRune (p0 :: rest)).1) ++
        encodeLoop fuel ((p0 :: rest).drop (DecodeRune (p0 :: rest)).2) := rfl

/-- **The loop's output decodes to the message with its invalid bytes replaced**, with fuel for
the whole message. -/
theorem replaced_encodeLoop (fuel : Nat) : ∀ msg : Bytes, msg.length ≤ fuel →
    Replaced msg (decodeGrpcMessageUnchecked (encodeLoop fuel msg)) := by
  -- on the fuel: each turn of the loop takes one rune, at least one byte, off the message
  induction fuel with
  | zero =>
    intro msg hlen
    rw [List.length_eq_zero_iff.mp (Nat.le_zero.mp hlen)]
    exact .nil
  | succ fuel ih =>
    rintro (_ | ⟨p0, rest⟩) hlen
    · exact .nil
    have hne : p0 :: rest ≠ [] := List.cons_ne_nil _ _
    rw [encodeLoop_cons, decodeGrpcMessageUnchecked_encodeRuneBytes]
    by_cases hinv : DecodeRune (p0 :: rest) = (RuneError, 1)
    · -- an invalid byte is read as `RuneError`, one byte long
      simp only [hinv, EncodeRune_RuneError, List.drop_succ_cons, List.drop_zero]
      exact .invalid (DecodeRune_invalid hinv) (ih rest (by simp at hlen; omega))
    · obtain ⟨c, rest', hcr, hc, hsize⟩ := char_of_DecodeRune hne hinv
      have hlen' : rest'.length ≤ fuel := by
        rw [hcr, List.length_append] at hlen
        have := hc.length_pos
        omega
      rw [EncodeRune_DecodeRune hne hinv, hsize, hcr, List.take_left' rfl, List.drop_left' rfl]
      exact .char hc (ih rest' hlen')

/-! ## What the encoder writes -/

/-- Plain bytes, and `%` with two upper-case hex digits. -/
inductive Escaped : Bytes → Prop
  | nil : Escaped []
  | byte {b : UInt8} {rest : Bytes} : plain b = true → Escaped rest → Escaped (b :: rest)
  | escape {d₁ d₂ : Nat} {rest : Bytes} : d₁ < 16 → d₂ < 16 → Escaped rest →
      Escaped (percentByte :: hexDigitUpper d₁ :: hexDigitUpper d₂ :: rest)

theorem Escaped.append {a b : Bytes} (ha : Escaped a) (hb : Escaped b) : Escaped (a ++ b) := by
  induction ha with
  | nil => exact hb
  | byte hp _ ih => exact .byte hp ih
  | escape h₁ h₂ _ ih => exact .escape h₁ h₂ ih

theorem escaped_percentEncoded (b : UInt8) : Escaped (percentEncoded b) := by
  have hb := UInt8.toNat_lt b
  exact .escape (by omega) (by omega) .nil

theorem escaped_encodeRuneBytes (size : Nat) : ∀ bs : Bytes, Escaped (encodeRuneBytes size bs)
  | [] => .nil
  | b :: bs => by
    rw [encodeRuneBytes, List.flatMap_cons, ← encodeRuneBytes]
    refine Escaped.append ?_ (escaped_encodeRuneBytes size bs)
    unfold escapeByte
    split_ifs with hsize hplain
    · exact escaped_percentEncoded b
    · exact .byte hplain .nil
    · exact escaped_percentEncoded b

theorem escaped_encodeLoop : ∀ (fuel : Nat) (msg : Bytes), Escaped (encodeLoop fuel msg)
  | 0, _ => .nil
  | _ + 1, [] => .nil
  | fuel + 1, p0 :: rest => by
    rw [encodeLoop_cons]
    exact (escaped_encodeRuneBytes _ _).append (escaped_encodeLoop fuel _)

theorem escaped_of_all_plain : ∀ msg : Bytes, msg.all plain = true → Escaped msg
  | [], _ => .nil
  | b :: rest, h => by
    rw [List.all_cons, Bool.and_eq_true] at h
    exact .byte h.1 (escaped_of_all_plain rest h.2)

/-- Every byte of an escaped message is printable ASCII. -/
theorem Escaped.printable {out : Bytes} (h : Escaped out) :
    ∀ b ∈ out, spaceByte ≤ b ∧ b ≤ tildeByte := by
  induction h with
  | nil => simp
  | byte hp _ ih =>
    have hp := plain_eq_true.mp hp
    simpa [hp.1, hp.2.1] using ih
  | escape h₁ h₂ _ ih =>
    have hd₁ := plain_eq_true.mp (plain_hexDigitUpper _ h₁)
    have hd₂ := plain_eq_true.mp (plain_hexDigitUpper _ h₂)
    have hpct : spaceByte ≤ percentByte ∧ percentByte ≤ tildeByte := by decide
    simpa [hpct, hd₁.1, hd₁.2.1, hd₂.1, hd₂.2.1] using ih

/-- Every `%` of an escaped message is followed by two upper-case hex digits. -/
theorem Escaped.percent {out : Bytes} (h : Escaped out) :
    ∀ i, out[i]? = some percentByte → ∃ d₁ d₂, d₁ < 16 ∧ d₂ < 16 ∧
      out[i + 1]? = some (hexDigitUpper d₁) ∧ out[i + 2]? = some (hexDigitUpper d₂) := by
  induction h with
  | nil => simp
  | byte hp _ ih =>
    rintro (_ | i) hi
    · -- a plain byte is not `%`
      exact absurd (Option.some.inj hi) (plain_eq_true.mp hp).2.2
    · exact ih i hi
  | @escape d₁ d₂ rest h₁ h₂ _ ih =>
    rintro (_ | _ | _ | i) hi
    · exact ⟨d₁, d₂, h₁, h₂, rfl, rfl⟩
    · exact absurd (Option.some.inj hi) (plain_eq_true.mp (plain_hexDigitUpper _ h₁)).2.2
    · exact absurd (Option.some.inj hi) (plain_eq_true.mp (plain_hexDigitUpper _ h₂)).2.2
    · exact ih i hi

/-! ## The fast paths -/

/-- A plain message is its own encoding. -/
theorem encodeLoop_of_all_plain : ∀ (fuel : Nat) (msg : Bytes), msg.all plain = true →
    msg.length ≤ fuel → encodeLoop fuel msg = msg
  | 0, [], _, _ => rfl
  | _ + 1, [], _, _ => rfl
  | fuel + 1, b :: rest, h, hlen => by
    rw [List.all_cons, Bool.and_eq_true] at h
    have hb := plain_eq_true.mp h.1
    -- a plain byte is a one-byte character
    have hone : Char [b] := .one (by
      have := hb.2.1
      simp only [tildeByte, UInt8.le_iff_toNat_le] at this
      exact this.trans (by decide))
    obtain ⟨r, hr, henc⟩ := DecodeRune_of_char hone rest
    rw [List.singleton_append] at hr
    rw [encodeLoop_cons, hr, henc]
    simp only [List.length_singleton, List.drop_succ_cons, List.drop_zero]
    rw [encodeLoop_of_all_plain fuel rest h.2 (by simp at hlen; omega)]
    simp [encodeRuneBytes, escapeByte, h.1]

theorem encodeGrpcMessage_eq_unchecked (msg : Bytes) :
    encodeGrpcMessage msg = encodeGrpcMessageUnchecked msg := by
  unfold encodeGrpcMessage encodeGrpcMessageUnchecked
  split_ifs with hnil hplain
  · rw [hnil]
    rfl
  · exact (encodeLoop_of_all_plain _ msg hplain le_rfl).symm
  · rfl

/-- A message in which no `%` has two bytes after it decodes to itself. -/
theorem decodeGrpcMessageUnchecked_of_not_hasEscape :
    ∀ msg : Bytes, hasEscape msg = false → decodeGrpcMessageUnchecked msg = msg
  | c :: h1 :: h2 :: rest, h => by
    rw [hasEscape, Bool.or_eq_false_iff, beq_eq_false_iff_ne] at h
    rw [decodeGrpcMessageUnchecked, if_neg h.1,
      decodeGrpcMessageUnchecked_of_not_hasEscape (h1 :: h2 :: rest) h.2]
  | [_, _], _ => rfl
  | [_], _ => rfl
  | [], _ => rfl

theorem decodeGrpcMessage_eq_unchecked (msg : Bytes) :
    decodeGrpcMessage msg = decodeGrpcMessageUnchecked msg := by
  unfold decodeGrpcMessage
  split_ifs with hnil hesc
  · rw [hnil]
    rfl
  · rfl
  · exact (decodeGrpcMessageUnchecked_of_not_hasEscape msg (by simpa using hesc)).symm

/-- **`grpc-message` round trip.**  Decoding the encoding of a message gives the message with
every byte that begins no UTF-8 character replaced by U+FFFD (that replacement being a function
of the message), so a valid message comes back whole; and the encoding is printable ASCII in
which every `%` is followed by two upper-case hex digits. -/
theorem grpcMessage_roundtrip (msg : Bytes) :
    Replaced msg (decodeGrpcMessage (encodeGrpcMessage msg)) ∧
      (∀ out, Replaced msg out → out = decodeGrpcMessage (encodeGrpcMessage msg)) ∧
      (Valid msg → decodeGrpcMessage (encodeGrpcMessage msg) = msg) ∧
      (∀ b ∈ encodeGrpcMessage msg, spaceByte ≤ b ∧ b ≤ tildeByte) ∧
      ∀ i, (encodeGrpcMessage msg)[i]? = some percentByte → ∃ d₁ d₂, d₁ < 16 ∧ d₂ < 16 ∧
        (encodeGrpcMessage msg)[i + 1]? = some (hexDigitUpper d₁) ∧
        (encodeGrpcMessage msg)[i + 2]? = some (hexDigitUpper d₂) := by
  have hr : Replaced msg (decodeGrpcMessage (encodeGrpcMessage msg)) := by
    rw [decodeGrpcMessage_eq_unchecked, encodeGrpcMessage_eq_unchecked]
    exact replaced_encodeLoop _ msg le_rfl
  have he : Escaped (encodeGrpcMessage msg) := by
    rw [encodeGrpcMessage_eq_unchecked]
    exact escaped_encodeLoop _ msg
  exact ⟨hr, fun out h => h.unique hr, fun hv => hr.unique (Replaced.of_valid hv), he.printable,
    he.percent⟩

end Transport
end GrpcGo
