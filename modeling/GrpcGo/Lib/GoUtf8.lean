import GrpcGo.Lib.GoStrings

/-!
# Go's `unicode/utf8`

`DecodeRune` and `EncodeRune` (which the conversion `string(r)` performs) over byte lists, with
runes as natural numbers.  Go's bit operations are written arithmetically: a mask `& (2^k - 1)`
is `% 2^k`, a shift is a product or a quotient by `2^k`, and an `|` of disjoint bit fields is
`+`.

`Char` is a UTF-8 character as RFC 3629 §4 writes its syntax, one constructor per alternative.
`DecodeRune` reads exactly those: when the bytes begin with a character it returns its length
(`DecodeRune_of_char`), and whatever it returns other than the one-byte `RuneError` of an invalid
byte is a character, whose rune `EncodeRune` turns back into its bytes (`char_of_DecodeRune`).
-/

namespace GoStd
namespace Utf8

/-- `utf8.RuneError`, U+FFFD. -/
def RuneError : Nat := 0xFFFD

/-- `utf8.MaxRune`. -/
def MaxRune : Nat := 0x10FFFF

/-- The default bounds of a continuation byte, `locb` and `hicb`. -/
def locb : Nat := 0x80
def hicb : Nat := 0xBF

/-! ## RFC 3629 -/

/-- `UTF8-tail = %x80-BF`. -/
def Tail (b : UInt8) : Prop := 0x80 ≤ b.toNat ∧ b.toNat ≤ 0xBF

/-- `UTF8-char`, an alternative of RFC 3629 §4 each. -/
inductive Char : Bytes → Prop
  /-- `%x00-7F` -/
  | one {a : UInt8} : a.toNat ≤ 0x7F → Char [a]
  /-- `%xC2-DF UTF8-tail` -/
  | two {a b : UInt8} : 0xC2 ≤ a.toNat → a.toNat ≤ 0xDF → Tail b → Char [a, b]
  /-- `%xE0 %xA0-BF UTF8-tail` -/
  | e0 {a b c : UInt8} : a.toNat = 0xE0 → 0xA0 ≤ b.toNat → b.toNat ≤ 0xBF → Tail c →
      Char [a, b, c]
  /-- `%xE1-EC 2( UTF8-tail )` -/
  | e1ec {a b c : UInt8} : 0xE1 ≤ a.toNat → a.toNat ≤ 0xEC → Tail b → Tail c → Char [a, b, c]
  /-- `%xED %x80-9F UTF8-tail` -/
  | ed {a b c : UInt8} : a.toNat = 0xED → 0x80 ≤ b.toNat → b.toNat ≤ 0x9F → Tail c →
      Char [a, b, c]
  /-- `%xEE-EF 2( UTF8-tail )` -/
  | eeef {a b c : UInt8} : 0xEE ≤ a.toNat → a.toNat ≤ 0xEF → Tail b → Tail c → Char [a, b, c]
  /-- `%xF0 %x90-BF 2( UTF8-tail )` -/
  | f0 {a b c d : UInt8} : a.toNat = 0xF0 → 0x90 ≤ b.toNat → b.toNat ≤ 0xBF → Tail c → Tail d →
      Char [a, b, c, d]
  /-- `%xF1-F3 3( UTF8-tail )` -/
  | f1f3 {a b c d : UInt8} : 0xF1 ≤ a.toNat → a.toNat ≤ 0xF3 → Tail b → Tail c → Tail d →
      Char [a, b, c, d]
  /-- `%xF4 %x80-8F 2( UTF8-tail )` -/
  | f4 {a b c d : UInt8} : a.toNat = 0xF4 → 0x80 ≤ b.toNat → b.toNat ≤ 0x8F → Tail c → Tail d →
      Char [a, b, c, d]

/-! ## Decoding -/

/-- What the table `first` says of a first byte. -/
inductive firstByte
  /-- `as`: an ASCII byte, a rune of its own. -/
  | ascii
  /-- `xx`: a byte that starts no sequence. -/
  | invalid
  /-- The length of the sequence it starts and the bounds of the second byte (`acceptRanges`). -/
  | starts (sz lo hi : Nat)

/-- `first[p0]` with its `acceptRanges` entry. -/
def first (p0 : Nat) : firstByte :=
  if p0 ≤ 0x7F then .ascii
  else if p0 ≤ 0xC1 then .invalid
  else if p0 ≤ 0xDF then .starts 2 0x80 0xBF
  else if p0 = 0xE0 then .starts 3 0xA0 0xBF
  else if p0 ≤ 0xEC then .starts 3 0x80 0xBF
  else if p0 = 0xED then .starts 3 0x80 0x9F
  else if p0 ≤ 0xEF then .starts 3 0x80 0xBF
  else if p0 = 0xF0 then .starts 4 0x90 0xBF
  else if p0 ≤ 0xF3 then .starts 4 0x80 0xBF
  else if p0 = 0xF4 then .starts 4 0x80 0x8F
  else .invalid

/-- `DecodeRune` after a first byte `p0` that starts a sequence of `sz` bytes, on the bytes after
it: the length check `n < sz`, then each continuation byte against its bounds. -/
def decodeTail (p0 sz lo hi : Nat) : Bytes → Nat × Nat
  | b1 :: rest =>
    if rest.length + 2 < sz then (RuneError, 1)
    else if b1.toNat < lo ∨ hi < b1.toNat then (RuneError, 1)
    else if sz ≤ 2 then (p0 % 32 * 64 + b1.toNat % 64, 2)
    else
      match rest with
      | b2 :: rest =>
        if b2.toNat < locb ∨ hicb < b2.toNat then (RuneError, 1)
        else if sz ≤ 3 then (p0 % 16 * 4096 + b1.toNat % 64 * 64 + b2.toNat % 64, 3)
        else
          match rest with
          | b3 :: _ =>
            if b3.toNat < locb ∨ hicb < b3.toNat then (RuneError, 1)
            else (p0 % 8 * 262144 + b1.toNat % 64 * 4096 + b2.toNat % 64 * 64 + b3.toNat % 64, 4)
          | [] => (RuneError, 1)
      | [] => (RuneError, 1)
  | [] => (RuneError, 1)

/-- `utf8.DecodeRune(p)`: the first rune of `p` and its length in bytes. -/
def DecodeRune : Bytes → Nat × Nat
  | [] => (RuneError, 0)
  | p0 :: rest =>
    match first p0.toNat with
    | .ascii => (p0.toNat, 1)
    | .invalid => (RuneError, 1)
    | .starts sz lo hi => decodeTail p0.toNat sz lo hi rest

/-! ## Encoding -/

/-- `utf8.EncodeRune` (and `string(r)`): the bytes of `r`, of `RuneError` for a rune past
`MaxRune` or a surrogate. -/
def EncodeRune (r : Nat) : Bytes :=
  if r ≤ 0x7F then [UInt8.ofNat r]
  else if r ≤ 0x7FF then [UInt8.ofNat (0xC0 + r / 64), UInt8.ofNat (0x80 + r % 64)]
  else
    let r := if MaxRune < r ∨ (0xD800 ≤ r ∧ r ≤ 0xDFFF) then RuneError else r
    if r ≤ 0xFFFF then
      [UInt8.ofNat (0xE0 + r / 4096), UInt8.ofNat (0x80 + r / 64 % 64),
        UInt8.ofNat (0x80 + r % 64)]
    else
      [UInt8.ofNat (0xF0 + r / 262144), UInt8.ofNat (0x80 + r / 4096 % 64),
        UInt8.ofNat (0x80 + r / 64 % 64), UInt8.ofNat (0x80 + r % 64)]

theorem EncodeRune_RuneError : EncodeRune RuneError = [0xEF, 0xBF, 0xBD] := by decide

example : DecodeRune [0xE2, 0x82, 0xAC] = (0x20AC, 3) := by decide

/-! ## Encoding what was decoded -/

theorem ofNat_eq {x : Nat} {b : UInt8} (h : x = b.toNat) : UInt8.ofNat x = b := by
  rw [h, UInt8.ofNat_toNat]

theorem EncodeRune_one {a : UInt8} (ha : a.toNat ≤ 0x7F) : EncodeRune a.toNat = [a] := by
  rw [EncodeRune, if_pos ha, UInt8.ofNat_toNat]

theorem EncodeRune_two {a b : UInt8} (ha : 0xC2 ≤ a.toNat) (ha' : a.toNat ≤ 0xDF) (hb : Tail b) :
    EncodeRune (a.toNat % 32 * 64 + b.toNat % 64) = [a, b] := by
  obtain ⟨hb, hb'⟩ := hb
  rw [EncodeRune, if_neg (by omega), if_pos (by omega), List.cons.injEq, List.cons.injEq]
  exact ⟨ofNat_eq (by omega), ofNat_eq (by omega), rfl⟩

/-- The three bytes of a rune above `0x7FF`, up to `0xFFFF` and off the surrogates. -/
theorem EncodeRune_of_three {r : Nat} (h : 0x7FF < r) (h' : r ≤ 0xFFFF)
    (hs : r < 0xD800 ∨ 0xDFFF < r) :
    EncodeRune r = [UInt8.ofNat (0xE0 + r / 4096), UInt8.ofNat (0x80 + r / 64 % 64),
      UInt8.ofNat (0x80 + r % 64)] := by
  have hvalid : ¬(MaxRune < r ∨ (0xD800 ≤ r ∧ r ≤ 0xDFFF)) := by
    unfold MaxRune
    omega
  rw [EncodeRune, if_neg (by omega), if_neg (by omega)]
  simp only [hvalid, if_false]
  rw [if_pos h']

/-- The four bytes of a rune above `0xFFFF`, up to `MaxRune`. -/
theorem EncodeRune_of_four {r : Nat} (h : 0xFFFF < r) (h' : r ≤ MaxRune) :
    EncodeRune r = [UInt8.ofNat (0xF0 + r / 262144), UInt8.ofNat (0x80 + r / 4096 % 64),
      UInt8.ofNat (0x80 + r / 64 % 64), UInt8.ofNat (0x80 + r % 64)] := by
  have hvalid : ¬(MaxRune < r ∨ (0xD800 ≤ r ∧ r ≤ 0xDFFF)) := by omega
  rw [EncodeRune, if_neg (by omega), if_neg (by omega)]
  simp only [hvalid, if_false]
  rw [if_neg (by omega)]

/-- The base-64 digits of a number of three of them. -/
theorem digits64_three {q b c : Nat} (hb : b < 64) (hc : c < 64) :
    (q * 4096 + b * 64 + c) / 4096 = q ∧ (q * 4096 + b * 64 + c) / 64 % 64 = b ∧
      (q * 4096 + b * 64 + c) % 64 = c := by
  omega

/-- The base-64 digits of a number of four of them. -/
theorem digits64_four {q b c d : Nat} (hb : b < 64) (hc : c < 64) (hd : d < 64) :
    (q * 262144 + b * 4096 + c * 64 + d) / 262144 = q ∧
      (q * 262144 + b * 4096 + c * 64 + d) / 4096 % 64 = b ∧
      (q * 262144 + b * 4096 + c * 64 + d) / 64 % 64 = c ∧
      (q * 262144 + b * 4096 + c * 64 + d) % 64 = d := by
  omega

/-- A continuation byte is `0x80` plus its low six bits. -/
theorem Tail.eq {b : UInt8} (hb : Tail b) : 0x80 + b.toNat % 64 = b.toNat := by
  obtain ⟨hb, hb'⟩ := hb
  omega

/-- A three-byte sequence, above `0x7FF` and off the surrogates by its second byte. -/
theorem EncodeRune_three {a b c : UInt8} (ha : 0xE0 ≤ a.toNat) (ha' : a.toNat ≤ 0xEF)
    (hb : Tail b) (hc : Tail c) (hlo : 0xE0 < a.toNat ∨ 0xA0 ≤ b.toNat)
    (hsur : a.toNat ≠ 0xED ∨ b.toNat ≤ 0x9F) :
    EncodeRune (a.toNat % 16 * 4096 + b.toNat % 64 * 64 + c.toNat % 64) = [a, b, c] := by
  obtain ⟨hq, hb64, hc64⟩ := digits64_three (q := a.toNat % 16) (Nat.mod_lt b.toNat (by decide))
    (Nat.mod_lt c.toNat (by decide))
  have ⟨hb₁, hb₂⟩ := hb
  rw [EncodeRune_of_three (by omega) (by omega) (by omega), hq, hb64, hc64, hb.eq, hc.eq]
  rw [List.cons.injEq, List.cons.injEq, List.cons.injEq]
  exact ⟨ofNat_eq (by omega), UInt8.ofNat_toNat, UInt8.ofNat_toNat, rfl⟩

/-- A four-byte sequence, above `0xFFFF` and up to `MaxRune` by its second byte. -/
theorem EncodeRune_four {a b c d : UInt8} (ha : 0xF0 ≤ a.toNat) (ha' : a.toNat ≤ 0xF4)
    (hb : Tail b) (hc : Tail c) (hd : Tail d) (hlo : 0xF0 < a.toNat ∨ 0x90 ≤ b.toNat)
    (hhi : a.toNat < 0xF4 ∨ b.toNat ≤ 0x8F) :
    EncodeRune (a.toNat % 8 * 262144 + b.toNat % 64 * 4096 + c.toNat % 64 * 64 + d.toNat % 64) =
      [a, b, c, d] := by
  obtain ⟨hq, hb64, hc64, hd64⟩ := digits64_four (q := a.toNat % 8) (Nat.mod_lt b.toNat (by decide))
    (Nat.mod_lt c.toNat (by decide)) (Nat.mod_lt d.toNat (by decide))
  have ⟨hb₁, hb₂⟩ := hb
  rw [EncodeRune_of_four (by omega) (by unfold MaxRune; omega), hq, hb64, hc64, hd64, hb.eq, hc.eq,
    hd.eq]
  rw [List.cons.injEq, List.cons.injEq, List.cons.injEq, List.cons.injEq]
  exact ⟨ofNat_eq (by omega), UInt8.ofNat_toNat, UInt8.ofNat_toNat, UInt8.ofNat_toNat, rfl⟩

/-! ## Decoding a character -/

/-- `decodeTail` reads a two-byte sequence whose second byte is within its bounds. -/
theorem decodeTail_two_eq (p0 : Nat) {lo hi : Nat} {b1 : UInt8}
    (hb1 : lo ≤ b1.toNat ∧ b1.toNat ≤ hi) (rest : Bytes) :
    decodeTail p0 2 lo hi (b1 :: rest) = (p0 % 32 * 64 + b1.toNat % 64, 2) := by
  simp only [decodeTail]
  rw [if_neg (by simp), if_neg (by omega), if_pos le_rfl]

/-- `decodeTail` reads a three-byte sequence whose bytes are within their bounds. -/
theorem decodeTail_three_eq (p0 : Nat) {lo hi : Nat} {b1 b2 : UInt8}
    (hb1 : lo ≤ b1.toNat ∧ b1.toNat ≤ hi) (hb2 : Tail b2) (rest : Bytes) :
    decodeTail p0 3 lo hi (b1 :: b2 :: rest) =
      (p0 % 16 * 4096 + b1.toNat % 64 * 64 + b2.toNat % 64, 3) := by
  obtain ⟨hb2, hb2'⟩ := hb2
  simp only [decodeTail]
  rw [if_neg (by simp), if_neg (by omega), if_neg (by decide),
    if_neg (by unfold locb hicb; omega), if_pos le_rfl]

/-- `decodeTail` reads a four-byte sequence whose bytes are within their bounds. -/
theorem decodeTail_four_eq (p0 : Nat) {lo hi : Nat} {b1 b2 b3 : UInt8}
    (hb1 : lo ≤ b1.toNat ∧ b1.toNat ≤ hi) (hb2 : Tail b2) (hb3 : Tail b3) (rest : Bytes) :
    decodeTail p0 4 lo hi (b1 :: b2 :: b3 :: rest) =
      (p0 % 8 * 262144 + b1.toNat % 64 * 4096 + b2.toNat % 64 * 64 + b3.toNat % 64, 4) := by
  obtain ⟨hb2, hb2'⟩ := hb2
  obtain ⟨hb3, hb3'⟩ := hb3
  simp only [decodeTail]
  rw [if_neg (by simp), if_neg (by omega), if_neg (by decide),
    if_neg (by unfold locb hicb; omega), if_neg (by decide), if_neg (by unfold locb hicb; omega)]

/-- `DecodeRune` reads a character at the front whole, and its rune encodes back to it. -/
theorem DecodeRune_of_char {c : Bytes} (hc : Char c) (rest : Bytes) :
    ∃ r, DecodeRune (c ++ rest) = (r, c.length) ∧ EncodeRune r = c := by
  -- each alternative: the table `first` gives the length and the bounds of the second byte,
  -- and `decodeTail` reads the bytes within them
  cases hc with
  | @one a ha =>
    refine ⟨_, ?_, EncodeRune_one ha⟩
    have hfirst : first a.toNat = .ascii := if_pos ha
    simp only [List.cons_append, List.nil_append, DecodeRune, hfirst, List.length_singleton]
  | @two a b ha ha' hb =>
    refine ⟨_, ?_, EncodeRune_two ha ha' hb⟩
    have hfirst : first a.toNat = .starts 2 0x80 0xBF := by
      simp (disch := omega) only [first, if_pos, if_neg]
    simp only [List.cons_append, List.nil_append, DecodeRune, hfirst]
    exact decodeTail_two_eq _ hb rest
  | @e0 a b c ha hb hb' hc =>
    refine ⟨_, ?_, EncodeRune_three (by omega) (by omega) ⟨by omega, hb'⟩ hc (by omega) (by omega)⟩
    have hfirst : first a.toNat = .starts 3 0xA0 0xBF := by
      simp (disch := omega) only [first, if_pos, if_neg]
    simp only [List.cons_append, List.nil_append, DecodeRune, hfirst]
    exact decodeTail_three_eq _ ⟨hb, hb'⟩ hc rest
  | @e1ec a b c ha ha' hb hc =>
    refine ⟨_, ?_, EncodeRune_three (by omega) (by omega) hb hc (by omega) (by omega)⟩
    have hfirst : first a.toNat = .starts 3 0x80 0xBF := by
      simp (disch := omega) only [first, if_pos, if_neg]
    simp only [List.cons_append, List.nil_append, DecodeRune, hfirst]
    exact decodeTail_three_eq _ hb hc rest
  | @ed a b c ha hb hb' hc =>
    refine ⟨_, ?_, EncodeRune_three (by omega) (by omega) ⟨hb, by omega⟩ hc (by omega) (by omega)⟩
    have hfirst : first a.toNat = .starts 3 0x80 0x9F := by
      simp (disch := omega) only [first, if_pos, if_neg]
    simp only [List.cons_append, List.nil_append, DecodeRune, hfirst]
    exact decodeTail_three_eq _ ⟨hb, hb'⟩ hc rest
  | @eeef a b c ha ha' hb hc =>
    refine ⟨_, ?_, EncodeRune_three (by omega) (by omega) hb hc (by omega) (by omega)⟩
    have hfirst : first a.toNat = .starts 3 0x80 0xBF := by
      simp (disch := omega) only [first, if_pos, if_neg]
    simp only [List.cons_append, List.nil_append, DecodeRune, hfirst]
    exact decodeTail_three_eq _ hb hc rest
  | @f0 a b c d ha hb hb' hc hd =>
    refine ⟨_, ?_, EncodeRune_four (by omega) (by omega) ⟨by omega, hb'⟩ hc hd (by omega)
      (by omega)⟩
    have hfirst : first a.toNat = .starts 4 0x90 0xBF := by
      simp (disch := omega) only [first, if_pos, if_neg]
    simp only [List.cons_append, List.nil_append, DecodeRune, hfirst]
    exact decodeTail_four_eq _ ⟨hb, hb'⟩ hc hd rest
  | @f1f3 a b c d ha ha' hb hc hd =>
    refine ⟨_, ?_, EncodeRune_four (by omega) (by omega) hb hc hd (by omega) (by omega)⟩
    have hfirst : first a.toNat = .starts 4 0x80 0xBF := by
      simp (disch := omega) only [first, if_pos, if_neg]
    simp only [List.cons_append, List.nil_append, DecodeRune, hfirst]
    exact decodeTail_four_eq _ hb hc hd rest
  | @f4 a b c d ha hb hb' hc hd =>
    refine ⟨_, ?_, EncodeRune_four (by omega) (by omega) ⟨hb, by omega⟩ hc hd (by omega)
      (by omega)⟩
    have hfirst : first a.toNat = .starts 4 0x80 0x8F := by
      simp (disch := omega) only [first, if_pos, if_neg]
    simp only [List.cons_append, List.nil_append, DecodeRune, hfirst]
    exact decodeTail_four_eq _ ⟨hb, hb'⟩ hc hd rest

/-! ## What `DecodeRune` accepts is a character -/

theorem first_eq_ascii {n : Nat} (h : first n = .ascii) : n ≤ 0x7F := by
  unfold first at h
  -- every other branch of the table is `.invalid` or `.starts`
  grind

/-- The first bytes that start a sequence, with its length and the bounds of its second byte. -/
theorem first_eq_starts {n sz lo hi : Nat} (h : first n = .starts sz lo hi) :
    (sz = 2 ∧ lo = 0x80 ∧ hi = 0xBF ∧ 0xC2 ≤ n ∧ n ≤ 0xDF) ∨
    (sz = 3 ∧ lo = 0xA0 ∧ hi = 0xBF ∧ n = 0xE0) ∨
    (sz = 3 ∧ lo = 0x80 ∧ hi = 0xBF ∧ 0xE1 ≤ n ∧ n ≤ 0xEC) ∨
    (sz = 3 ∧ lo = 0x80 ∧ hi = 0x9F ∧ n = 0xED) ∨
    (sz = 3 ∧ lo = 0x80 ∧ hi = 0xBF ∧ 0xEE ≤ n ∧ n ≤ 0xEF) ∨
    (sz = 4 ∧ lo = 0x90 ∧ hi = 0xBF ∧ n = 0xF0) ∨
    (sz = 4 ∧ lo = 0x80 ∧ hi = 0xBF ∧ 0xF1 ≤ n ∧ n ≤ 0xF3) ∨
    (sz = 4 ∧ lo = 0x80 ∧ hi = 0x8F ∧ n = 0xF4) := by
  unfold first at h
  -- down the table one row at a time (faster than splitting all its conditions at once): each
  -- row that starts a sequence is one disjunct, the others contradict `h`
  by_cases h₁ : n ≤ 0x7F
  · rw [if_pos h₁] at h; cases h
  rw [if_neg h₁] at h
  by_cases h₂ : n ≤ 0xC1
  · rw [if_pos h₂] at h; cases h
  rw [if_neg h₂] at h
  by_cases h₃ : n ≤ 0xDF
  · rw [if_pos h₃] at h; cases h
    exact .inl ⟨rfl, rfl, rfl, by omega, h₃⟩
  rw [if_neg h₃] at h
  by_cases h₄ : n = 0xE0
  · rw [if_pos h₄] at h; cases h
    exact .inr <| .inl ⟨rfl, rfl, rfl, h₄⟩
  rw [if_neg h₄] at h
  by_cases h₅ : n ≤ 0xEC
  · rw [if_pos h₅] at h; cases h
    exact .inr <| .inr <| .inl ⟨rfl, rfl, rfl, by omega, h₅⟩
  rw [if_neg h₅] at h
  by_cases h₆ : n = 0xED
  · rw [if_pos h₆] at h; cases h
    exact .inr <| .inr <| .inr <| .inl ⟨rfl, rfl, rfl, h₆⟩
  rw [if_neg h₆] at h
  by_cases h₇ : n ≤ 0xEF
  · rw [if_pos h₇] at h; cases h
    exact .inr <| .inr <| .inr <| .inr <| .inl ⟨rfl, rfl, rfl, by omega, h₇⟩
  rw [if_neg h₇] at h
  by_cases h₈ : n = 0xF0
  · rw [if_pos h₈] at h; cases h
    exact .inr <| .inr <| .inr <| .inr <| .inr <| .inl ⟨rfl, rfl, rfl, h₈⟩
  rw [if_neg h₈] at h
  by_cases h₉ : n ≤ 0xF3
  · rw [if_pos h₉] at h; cases h
    exact .inr <| .inr <| .inr <| .inr <| .inr <| .inr <| .inl ⟨rfl, rfl, rfl, by omega, h₉⟩
  rw [if_neg h₉] at h
  by_cases h₁₀ : n = 0xF4
  · rw [if_pos h₁₀] at h; cases h
    exact .inr <| .inr <| .inr <| .inr <| .inr <| .inr <| .inr ⟨rfl, rfl, rfl, h₁₀⟩
  rw [if_neg h₁₀] at h
  cases h

/-- A two-byte sequence that decodes. -/
theorem decodeTail_two {p0 lo hi : Nat} {rest : Bytes}
    (h : decodeTail p0 2 lo hi rest ≠ (RuneError, 1)) :
    ∃ b1 rest₁, rest = b1 :: rest₁ ∧ lo ≤ b1.toNat ∧ b1.toNat ≤ hi ∧
      decodeTail p0 2 lo hi rest = (p0 % 32 * 64 + b1.toNat % 64, 2) := by
  rcases rest with _ | ⟨b1, rest₁⟩
  · exact absurd rfl h
  · simp only [decodeTail, le_refl, ↓reduceIte] at h ⊢
    split_ifs at h with h₁ h₂
    · exact absurd rfl h
    · exact absurd rfl h
    · exact ⟨b1, rest₁, rfl, by omega, by omega, by rw [if_neg h₁, if_neg h₂]⟩

/-- A three-byte sequence that decodes. -/
theorem decodeTail_three {p0 lo hi : Nat} {rest : Bytes}
    (h : decodeTail p0 3 lo hi rest ≠ (RuneError, 1)) :
    ∃ b1 b2 rest₂, rest = b1 :: b2 :: rest₂ ∧ lo ≤ b1.toNat ∧ b1.toNat ≤ hi ∧ Tail b2 ∧
      decodeTail p0 3 lo hi rest = (p0 % 16 * 4096 + b1.toNat % 64 * 64 + b2.toNat % 64, 3) := by
  rcases rest with _ | ⟨b1, _ | ⟨b2, rest₂⟩⟩
  · exact absurd rfl h
  · simp [decodeTail] at h
  · have h32 : ¬(3 ≤ 2) := by decide
    simp only [decodeTail, h32, le_refl, ↓reduceIte] at h ⊢
    split_ifs at h with h₁ h₂ h₃
    · exact absurd rfl h
    · exact absurd rfl h
    · exact absurd rfl h
    · unfold locb hicb at h₃
      exact ⟨b1, b2, rest₂, rfl, by omega, by omega, ⟨by omega, by omega⟩,
        by rw [if_neg h₁, if_neg h₂, if_neg (by unfold locb hicb; exact h₃)]⟩

/-- A four-byte sequence that decodes. -/
theorem decodeTail_four {p0 lo hi : Nat} {rest : Bytes}
    (h : decodeTail p0 4 lo hi rest ≠ (RuneError, 1)) :
    ∃ b1 b2 b3 rest₃, rest = b1 :: b2 :: b3 :: rest₃ ∧ lo ≤ b1.toNat ∧ b1.toNat ≤ hi ∧
      Tail b2 ∧ Tail b3 ∧
      decodeTail p0 4 lo hi rest =
        (p0 % 8 * 262144 + b1.toNat % 64 * 4096 + b2.toNat % 64 * 64 + b3.toNat % 64, 4) := by
  rcases rest with _ | ⟨b1, _ | ⟨b2, _ | ⟨b3, rest₃⟩⟩⟩
  · exact absurd rfl h
  · simp [decodeTail] at h
  · simp [decodeTail] at h
  · have h42 : ¬(4 ≤ 2) := by decide
    have h43 : ¬(4 ≤ 3) := by decide
    simp only [decodeTail, h42, h43, ↓reduceIte] at h ⊢
    split_ifs at h with h₁ h₂ h₃ h₄
    · exact absurd rfl h
    · exact absurd rfl h
    · exact absurd rfl h
    · exact absurd rfl h
    · unfold locb hicb at h₃ h₄
      exact ⟨b1, b2, b3, rest₃, rfl, by omega, by omega, ⟨by omega, by omega⟩, ⟨by omega, by omega⟩,
        by rw [if_neg h₁, if_neg h₂, if_neg (by unfold locb hicb; exact h₃),
          if_neg (by unfold locb hicb; exact h₄)]⟩

/-- What `DecodeRune` returns, other than the `RuneError` of an invalid byte, is a character at
the front of the bytes, of the length it returns. -/
theorem char_of_DecodeRune {p : Bytes} (hp : p ≠ []) (h : DecodeRune p ≠ (RuneError, 1)) :
    ∃ c rest, p = c ++ rest ∧ Char c ∧ (DecodeRune p).2 = c.length := by
  obtain ⟨p0, rest, rfl⟩ := List.exists_cons_of_ne_nil hp
  simp only [DecodeRune] at h ⊢
  split at h
  · rename_i hf
    exact ⟨[p0], rest, rfl, .one (first_eq_ascii hf), rfl⟩
  · exact absurd rfl h
  · rename_i sz lo hi hf
    -- the first byte fixes the length and the bounds of the second byte
    rcases first_eq_starts hf with ⟨rfl, rfl, rfl, h1, h2⟩ | ⟨rfl, rfl, rfl, h1⟩ |
        ⟨rfl, rfl, rfl, h1, h2⟩ | ⟨rfl, rfl, rfl, h1⟩ | ⟨rfl, rfl, rfl, h1, h2⟩ |
        ⟨rfl, rfl, rfl, h1⟩ | ⟨rfl, rfl, rfl, h1, h2⟩ | ⟨rfl, rfl, rfl, h1⟩
    · obtain ⟨b1, rest₁, rfl, hb1, hb1', heq⟩ := decodeTail_two h
      exact ⟨[p0, b1], rest₁, rfl, .two h1 h2 ⟨hb1, hb1'⟩, by rw [heq]; rfl⟩
    · obtain ⟨b1, b2, rest₂, rfl, hb1, hb1', hb2, heq⟩ := decodeTail_three h
      exact ⟨[p0, b1, b2], rest₂, rfl, .e0 h1 hb1 hb1' hb2, by rw [heq]; rfl⟩
    · obtain ⟨b1, b2, rest₂, rfl, hb1, hb1', hb2, heq⟩ := decodeTail_three h
      exact ⟨[p0, b1, b2], rest₂, rfl, .e1ec h1 h2 ⟨hb1, hb1'⟩ hb2, by rw [heq]; rfl⟩
    · obtain ⟨b1, b2, rest₂, rfl, hb1, hb1', hb2, heq⟩ := decodeTail_three h
      exact ⟨[p0, b1, b2], rest₂, rfl, .ed h1 hb1 hb1' hb2, by rw [heq]; rfl⟩
    · obtain ⟨b1, b2, rest₂, rfl, hb1, hb1', hb2, heq⟩ := decodeTail_three h
      exact ⟨[p0, b1, b2], rest₂, rfl, .eeef h1 h2 ⟨hb1, hb1'⟩ hb2, by rw [heq]; rfl⟩
    · obtain ⟨b1, b2, b3, rest₃, rfl, hb1, hb1', hb2, hb3, heq⟩ := decodeTail_four h
      exact ⟨[p0, b1, b2, b3], rest₃, rfl, .f0 h1 hb1 hb1' hb2 hb3, by rw [heq]; rfl⟩
    · obtain ⟨b1, b2, b3, rest₃, rfl, hb1, hb1', hb2, hb3, heq⟩ := decodeTail_four h
      exact ⟨[p0, b1, b2, b3], rest₃, rfl, .f1f3 h1 h2 ⟨hb1, hb1'⟩ hb2 hb3, by rw [heq]; rfl⟩
    · obtain ⟨b1, b2, b3, rest₃, rfl, hb1, hb1', hb2, hb3, heq⟩ := decodeTail_four h
      exact ⟨[p0, b1, b2, b3], rest₃, rfl, .f4 h1 hb1 hb1' hb2 hb3, by rw [heq]; rfl⟩

/-- **Decoding then encoding gives the bytes back**, for everything `DecodeRune` decodes but an
invalid byte. -/
theorem EncodeRune_DecodeRune {p : Bytes} (hp : p ≠ []) (h : DecodeRune p ≠ (RuneError, 1)) :
    EncodeRune (DecodeRune p).1 = p.take (DecodeRune p).2 := by
  obtain ⟨c, rest, rfl, hc, -⟩ := char_of_DecodeRune hp h
  obtain ⟨r, hr, henc⟩ := DecodeRune_of_char hc rest
  rw [hr, List.take_left' rfl]
  exact henc

theorem Char.length_pos {c : Bytes} (hc : Char c) : 0 < c.length := by
  cases hc <;> simp

/-- `DecodeRune` reads at least one byte and no more than there are. -/
theorem DecodeRune_size {p : Bytes} (hp : p ≠ []) :
    1 ≤ (DecodeRune p).2 ∧ (DecodeRune p).2 ≤ p.length := by
  by_cases h : DecodeRune p = (RuneError, 1)
  · rw [h]
    exact ⟨le_rfl, List.length_pos_iff.mpr hp⟩
  · obtain ⟨c, rest, rfl, hc, hlen⟩ := char_of_DecodeRune hp h
    rw [hlen, List.length_append]
    exact ⟨hc.length_pos, Nat.le_add_right _ _⟩

/-! ## Valid bytes, and the replacement of invalid ones -/

/-- A character is the only one at the front of its bytes: UTF-8 is a prefix code. -/
theorem Char.prefix_unique {c c' r r' : Bytes} (hc : Char c) (hc' : Char c')
    (h : c ++ r = c' ++ r') : c = c' := by
  obtain ⟨x, hx, henc⟩ := DecodeRune_of_char hc r
  obtain ⟨x', hx', henc'⟩ := DecodeRune_of_char hc' r'
  rw [h, hx'] at hx
  rw [← henc, ← henc', (Prod.mk.inj hx).1]

/-- The one-byte `RuneError` is returned only where no character begins. -/
theorem DecodeRune_invalid {p : Bytes} (h : DecodeRune p = (RuneError, 1)) :
    ∀ c, c <+: p → ¬ Char c := by
  rintro c ⟨t, rfl⟩ hc
  obtain ⟨r, hr, henc⟩ := DecodeRune_of_char hc t
  rw [h, Prod.mk.injEq] at hr
  -- the rune would be `RuneError`, whose three bytes are not one
  have hlen := congrArg List.length EncodeRune_RuneError
  rw [hr.1, henc] at hlen
  simp at hlen
  omega

/-- Bytes that are a sequence of characters, RFC 3629's `UTF8-octets`. -/
inductive Valid : Bytes → Prop
  | nil : Valid []
  | cons {c rest : Bytes} : Char c → Valid rest → Valid (c ++ rest)

/-- `Replaced p out`: `out` is `p` with every byte that begins no character replaced by the
three bytes of U+FFFD. -/
inductive Replaced : Bytes → Bytes → Prop
  | nil : Replaced [] []
  | char {c rest out : Bytes} : Char c → Replaced rest out → Replaced (c ++ rest) (c ++ out)
  | invalid {b : UInt8} {rest out : Bytes} : (∀ c, c <+: b :: rest → ¬ Char c) →
      Replaced rest out → Replaced (b :: rest) ([0xEF, 0xBF, 0xBD] ++ out)

/-- The replacement is a function of the bytes. -/
theorem Replaced.unique {p out out' : Bytes} (h : Replaced p out) (h' : Replaced p out') :
    out = out' := by
  induction h generalizing out' with
  | nil =>
    generalize hp : [] = p at h'
    cases h' with
    | nil => rfl
    | char hc _ => cases hc <;> simp at hp
    | invalid => cases hp
  | @char c rest out hc _ ih =>
    generalize hp : c ++ rest = p at h'
    cases h' with
    | nil => cases hc <;> simp at hp
    | char hc' h₂ =>
      -- the same character is read on both sides
      obtain rfl := Char.prefix_unique hc hc' hp
      rw [ih (List.append_cancel_left hp ▸ h₂)]
    | invalid hno _ => exact absurd hc (hno _ ⟨_, hp⟩)
  | @invalid b rest out hno _ ih =>
    generalize hp : b :: rest = p at h'
    cases h' with
    | nil => cases hp
    | char hc' _ => exact absurd hc' (hno _ ⟨_, hp.symm⟩)
    | invalid _ h₂ =>
      obtain ⟨rfl, rfl⟩ := List.cons.inj hp
      rw [ih h₂]

/-- Valid bytes are their own replacement. -/
theorem Replaced.of_valid {p : Bytes} (h : Valid p) : Replaced p p := by
  induction h with
  | nil => exact .nil
  | cons hc _ ih => exact .char hc ih

end Utf8
end GoStd
