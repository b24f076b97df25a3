import Mathlib

/-!
# Go's `strings` and `strconv` helpers

The functions of Go's `strings` and `strconv` packages that the modelled code calls, over Lean's
`String`.  A Go string is a byte sequence; every string handled here is taken to be valid UTF-8,
where prefix, suffix and substring tests on bytes agree with the same tests on characters.

`toLower` is the ASCII fast path of `strings.ToLower`: Go maps every Unicode letter through
`unicode.ToLower`, and the model maps `A`–`Z` only; `toUpper` likewise.  No theorem of the development depends on
the case table, since both sides of every comparison are lowered by the same function.
`split` and `splitN` take a one-character separator, the only kind the modelled code passes.

`parseInt` is `strconv.ParseInt(s, 10, 64)` when only success matters; `ParseInt` is the
function with its bit size and the text of the `*NumError` it fails with.
-/

namespace GoStd
namespace Strings

/-- `strings.HasPrefix(s, prefix)`. -/
def hasPrefix (s pre : String) : Bool :=
  pre.toList.isPrefixOf s.toList

/-- `strings.HasSuffix(s, suffix)`. -/
def hasSuffix (s suf : String) : Bool :=
  suf.toList.isSuffixOf s.toList

/-- Whether `sub` occurs at some position of the character list `s`. -/
def containsList (sub : List Char) : List Char → Bool
  | [] => sub.isPrefixOf []
  | c :: s => sub.isPrefixOf (c :: s) || containsList sub s

/-- `strings.Contains(s, substr)`. -/
def contains (s sub : String) : Bool :=
  containsList sub.toList s.toList

/-- `strings.ToLower(s)` (ASCII letters; see the module note). -/
def toLower (s : String) : String :=
  String.ofList (s.toList.map Char.toLower)

/-- `strings.ToUpper(s)` (ASCII letters, as `toLower`). -/
def toUpper (s : String) : String :=
  String.ofList (s.toList.map Char.toUpper)

/-- `strings.TrimSuffix(s, suffix)`. -/
def trimSuffix (s suf : String) : String :=
  if hasSuffix s suf then String.ofList (s.toList.take (s.length - suf.length)) else s

/-- `strings.TrimPrefix(s, prefix)`. -/
def trimPrefix (s pre : String) : String :=
  if hasPrefix s pre then String.ofList (s.toList.drop pre.length) else s

/-- `strings.Join(elems, sep)`. -/
def join : List String → String → String
  | [], _ => ""
  | [v], _ => v
  | v :: vs, sep => v ++ sep ++ join vs sep

/-- The pieces of `strings.Split` on a one-character separator, as character lists. -/
def splitList (sep : Char) : List Char → List (List Char)
  | [] => [[]]
  | c :: cs =>
    let rest := splitList sep cs
    if c = sep then [] :: rest else (c :: rest.headD []) :: rest.tail

/-- `strings.Split(s, sep)` for a one-character separator. -/
def split (s : String) (sep : Char) : List String :=
  (splitList sep s.toList).map String.ofList

/-- The pieces of `strings.SplitN` on a one-character separator, as character lists. -/
def splitNList (sep : Char) (cs : List Char) : Nat → List (List Char)
  | 0 => []
  | 1 => [cs]
  | n + 2 =>
    match cs.idxOf? sep with
    | none => [cs]
    | some i => cs.take i :: splitNList sep (cs.drop (i + 1)) (n + 1)

/-- `strings.SplitN(s, sep, n)` for a one-character separator: at most `n` pieces, the last one
holding the rest of the string. -/
def splitN (s : String) (sep : Char) (n : Nat) : List String :=
  (splitNList sep s.toList n).map String.ofList

/-- `unicode.IsSpace`: the characters of Unicode's White_Space property. -/
def isSpace (c : Char) : Bool :=
  c = '\t' || c = '\n' || c = '\x0b' || c = '\x0c' || c = '\r' || c = ' ' || c = '\x85' ||
    c = '\xa0' || c = '\u1680' || ('\u2000' ≤ c && c ≤ '\u200a') || c = '\u2028' ||
    c = '\u2029' || c = '\u202f' || c = '\u205f' || c = '\u3000'

/-- `strings.TrimSpace(s)`. -/
def trimSpace (s : String) : String :=
  String.ofList ((s.toList.dropWhile isSpace).reverse.dropWhile isSpace).reverse

example : split "a,,b" ',' = ["a", "", "b"] := by decide
example : splitN "1.5.2" '.' 2 = ["1", "5.2"] := by decide

theorem ne_empty_iff_length_pos (s : String) : s ≠ "" ↔ 0 < s.length := by
  rw [← String.length_toList, List.length_pos_iff, ne_eq, ne_eq, ← String.toList_inj]
  simp

theorem hasPrefix_iff (s pre : String) : hasPrefix s pre = true ↔ pre.toList <+: s.toList := by
  simp [hasPrefix, List.isPrefixOf_iff_prefix]

theorem hasSuffix_iff (s suf : String) : hasSuffix s suf = true ↔ suf.toList <:+ s.toList := by
  simp [hasSuffix, List.isSuffixOf_iff_suffix]

theorem containsList_iff (sub : List Char) :
    ∀ s : List Char, containsList sub s = true ↔ sub <:+: s
  | [] => by simp [containsList, List.isPrefixOf_iff_prefix]
  | c :: s => by
      rw [containsList, Bool.or_eq_true, containsList_iff sub s, List.isPrefixOf_iff_prefix,
        List.infix_cons_iff]

theorem contains_iff (s sub : String) : contains s sub = true ↔ sub.toList <:+: s.toList :=
  containsList_iff _ _

theorem ofList_ne_empty {l : List Char} (h : l ≠ []) : String.ofList l ≠ "" := by
  intro he
  apply h
  rw [← String.toList_ofList (l := l), he]
  rfl

/-- A lowered letter is not upper case, so lowering again leaves it. -/
theorem char_toLower_toLower (c : Char) : c.toLower.toLower = c.toLower := by
  unfold Char.toLower
  split
  · rename_i h
    rw [dif_neg]
    have hA : 'A'.val.toNat = 65 := rfl
    have hZ : 'Z'.val.toNat = 90 := rfl
    have hd : ('a'.val - 'A'.val).toNat = 32 := rfl
    simp only [ge_iff_le, UInt32.le_iff_toNat_le, UInt32.toNat_add, hA, hZ, hd] at h ⊢
    omega
  · rfl

@[simp] theorem toLower_toLower (s : String) : toLower (toLower s) = toLower s := by
  simp only [toLower, String.toList_ofList, List.map_map]
  congr 1
  exact List.map_congr_left fun c _ => char_toLower_toLower c

/-! ### One-character affixes -/

section OneChar

variable {s t : String} {c : Char}

theorem hasSuffix_iff_getLast (ht : t.toList = [c]) :
    hasSuffix s t = true ↔ s.toList.getLast? = some c := by
  rw [hasSuffix_iff, ht, List.getLast?_eq_some_iff]
  constructor
  · rintro ⟨ys, h⟩
    exact ⟨ys, h.symm⟩
  · rintro ⟨ys, h⟩
    exact ⟨ys, h.symm⟩

theorem hasPrefix_iff_head (ht : t.toList = [c]) :
    hasPrefix s t = true ↔ s.toList.head? = some c := by
  rw [hasPrefix_iff, ht, List.head?_eq_some_iff]
  constructor
  · rintro ⟨ys, h⟩
    exact ⟨ys, h.symm⟩
  · rintro ⟨ys, h⟩
    exact ⟨ys, h.symm⟩

theorem length_of_toList_singleton (ht : t.toList = [c]) : t.length = 1 := by
  rw [← String.length_toList, ht, List.length_singleton]

/-- Trimming a one-character suffix that is there drops the last character. -/
theorem trimSuffix_toList (ht : t.toList = [c]) (h : hasSuffix s t = true) :
    (trimSuffix s t).toList = s.toList.dropLast := by
  rw [trimSuffix, if_pos h, String.toList_ofList, List.dropLast_eq_take, String.length_toList,
    length_of_toList_singleton ht]

/-- Trimming a one-character prefix that is there drops the first character. -/
theorem trimPrefix_toList (ht : t.toList = [c]) (h : hasPrefix s t = true) :
    (trimPrefix s t).toList = s.toList.tail := by
  rw [trimPrefix, if_pos h, String.toList_ofList, length_of_toList_singleton ht, List.drop_one]

end OneChar

end Strings

namespace Strconv

/-- The value of a nonempty list of decimal digits, most significant first. -/
def digitsValue : List Char → Nat → Nat
  | [], acc => acc
  | c :: cs, acc => digitsValue cs (acc * 10 + (c.toNat - '0'.toNat))

/-- `strconv.ParseInt(s, 10, 64)`: an optional sign, then one or more decimal digits, with the
value inside the `int64` range; anything else is a syntax or range error (`none`). -/
def parseInt (s : String) : Option Int :=
  let (neg, body) : Bool × List Char :=
    match s.toList with
    | '-' :: rest => (true, rest)
    | '+' :: rest => (false, rest)
    | cs => (false, cs)
  if body.isEmpty || !body.all Char.isDigit then none
  else
    let v : Int := if neg then -(digitsValue body 0 : Int) else digitsValue body 0
    if v < -(2 ^ 63) || 2 ^ 63 - 1 < v then none else some v

/-- `strconv.Quote(s)`, the `%q` verb: `s` in double quotes with `"` and `\` escaped.  Go also
escapes control and non-printable characters, which the model keeps as they are. -/
def quote (s : String) : String :=
  "\"" ++ String.ofList (s.toList.flatMap fun c =>
    if c = '"' ∨ c = '\\' then ['\\', c] else [c]) ++ "\""

/-- The digit loop of `strconv.ParseUint(s, 10, bitSize)` with `max = 2 ^ bitSize - 1`: a syntax
error at the first character that is not a digit, a range error as soon as the value passes
`max`, whichever comes first. -/
def parseUintDigits (max : Nat) : List Char → Nat → Except String Nat
  | [], n => .ok n
  | c :: cs, n =>
    if !c.isDigit then .error "invalid syntax"
    else
      let n1 := n * 10 + (c.toNat - '0'.toNat)
      if max < n1 then .error "value out of range" else parseUintDigits max cs n1

/-- `strconv.ParseInt(s, 10, bitSize)` with the text of the `*NumError` it fails with: the sign,
the digits through `ParseUint`, and the signed range check. -/
def ParseInt (s : String) (bitSize : Nat) : Except String Int :=
  let numError (e : String) := "strconv.ParseInt: parsing " ++ quote s ++ ": " ++ e
  let (neg, body) : Bool × List Char :=
    match s.toList with
    | '-' :: rest => (true, rest)
    | '+' :: rest => (false, rest)
    | cs => (false, cs)
  if body.isEmpty then .error (numError "invalid syntax")
  else
    match parseUintDigits (2 ^ bitSize - 1) body 0 with
    | .error e => .error (numError e)
    | .ok un =>
      let cutoff := 2 ^ (bitSize - 1)
      if !neg && cutoff ≤ un || neg && cutoff < un then .error (numError "value out of range")
      else .ok (if neg then -(un : Int) else un)

example : ParseInt "-2147483648" 32 = .ok (-2147483648) := by decide
example : ParseInt "2147483648" 32 =
    .error "strconv.ParseInt: parsing \"2147483648\": value out of range" := by decide

theorem digitsValue_append (cs ds : List Char) (acc : Nat) :
    digitsValue (cs ++ ds) acc = digitsValue ds (digitsValue cs acc) := by
  induction cs generalizing acc with
  | nil => rfl
  | cons c cs ih => exact ih _

theorem digitsValue_digitChar : ∀ d : Fin 10, (Nat.digitChar d.val).toNat - '0'.toNat = d.val := by
  decide

/-- `digitsValue` reads back the decimal digits that `%v` prints for a number. -/
theorem digitsValue_toDigits (n : Nat) : digitsValue (Nat.toDigits 10 n) 0 = n := by
  induction n using Nat.strong_induction_on with
  | _ n ih =>
    rw [Nat.toDigits_eq_if (by decide)]
    split
    · next hn =>
      have hd : (Nat.digitChar n).toNat - '0'.toNat = n := digitsValue_digitChar ⟨n, hn⟩
      simp only [digitsValue, Nat.zero_mul, Nat.zero_add]
      exact hd
    · next hn =>
      -- the digits of `n / 10`, then the last digit
      have hd : (Nat.digitChar (n % 10)).toNat - '0'.toNat = n % 10 :=
        digitsValue_digitChar ⟨n % 10, Nat.mod_lt n (by decide)⟩
      rw [digitsValue_append, ih (n / 10) (by omega)]
      simp only [digitsValue]
      rw [hd]
      omega

/-- Distinct numbers print as distinct decimal strings. -/
theorem toString_inj {n m : Nat} (h : toString n = toString m) : n = m := by
  have hl := congrArg String.toList h
  rw [Nat.toString_eq_ofList_toDigits, Nat.toString_eq_ofList_toDigits, String.toList_ofList,
    String.toList_ofList] at hl
  rw [← digitsValue_toDigits n, hl, digitsValue_toDigits]

/-- A decimal string has no `-`. -/
theorem dash_not_mem_toString (n : Nat) : '-' ∉ (toString n).toList := by
  rw [Nat.toString_eq_ofList_toDigits, String.toList_ofList]
  intro h
  have hdigit := Nat.isDigit_of_mem_toDigits (by decide) (by decide) h
  exact absurd hdigit (by decide)

example : parseInt "-42" = some (-42) := by decide
example : parseInt "4x" = none := by decide

end Strconv

/-- A Go `[]byte`. -/
abbrev Bytes := List UInt8

namespace Hex

/-- The two lower-case hex digits of a byte, high nibble first. -/
def byteDigits (b : UInt8) : List Char :=
  [Nat.digitChar (b.toNat / 16), Nat.digitChar (b.toNat % 16)]

/-- `hex.EncodeToString(src)`. -/
def EncodeToString (src : Bytes) : String :=
  String.ofList (src.flatMap byteDigits)

/-- The value of a lower-case hex digit. -/
def digitValue (c : Char) : Nat :=
  if c.toNat < 58 then c.toNat - 48 else c.toNat - 87

theorem digitValue_digitChar : ∀ d : Fin 16, digitValue (Nat.digitChar d.val) = d.val := by
  decide

/-- Reads the bytes back from pairs of hex digits. -/
def decodePairs : List Char → Bytes
  | c₁ :: c₂ :: cs => UInt8.ofNat (16 * digitValue c₁ + digitValue c₂) :: decodePairs cs
  | _ => []

theorem decodePairs_flatMap : ∀ src : Bytes, decodePairs (src.flatMap byteDigits) = src
  | [] => rfl
  | b :: bs => by
    have hb : b.toNat < 256 := b.toNat_lt
    have hhi := digitValue_digitChar ⟨b.toNat / 16, by omega⟩
    have hlo := digitValue_digitChar ⟨b.toNat % 16, by omega⟩
    simp only [List.flatMap_cons, byteDigits, List.cons_append, List.nil_append, decodePairs,
      hhi, hlo, decodePairs_flatMap bs]
    -- The two nibbles put back together.
    rw [Nat.div_add_mod, UInt8.ofNat_toNat]

/-- Distinct byte strings have distinct hex encodings. -/
theorem EncodeToString_inj {a b : Bytes} (h : EncodeToString a = EncodeToString b) : a = b := by
  have hl := congrArg String.toList h
  rw [EncodeToString, EncodeToString, String.toList_ofList, String.toList_ofList] at hl
  rw [← decodePairs_flatMap a, hl, decodePairs_flatMap]

example : EncodeToString [0x0a, 0xff] = "0aff" := by decide

end Hex
end GoStd
