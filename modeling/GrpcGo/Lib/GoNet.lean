import Mathlib

/-!
# Go's `net` addresses and prefixes

A model of the parts of Go's `net` package that gRPC calls on textual addresses and CIDR ranges:
`ParseIP`, `ParseCIDR`, `IP.To4`, `IP.Mask`, `IP.Equal`, `IP.IsLoopback`, `CIDRMask`,
`IPMask.Size` and `IPNet.Contains`, following the Go
1.17 sources (IPv4 octets with a leading zero are rejected).  An `IP` is the byte slice Go uses:
4 bytes, or 16 bytes with IPv4 addresses in their IPv4-mapped form; `none` stands for Go's nil.
-/

namespace GoStd
namespace Net

/-- A Go `net.IP`: its bytes. -/
abbrev IP := List UInt8

/-- A Go `net.IPMask`: its bytes. -/
abbrev IPMask := List UInt8

/-- The first twelve bytes of an IPv4-mapped IPv6 address. -/
def v4InV6Prefix : List UInt8 := [0, 0, 0, 0, 0, 0, 0, 0, 0, 0, 0xff, 0xff]

/-- `net.IPv4(a, b, c, d)`: the 16-byte IPv4-mapped form. -/
def IPv4 (a b c d : UInt8) : IP := v4InV6Prefix ++ [a, b, c, d]

/-- `ip.To4()`: the 4-byte form of an IPv4 address, `none` for any other address. -/
def IP.To4 (ip : IP) : Option IP :=
  if ip.length = 4 then some ip
  else if ip.length = 16 ∧ ip.take 12 = v4InV6Prefix then some (ip.drop 12)
  else none

/-- `net.CIDRMask(ones, bits)` for the two lengths the callers pass: `ones` leading one bits out
of `bits`, and `none` when `ones` exceeds `bits` or `bits` is not 32 or 128. -/
def CIDRMask (ones bits : Nat) : Option IPMask :=
  if (bits = 32 ∨ bits = 128) ∧ ones ≤ bits then
    some ((List.range (bits / 8)).map fun i =>
      if ones ≥ 8 * i + 8 then 0xff
      else if ones ≤ 8 * i then 0
      else (0xff <<< (8 - (ones - 8 * i)).toUInt8 : UInt8))
  else none

/-- Whether every byte of a list is `0xff`. -/
def allFF (b : List UInt8) : Bool := b.all (· == 0xff)

/-- `ip.Mask(mask)`: the network number of `ip` under `mask`, `none` when the lengths disagree. -/
def IP.Mask (ip : IP) (mask : IPMask) : Option IP :=
  let mask := if mask.length = 16 ∧ ip.length = 4 ∧ allFF (mask.take 12) then mask.drop 12 else mask
  let ip := if mask.length = 4 ∧ ip.length = 16 ∧ ip.take 12 = v4InV6Prefix then ip.drop 12 else ip
  if ip.length = mask.length then some (List.zipWith (· &&& ·) ip mask) else none

/-- A Go `net.IPNet`: a network number and a mask. -/
structure IPNet where
  /-- The `IP` field: the network number. -/
  ip : IP
  /-- The `Mask` field. -/
  mask : IPMask
  deriving DecidableEq, Repr

/-- `networkNumberAndMask(n)`: the network number in its shortest form and the matching mask. -/
def IPNet.networkNumberAndMask (n : IPNet) : Option (IP × IPMask) :=
  let ip := (n.ip.To4).getD n.ip
  if n.ip.To4 = none ∧ ip.length ≠ 16 then none
  else if n.mask.length = 4 then
    if ip.length = 4 then some (ip, n.mask) else none
  else if n.mask.length = 16 then
    some (ip, if ip.length = 4 then n.mask.drop 12 else n.mask)
  else none

/-- `n.Contains(ip)`. -/
def IPNet.Contains (n : IPNet) (ip : IP) : Bool :=
  match n.networkNumberAndMask with
  | none => false
  | some (nn, m) =>
    let ip := (ip.To4).getD ip
    ip.length == nn.length &&
      (List.zip (List.zip nn m) ip).all fun ((a, k), b) => (a &&& k) == (b &&& k)

/-- The inner loop of `simpleMaskLength` on a byte that is not `0xff`: the count of its leading
one bits (`for v&0x80 != 0 { n++; v <<= 1 }`), and the byte shifted past them.  Eight turns of
fuel end the loop on every byte. -/
def leadingOnes (v : UInt8) : Nat → Nat × UInt8
  | 0 => (0, v)
  | fuel + 1 =>
    if v &&& 0x80 ≠ 0 then
      let r := leadingOnes (v <<< 1) fuel
      (r.1 + 1, r.2)
    else (0, v)

/-- `simpleMaskLength(mask)`: the number of leading one bits of a mask of the form `1…10…0`, and
`none` (Go's `-1`) for any other mask. -/
def simpleMaskLength : IPMask → Option Nat
  | [] => some 0
  | v :: rest =>
    if v = 0xff then (simpleMaskLength rest).map (· + 8)
    else
      let r := leadingOnes v 8
      -- the rest of the byte and every later byte must be zero
      if r.2 ≠ 0 then none
      else if rest.all (· == 0) then some r.1 else none

/-- `mask.Size()`: the leading ones and the length in bits of a canonical mask, `(0, 0)` for any
other. -/
def IPMask.Size (m : IPMask) : Nat × Nat :=
  match simpleMaskLength m with
  | some ones => (ones, 8 * m.length)
  | none => (0, 0)

/-- `ip.Equal(x)`: the same address, an IPv4 address being equal to its IPv4-mapped form. -/
def IP.Equal (ip x : IP) : Bool :=
  if ip.length = x.length then ip == x
  else if ip.length = 4 ∧ x.length = 16 then x.take 12 == v4InV6Prefix && ip == x.drop 12
  else if ip.length = 16 ∧ x.length = 4 then ip.take 12 == v4InV6Prefix && ip.drop 12 == x
  else false

/-- `net.IPv6loopback`, `::1`. -/
def IPv6loopback : IP := List.replicate 15 0 ++ [1]

/-- `ip.IsLoopback()`: an address of `127.0.0.0/8`, or `::1`. -/
def IP.IsLoopback (ip : IP) : Bool :=
  match ip.To4 with
  | some ip4 => ip4.head? == some 127
  | none => ip.Equal IPv6loopback

/-- `big` of Go's `net` parsers: values at or above it overflow. -/
def big : Nat := 0xFFFFFF

/-- The loop of `dtoi`: the decimal value and length of the longest digit prefix. -/
def dtoiLoop (n i : Nat) : List Char → Option (Nat × Nat)
  | c :: s =>
    if '0' ≤ c ∧ c ≤ '9' then
      let n' := n * 10 + (c.toNat - '0'.toNat)
      if big ≤ n' then none else dtoiLoop n' (i + 1) s
    else some (n, i)
  | [] => some (n, i)

/-- `dtoi(s)`: the value of the decimal digits at the start of `s` and how many there are;
`none` for no digits or an overflow. -/
def dtoi (s : List Char) : Option (Nat × Nat) :=
  match dtoiLoop 0 0 s with
  | some (n, i) => if i = 0 then none else some (n, i)
  | none => none

/-- The value of one hexadecimal digit. -/
def hexDigit (c : Char) : Option Nat :=
  if '0' ≤ c ∧ c ≤ '9' then some (c.toNat - '0'.toNat)
  else if 'a' ≤ c ∧ c ≤ 'f' then some (c.toNat - 'a'.toNat + 10)
  else if 'A' ≤ c ∧ c ≤ 'F' then some (c.toNat - 'A'.toNat + 10)
  else none

/-- The loop of `xtoi`. -/
def xtoiLoop (n i : Nat) : List Char → Option (Nat × Nat)
  | c :: s =>
    match hexDigit c with
    | some d => if big ≤ n * 16 + d then none else xtoiLoop (n * 16 + d) (i + 1) s
    | none => some (n, i)
  | [] => some (n, i)

/-- `xtoi(s)`: the hexadecimal counterpart of `dtoi`. -/
def xtoi (s : List Char) : Option (Nat × Nat) :=
  match xtoiLoop 0 0 s with
  | some (n, i) => if i = 0 then none else some (n, i)
  | none => none

/-- One octet of dotted IPv4 text and the rest of the text. -/
def parseOctet (s : List Char) : Option (UInt8 × List Char) :=
  match dtoi s with
  | none => none
  | some (n, c) =>
    -- Go 1.17 rejects non-zero components with leading zeroes.
    if 0xFF < n ∨ (1 < c ∧ s.head? = some '0') then none else some (n.toUInt8, s.drop c)

/-- The separator between two octets. -/
def expectDot : List Char → Option (List Char)
  | '.' :: s => some s
  | _ => none

/-- `parseIPv4(s)`. -/
def parseIPv4 (s : List Char) : Option IP := do
  let (a, s) ← parseOctet s
  let (b, s) ← parseOctet (← expectDot s)
  let (c, s) ← parseOctet (← expectDot s)
  let (d, s) ← parseOctet (← expectDot s)
  if s.isEmpty then some (IPv4 a b c d) else none

/-- One turn of the group loop of `parseIPv6`, with `ip` the bytes so far (`i = ip.length`) and
`ellipsis` the byte position of a `::`.  Returns `none` on a syntax error, and otherwise the new
bytes, ellipsis and rest together with whether the loop breaks. -/
def parseIPv6Group (ip : List UInt8) (ellipsis : Option Nat) (s : List Char) :
    Option (List UInt8 × Option Nat × List Char × Bool) := do
  let (n, c) ← xtoi s
  if 0xFFFF < n then none
  else if (s.drop c).head? = some '.' then
    -- A trailing IPv4 address takes the last four bytes.
    if ellipsis.isNone ∧ ip.length ≠ 12 then none
    else if 16 < ip.length + 4 then none
    else
      let ip4 ← parseIPv4 s
      some (ip ++ ip4.drop 12, ellipsis, [], true)
  else
    let ip := ip ++ [(n >>> 8).toUInt8, n.toUInt8]
    match s.drop c with
    | [] => some (ip, ellipsis, [], true)
    | [_] => none
    | ':' :: ':' :: rest =>
      if ellipsis.isSome then none else some (ip, some ip.length, rest, rest.isEmpty)
    | ':' :: rest => some (ip, ellipsis, rest, false)
    | _ => none

/-- The group loop of `parseIPv6` while fewer than 16 bytes are parsed; every turn adds at least
two bytes, so eight turns of fuel suffice. -/
def parseIPv6Loop : Nat → List UInt8 → Option Nat → List Char →
    Option (List UInt8 × Option Nat × List Char)
  | 0, ip, e, s => some (ip, e, s)
  | fuel + 1, ip, e, s =>
    if ip.length < 16 then
      match parseIPv6Group ip e s with
      | none => none
      | some (ip, e, s, true) => some (ip, e, s)
      | some (ip, e, s, false) => parseIPv6Loop fuel ip e s
    else some (ip, e, s)

/-- `parseIPv6(s)`: groups, at most one `::`, and an optional trailing IPv4 address. -/
def parseIPv6 (s : List Char) : Option IP :=
  let (ellipsis, s) : Option Nat × List Char :=
    match s with
    | ':' :: ':' :: rest => (some 0, rest)
    | _ => (none, s)
  if ellipsis.isSome ∧ s.isEmpty then some (List.replicate 16 0)
  else do
    let (ip, ellipsis, s) ← parseIPv6Loop 8 [] ellipsis s
    if !s.isEmpty then none
    else if ip.length < 16 then
      match ellipsis with
      | none => none
      | some e => some (ip.take e ++ List.replicate (16 - ip.length) 0 ++ ip.drop e)
    else if ellipsis.isSome then none
    else some ip

/-- `net.ParseIP(s)`: the first `.` or `:` of `s` chooses the IPv4 or the IPv6 syntax. -/
def ParseIP (s : String) : Option IP :=
  match s.toList.find? (fun c => c == '.' || c == ':') with
  | some '.' => parseIPv4 s.toList
  | some _ => parseIPv6 s.toList
  | none => none

/-- `net.ParseCIDR(s)`: an address, `/`, and a decimal prefix length no longer than the address;
returns the address and the network it lies in. -/
def ParseCIDR (s : String) : Option (IP × IPNet) :=
  match s.toList.span (· != '/') with
  | (addr, '/' :: mask) =>
    let (iplen, ip) : Nat × Option IP :=
      match parseIPv4 addr with
      | some ip => (4, some ip)
      | none => (16, parseIPv6 addr)
    match ip, dtoi mask with
    | some ip, some (n, i) =>
      if i = mask.length ∧ n ≤ 8 * iplen then
        match CIDRMask n (8 * iplen) with
        | some m =>
          match ip.Mask m with
          | some nn => some (ip, ⟨nn, m⟩)
          | none => none
        | none => none
      else none
    | _, _ => none
  | _ => none

example : ParseIP "10.1.2.3" = some (IPv4 10 1 2 3) := by decide
example : ParseIP "::1" = some ((List.replicate 15 0) ++ [1]) := by decide
example : (ParseCIDR "10.0.0.0/8").map (fun p => p.2.Contains (IPv4 10 9 9 9)) = some true := by
  decide
example : (ParseCIDR "10.0.0.0/13").map (fun p => p.2.mask.Size) = some (13, 32) := by decide

end Net
end GoStd
