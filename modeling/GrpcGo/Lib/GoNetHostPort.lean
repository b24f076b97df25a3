import Mathlib

/-!
# Go's `net.SplitHostPort`

`SplitHostPort` cuts a `host:port` string at its last colon.  A host in square brackets may hold
colons (an IPv6 address); any other host may not.  The model follows the Go source over the
characters of the string, with `IndexByteString` and `last` for the byte searches, and returns
the `AddrError` as its text.

* `SplitHostPort_bracketed`: `[h]:p` splits into `h` and `p` when `h` has no brackets and `p`
  has no colon and no brackets.
* `SplitHostPort_plain`: so does `h:p` when `h` has no colon either.
* `SplitHostPort_colon`: `h:p` with a colon in `h` and no bracket at its start is refused with
  `too many colons in address`.
-/

namespace GoStd
namespace Net

/-- `bytealg.IndexByteString(s, c)`: the first position of `c`. -/
def IndexByteString (c : Char) : List Char → Option Nat
  | [] => none
  | x :: xs => if x = c then some 0 else (IndexByteString c xs).map (· + 1)

/-- `last(s, c)`: the last position of `c`. -/
def last (c : Char) : List Char → Option Nat
  | [] => none
  | x :: xs =>
    match last c xs with
    | some i => some (i + 1)
    | none => if x = c then some 0 else none

/-- `missingPort`. -/
def missingPort : String := "missing port in address"

/-- `tooManyColons`. -/
def tooManyColons : String := "too many colons in address"

/-- The text of `&AddrError{Err: why, Addr: addr}`. -/
def addrErr (addr why : String) : String := "address " ++ addr ++ ": " ++ why

/-- `net.SplitHostPort(hostport)`. -/
def SplitHostPort (hostport : String) : Except String (String × String) :=
  let s := hostport.toList
  -- the port starts after the last colon
  match last ':' s with
  | none => .error (addrErr hostport missingPort)
  | some i =>
    let hostAt : Except String (String × Nat × Nat) :=
      if s.head? = some '[' then
        -- expect the first `]` just before the last `:`
        match IndexByteString ']' s with
        | none => .error (addrErr hostport "missing ']' in address")
        | some e =>
          if e + 1 = s.length then .error (addrErr hostport missingPort)
          else if e + 1 = i then .ok (String.ofList ((s.take e).drop 1), 1, e + 1)
          else if s[e + 1]? = some ':' then .error (addrErr hostport tooManyColons)
          else .error (addrErr hostport missingPort)
      else
        let host := s.take i
        if (IndexByteString ':' host).isSome then .error (addrErr hostport tooManyColons)
        else .ok (String.ofList host, 0, 0)
    match hostAt with
    | .error err => .error err
    | .ok (host, j, k) =>
      if (IndexByteString '[' (s.drop j)).isSome then
        .error (addrErr hostport "unexpected '[' in address")
      else if (IndexByteString ']' (s.drop k)).isSome then
        .error (addrErr hostport "unexpected ']' in address")
      else .ok (host, String.ofList (s.drop (i + 1)))

/-! ## The searches -/

theorem IndexByteString_eq_none {c : Char} : ∀ {s : List Char}, c ∉ s → IndexByteString c s = none
  | [], _ => rfl
  | x :: xs, h => by
    have hx : x ≠ c := fun hx => h (hx ▸ List.mem_cons_self)
    rw [IndexByteString, if_neg hx, IndexByteString_eq_none (fun hc => h (List.mem_cons_of_mem x hc))]
    rfl

theorem IndexByteString_isSome {c : Char} : ∀ {s : List Char}, c ∈ s →
    (IndexByteString c s).isSome = true
  | x :: xs, h => by
    unfold IndexByteString
    split_ifs with hx
    · rfl
    · have hc : c ∈ xs := by
        rcases List.mem_cons.mp h with h | h
        · exact absurd h.symm hx
        · exact h
      rw [Option.isSome_map]
      exact IndexByteString_isSome hc

/-- The first `c` of `xs ++ c :: ys`, when `xs` has none, is at `xs.length`. -/
theorem IndexByteString_append {c : Char} {ys : List Char} :
    ∀ {xs : List Char}, c ∉ xs → IndexByteString c (xs ++ c :: ys) = some xs.length
  | [], _ => by simp [IndexByteString]
  | x :: xs, h => by
    have hx : x ≠ c := fun hx => h (hx ▸ List.mem_cons_self)
    rw [List.cons_append, IndexByteString, if_neg hx,
      IndexByteString_append (fun hc => h (List.mem_cons_of_mem x hc))]
    rfl

theorem last_eq_none {c : Char} : ∀ {s : List Char}, c ∉ s → last c s = none
  | [], _ => rfl
  | x :: xs, h => by
    have hx : x ≠ c := fun hx => h (hx ▸ List.mem_cons_self)
    rw [last, last_eq_none (fun hc => h (List.mem_cons_of_mem x hc))]
    simp [hx]

/-- The last `c` of `xs ++ c :: ys`, when `ys` has none, is at `xs.length`. -/
theorem last_append {c : Char} {ys : List Char} (hys : c ∉ ys) :
    ∀ xs : List Char, last c (xs ++ c :: ys) = some xs.length
  | [] => by simp [last, last_eq_none hys]
  | x :: xs => by rw [List.cons_append, last, last_append hys xs]; rfl

/-! ## Splitting -/

variable {h p : List Char}

/-- `[h]:p` splits into `h` and `p`. -/
theorem SplitHostPort_bracketed (hh : '[' ∉ h ∧ ']' ∉ h) (hp : ':' ∉ p ∧ '[' ∉ p ∧ ']' ∉ p) :
    SplitHostPort (String.ofList ('[' :: (h ++ ']' :: ':' :: p))) =
      .ok (String.ofList h, String.ofList p) := by
  have hlast : last ':' ('[' :: (h ++ ']' :: ':' :: p)) = some (h.length + 2) := by
    have := last_append hp.1 ('[' :: h ++ [']'])
    simpa using this
  have hend : IndexByteString ']' ('[' :: (h ++ ']' :: ':' :: p)) = some (h.length + 1) := by
    have := @IndexByteString_append ']' (':' :: p) ('[' :: h) (by simpa using hh.2)
    simpa using this
  -- no bracket after the first `[` but the `]`, and none after the `]`
  have hopen : IndexByteString '[' (('[' :: (h ++ ']' :: ':' :: p)).drop 1) = none :=
    IndexByteString_eq_none (by simpa using ⟨hh.1, hp.2.1⟩)
  have hclose : IndexByteString ']' (('[' :: (h ++ ']' :: ':' :: p)).drop (h.length + 1 + 1)) =
      none := by
    apply IndexByteString_eq_none
    rw [show h.length + 1 + 1 = ('[' :: h ++ [']']).length by simp,
      show '[' :: (h ++ ']' :: ':' :: p) = ('[' :: h ++ [']']) ++ ':' :: p by simp,
      List.drop_left]
    simpa using hp.2.2
  unfold SplitHostPort
  simp only [String.toList_ofList]
  rw [hlast]
  dsimp only
  rw [if_pos (show ('[' :: (h ++ ']' :: ':' :: p)).head? = some '[' from rfl), hend]
  dsimp only
  rw [if_neg (by simp), if_pos (by omega)]
  dsimp only
  rw [hopen, hclose]
  simp only [Option.isSome_none, Bool.false_eq_true, if_false]
  congr 2
  · simp
  · rw [show h.length + 2 + 1 = ('[' :: h ++ [']', ':']).length by simp,
      show '[' :: (h ++ ']' :: ':' :: p) = ('[' :: h ++ [']', ':']) ++ p by simp, List.drop_left]

/-- `h:p` splits into `h` and `p` when `h` has no colon and no brackets. -/
theorem SplitHostPort_plain (hh : ':' ∉ h ∧ '[' ∉ h ∧ ']' ∉ h) (hp : ':' ∉ p ∧ '[' ∉ p ∧ ']' ∉ p) :
    SplitHostPort (String.ofList (h ++ ':' :: p)) = .ok (String.ofList h, String.ofList p) := by
  have hlast : last ':' (h ++ ':' :: p) = some h.length := last_append hp.1 h
  have hhead : (h ++ ':' :: p).head? ≠ some '[' := by
    cases h with
    | nil => simp
    | cons x xs =>
      simp only [List.cons_append, List.head?_cons, ne_eq, Option.some.injEq]
      rintro rfl
      exact hh.2.1 List.mem_cons_self
  unfold SplitHostPort
  simp only [String.toList_ofList, hlast]
  rw [if_neg hhead, List.take_left' rfl, IndexByteString_eq_none hh.1]
  simp only [Option.isSome_none, Bool.false_eq_true, if_false, List.drop_zero]
  rw [IndexByteString_eq_none (by simpa using ⟨hh.2.1, hp.2.1⟩),
    IndexByteString_eq_none (by simpa using ⟨hh.2.2, hp.2.2⟩)]
  simp only [Option.isSome_none, Bool.false_eq_true, if_false]
  rw [show h.length + 1 = (h ++ [':']).length by simp]
  simp

/-- `h:p` with a colon in `h` and no `[` at its start is refused. -/
theorem SplitHostPort_colon (hh : ':' ∈ h) (hhead : h.head? ≠ some '[') (hp : ':' ∉ p) :
    SplitHostPort (String.ofList (h ++ ':' :: p)) =
      .error (addrErr (String.ofList (h ++ ':' :: p)) tooManyColons) := by
  have hlast : last ':' (h ++ ':' :: p) = some h.length := last_append hp h
  have hhead' : (h ++ ':' :: p).head? ≠ some '[' := by
    cases h with
    | nil => cases hh
    | cons x xs => simpa using hhead
  unfold SplitHostPort
  simp only [String.toList_ofList, hlast]
  rw [if_neg hhead', List.take_left' rfl, if_pos (IndexByteString_isSome hh)]

end Net
end GoStd
