import GrpcGo.Lib.GoNet

/-!
# Prefixes parsed by `net.ParseCIDR`

A prefix `ParseCIDR` returns has a mask of `ones` leading one bits (`cidrBytes`) and a network
number the mask leaves as it is (`CIDRNet`, `ParseCIDR_net`).  `networkNumberAndMask` brings it
to its shortest form: four bytes for an IPv4 prefix, and for an IPv4-mapped IPv6 prefix whose
mask covers the mapping bits, with the mask's last four bytes; `Size` still counts the ones of the
mask as written.

The main result, `networkNumberAndMask_eq_of_contains`: two such prefixes that both contain an
address and whose masks have the same `Size` have the same network number and mask.  A prefix
of four bytes has at most 32 ones and one written in IPv6 form at least 96, so the two sizes
cannot meet across the forms; the masks are then equal, and an address fixes the network number
under a mask.
-/

namespace GoStd
namespace Net

/-! ## Masks of leading ones -/

/-- The byte of a mask with `x` ones still to place. -/
def maskByte (x : Nat) : UInt8 :=
  if 8 ≤ x then 0xff else if x = 0 then 0 else (0xff <<< (8 - x).toUInt8 : UInt8)

/-- `k` bytes of a mask with `ones` leading one bits. -/
def cidrBytes (ones : Nat) : Nat → List UInt8
  | 0 => []
  | k + 1 => maskByte ones :: cidrBytes (ones - 8) k

@[simp] theorem length_cidrBytes (ones : Nat) : ∀ k, (cidrBytes ones k).length = k
  | 0 => rfl
  | k + 1 => by simp [cidrBytes, length_cidrBytes _ k]

theorem cidrBytes_zero : ∀ k, cidrBytes 0 k = List.replicate k 0
  | 0 => rfl
  | k + 1 => by
    rw [cidrBytes, cidrBytes_zero k]
    rfl

/-- The bytes after the first `j`: a mask of `ones - 8 * j` ones. -/
theorem drop_cidrBytes : ∀ (j k ones : Nat), (cidrBytes ones (j + k)).drop j = cidrBytes (ones - 8 * j) k
  | 0, k, ones => by simp
  | j + 1, k, ones => by
    rw [show j + 1 + k = (j + k) + 1 by omega, cidrBytes, List.drop_succ_cons, drop_cidrBytes j k]
    congr 1
    omega

/-- The byte `i` of a mask of `ones` leading one bits. -/
theorem getElem_cidrBytes : ∀ (k ones i : Nat) (h : i < (cidrBytes ones k).length),
    (cidrBytes ones k)[i] = maskByte (ones - 8 * i)
  | k + 1, ones, 0, _ => by simp [cidrBytes]
  | k + 1, ones, i + 1, h => by
    simp only [cidrBytes, List.getElem_cons_succ]
    rw [getElem_cidrBytes k (ones - 8) i (by simpa [cidrBytes] using h)]
    congr 1
    omega

/-- The loop of `net.CIDRMask` builds the mask byte by byte. -/
theorem range_map_cidrByte : ∀ (k ones : Nat),
    ((List.range k).map fun i =>
      (if ones ≥ 8 * i + 8 then 0xff
        else if ones ≤ 8 * i then 0
        else 0xff <<< (8 - (ones - 8 * i)).toUInt8 : UInt8)) = cidrBytes ones k
  | 0, _ => rfl
  | k + 1, ones => by
    rw [List.range_succ_eq_map, List.map_cons, List.map_map, cidrBytes,
      ← range_map_cidrByte k (ones - 8)]
    congr 1
    · -- the first byte
      unfold maskByte
      split_ifs <;> first | rfl | omega
    · -- byte `i + 1` places what is left after the first eight ones
      apply List.map_congr_left
      intro i _
      simp only [Function.comp]
      split_ifs <;> first | rfl | omega | (congr 3; omega)

/-- `net.CIDRMask(ones, bits)` is the mask of `ones` leading one bits. -/
theorem CIDRMask_eq {ones bits : Nat} (hbits : bits = 32 ∨ bits = 128) (hones : ones ≤ bits) :
    CIDRMask ones bits = some (cidrBytes ones (bits / 8)) := by
  rw [CIDRMask, if_pos ⟨hbits, hones⟩, range_map_cidrByte]

/-! ## The size of a mask -/

theorem leadingOnes_maskByte : ∀ x : Fin 8, leadingOnes (maskByte x) 8 = (x.val, 0) := by
  decide

theorem maskByte_ne_ff : ∀ x : Fin 8, maskByte x ≠ 0xff := by
  decide

theorem maskByte_of_le {x : Nat} (h : 8 ≤ x) : maskByte x = 0xff := by
  rw [maskByte, if_pos h]

/-- A mask of `ones` leading ones counts `ones` of them, as far as it goes. -/
theorem simpleMaskLength_cidrBytes : ∀ (k ones : Nat),
    simpleMaskLength (cidrBytes ones k) = some (min ones (8 * k))
  | 0, ones => by simp [cidrBytes, simpleMaskLength]
  | k + 1, ones => by
    rw [cidrBytes, simpleMaskLength]
    by_cases h : 8 ≤ ones
    · -- a whole byte of ones
      rw [if_pos (maskByte_of_le h), simpleMaskLength_cidrBytes k (ones - 8)]
      simp only [Option.map_some]
      congr 1
      omega
    · -- the last ones, then zero bytes
      have hx : ones < 8 := by omega
      have hlo := leadingOnes_maskByte ⟨ones, hx⟩
      have hne := maskByte_ne_ff ⟨ones, hx⟩
      dsimp only at hlo hne
      rw [if_neg hne, hlo, show ones - 8 = 0 by omega, cidrBytes_zero]
      simp only [ne_eq, not_true_eq_false, if_false]
      rw [if_pos (by simp [List.all_replicate])]
      congr 1
      omega

theorem Size_cidrBytes {ones k : Nat} (h : ones ≤ 8 * k) :
    (IPMask.Size (cidrBytes ones k)).1 = ones := by
  rw [IPMask.Size, simpleMaskLength_cidrBytes]
  simp only
  omega

theorem maskByte_eq_ff_iff {x : Nat} : maskByte x = 0xff ↔ 8 ≤ x := by
  constructor
  · intro h
    by_contra hx
    exact maskByte_ne_ff ⟨x, by omega⟩ h
  · exact maskByte_of_le

/-- A byte of ones at `i` means the mask has at least `8 * i + 8` ones. -/
theorem le_of_getElem_cidrBytes_eq_ff {k ones i : Nat} (h : i < (cidrBytes ones k).length)
    (hff : (cidrBytes ones k)[i] = 0xff) : 8 * i + 8 ≤ ones := by
  rw [getElem_cidrBytes, maskByte_eq_ff_iff] at hff
  omega

/-! ## Masking -/

/-- Masking twice is masking once. -/
theorem zipWith_and_idem : ∀ (x m : List UInt8),
    List.zipWith (· &&& ·) (List.zipWith (· &&& ·) x m) m = List.zipWith (· &&& ·) x m
  | [], _ => rfl
  | _ :: _, [] => rfl
  | a :: x, b :: m => by
    simp only [List.zipWith_cons_cons, zipWith_and_idem x m, UInt8.and_assoc, UInt8.and_self]

/-- The loop of `Contains` compares the masked bytes. -/
theorem all_zip_zip_iff : ∀ (nn m ip : List UInt8), m.length = nn.length → ip.length = nn.length →
    ((List.zip (List.zip nn m) ip).all (fun ((a, k), b) => (a &&& k) == (b &&& k)) = true ↔
      List.zipWith (· &&& ·) nn m = List.zipWith (· &&& ·) ip m)
  | [], [], [], _, _ => by simp
  | a :: nn, k :: m, b :: ip, hm, hip => by
    simp only [List.length_cons, Nat.add_right_cancel_iff] at hm hip
    simp only [List.zip_cons_cons, List.all_cons, Bool.and_eq_true, beq_iff_eq,
      List.zipWith_cons_cons, List.cons.injEq, all_zip_zip_iff nn m ip hm hip]

/-- A mask byte kept whole by `&&&` is a byte of ones. -/
theorem eq_ff_of_and_eq_ff {a b : UInt8} (h : a &&& b = 0xff) : b = 0xff := by
  have hneg : (0xff : UInt8) = -1 := by decide
  rw [hneg, UInt8.and_eq_neg_one_iff] at h
  rw [hneg]
  exact h.2

/-- A sixteen-byte number masked into the IPv4-mapped form has a mask of at least 96 ones: its
twelfth byte is a byte of ones. -/
theorem le_ones_of_take_eq_v4InV6Prefix {x : IP} {ones : Nat} (hx : x.length = 16)
    (hmap : (List.zipWith (· &&& ·) x (cidrBytes ones 16)).take 12 = v4InV6Prefix) :
    96 ≤ ones := by
  have h11 : (List.zipWith (· &&& ·) x (cidrBytes ones 16))[11]? = some 0xff := by
    rw [← List.getElem?_take_of_lt (show 11 < 12 by omega), hmap]
    rfl
  rw [List.getElem?_zipWith, List.getElem?_eq_getElem (by omega : 11 < x.length),
    List.getElem?_eq_getElem (by simp : 11 < (cidrBytes ones 16).length)] at h11
  simp only [Option.some.injEq] at h11
  exact le_of_getElem_cidrBytes_eq_ff _ (eq_ff_of_and_eq_ff h11)

/-! ## The prefixes `ParseCIDR` returns -/

/-- A prefix `ParseCIDR` can return: an IPv4 prefix (four bytes under a mask of at most 32 ones), an
IPv6 prefix (sixteen bytes), or four bytes under a sixteen-byte mask whose first twelve bytes are
ones (what `IP.Mask` makes of a four-byte address and such a mask). -/
inductive CIDRNet : IPNet → Prop
  | v4 {x : IP} {ones : Nat} : x.length = 4 → ones ≤ 32 →
      CIDRNet ⟨List.zipWith (· &&& ·) x (cidrBytes ones 4), cidrBytes ones 4⟩
  | v6 {x : IP} {ones : Nat} : x.length = 16 → ones ≤ 128 →
      CIDRNet ⟨List.zipWith (· &&& ·) x (cidrBytes ones 16), cidrBytes ones 16⟩
  | v4InV6 {x : IP} {ones : Nat} : x.length = 4 → 96 ≤ ones → ones ≤ 128 →
      CIDRNet ⟨List.zipWith (· &&& ·) x (cidrBytes (ones - 96) 4), cidrBytes ones 16⟩

/-- A network number and mask as `networkNumberAndMask` returns them for a mask of `s` ones: the
number is masked, and the mask has `s` ones, less the 96 of the mapping when four bytes stand for a
sixteen-byte mask. -/
structure Canonical (s : Nat) (nm : IP × IPMask) : Prop where
  length_eq : nm.2.length = nm.1.length
  masked : ∃ x : IP, nm.1 = List.zipWith (· &&& ·) x nm.2
  mask : (nm.1.length = 4 ∧ s ≤ 32 ∧ nm.2 = cidrBytes s 4) ∨
    (nm.1.length = 4 ∧ 96 ≤ s ∧ nm.2 = cidrBytes (s - 96) 4) ∨
    (nm.1.length = 16 ∧ nm.2 = cidrBytes s 16)

theorem length_zipWith_and {x m : List UInt8} (h : x.length = m.length) :
    (List.zipWith (· &&& ·) x m).length = m.length := by
  rw [List.length_zipWith, h, Nat.min_self]

/-- Each prefix `ParseCIDR` returns has a canonical network number and mask, for the size of its
mask. -/
theorem CIDRNet.canonical {n : IPNet} (h : CIDRNet n) :
    ∃ nm, n.networkNumberAndMask = some nm ∧ Canonical n.mask.Size.1 nm := by
  cases h with
  | @v4 x ones hx hones =>
    have hlen : (List.zipWith (· &&& ·) x (cidrBytes ones 4)).length = 4 := by
      rw [length_zipWith_and (by simp [hx]), length_cidrBytes]
    have hsize : (IPMask.Size (cidrBytes ones 4)).1 = ones := Size_cidrBytes (by omega)
    have hnm : IPNet.networkNumberAndMask ⟨List.zipWith (· &&& ·) x (cidrBytes ones 4), cidrBytes ones 4⟩ =
        some (List.zipWith (· &&& ·) x (cidrBytes ones 4), cidrBytes ones 4) := by
      simp [IPNet.networkNumberAndMask, IP.To4, hlen]
    refine ⟨_, hnm, ⟨by simp [hlen], ⟨x, rfl⟩, .inl ⟨hlen, ?_, ?_⟩⟩⟩
    · rw [hsize]
      exact hones
    · rw [hsize]
  | @v6 x ones hx hones =>
    have hlen : (List.zipWith (· &&& ·) x (cidrBytes ones 16)).length = 16 := by
      rw [length_zipWith_and (by simp [hx]), length_cidrBytes]
    have hsize : (IPMask.Size (cidrBytes ones 16)).1 = ones := Size_cidrBytes (by omega)
    by_cases hmap : (List.zipWith (· &&& ·) x (cidrBytes ones 16)).take 12 = v4InV6Prefix
    · -- an IPv4-mapped number: the mapping bytes are ones in the mask
      have hlo := le_ones_of_take_eq_v4InV6Prefix hx hmap
      have hdrop : (cidrBytes ones 16).drop 12 = cidrBytes (ones - 96) 4 := drop_cidrBytes 12 4 ones
      have hnn : (List.zipWith (· &&& ·) x (cidrBytes ones 16)).drop 12 =
          List.zipWith (· &&& ·) (x.drop 12) (cidrBytes (ones - 96) 4) := by
        rw [List.drop_zipWith, hdrop]
      have hlen4 : (List.zipWith (· &&& ·) (x.drop 12) (cidrBytes (ones - 96) 4)).length = 4 := by
        rw [length_zipWith_and (by simp [hx]), length_cidrBytes]
      have hnm : IPNet.networkNumberAndMask
          ⟨List.zipWith (· &&& ·) x (cidrBytes ones 16), cidrBytes ones 16⟩ =
            some (List.zipWith (· &&& ·) (x.drop 12) (cidrBytes (ones - 96) 4),
              cidrBytes (ones - 96) 4) := by
        simp [IPNet.networkNumberAndMask, IP.To4, hlen, hmap, hnn, hdrop, hlen4]
      refine ⟨_, hnm, ⟨by simp [hlen4], ⟨x.drop 12, rfl⟩, .inr (.inl ⟨hlen4, ?_, ?_⟩)⟩⟩
      · rw [hsize]
        exact hlo
      · rw [hsize]
    · have hnm : IPNet.networkNumberAndMask
          ⟨List.zipWith (· &&& ·) x (cidrBytes ones 16), cidrBytes ones 16⟩ =
            some (List.zipWith (· &&& ·) x (cidrBytes ones 16), cidrBytes ones 16) := by
        simp [IPNet.networkNumberAndMask, IP.To4, hlen, hmap]
      refine ⟨_, hnm, ⟨by simp [hlen], ⟨x, rfl⟩, .inr (.inr ⟨hlen, ?_⟩)⟩⟩
      rw [hsize]
  | @v4InV6 x ones hx hlo hhi =>
    have hlen : (List.zipWith (· &&& ·) x (cidrBytes (ones - 96) 4)).length = 4 := by
      rw [length_zipWith_and (by simp [hx]), length_cidrBytes]
    have hdrop : (cidrBytes ones 16).drop 12 = cidrBytes (ones - 96) 4 := drop_cidrBytes 12 4 ones
    have hsize : (IPMask.Size (cidrBytes ones 16)).1 = ones := Size_cidrBytes (by omega)
    have hnm : IPNet.networkNumberAndMask
        ⟨List.zipWith (· &&& ·) x (cidrBytes (ones - 96) 4), cidrBytes ones 16⟩ =
          some (List.zipWith (· &&& ·) x (cidrBytes (ones - 96) 4), cidrBytes (ones - 96) 4) := by
      simp [IPNet.networkNumberAndMask, IP.To4, hlen, hdrop]
    refine ⟨_, hnm, ⟨by simp [hlen], ⟨x, rfl⟩, .inr (.inl ⟨hlen, ?_, ?_⟩)⟩⟩
    · rw [hsize]
      exact hlo
    · rw [hsize]

/-! ## What `ParseCIDR` returns -/

theorem parseIPv4_eq_some {s : List Char} {ip : IP} (h : parseIPv4 s = some ip) :
    ∃ a b c d, ip = IPv4 a b c d := by
  unfold parseIPv4 at h
  simp only [bind, Option.bind_eq_some_iff] at h
  obtain ⟨⟨a, s₁⟩, -, h⟩ := h
  obtain ⟨s₂, -, h⟩ := h
  obtain ⟨⟨b, s₃⟩, -, h⟩ := h
  obtain ⟨s₄, -, h⟩ := h
  obtain ⟨⟨c, s₅⟩, -, h⟩ := h
  obtain ⟨s₆, -, h⟩ := h
  obtain ⟨⟨d, s₇⟩, -, h⟩ := h
  split at h
  · exact ⟨a, b, c, d, (Option.some.inj h).symm⟩
  · cases h

/-- A mask whose first twelve bytes are ones has at least 96 ones. -/
theorem le_ones_of_allFF_take {ones : Nat} (h : allFF ((cidrBytes ones 16).take 12) = true) :
    96 ≤ ones := by
  unfold allFF at h
  rw [List.all_eq_true] at h
  have h11 := h ((cidrBytes ones 16).take 12)[11] (List.getElem_mem (by simp))
  rw [beq_iff_eq, List.getElem_take] at h11
  exact le_of_getElem_cidrBytes_eq_ff _ h11

/-- An IPv4 address under a four-byte mask: its last four bytes are masked. -/
theorem Mask_IPv4 (a b c d : UInt8) (m : IPMask) (hm : m.length = 4) :
    (IPv4 a b c d).Mask m = some (List.zipWith (· &&& ·) [a, b, c, d] m) := by
  simp [IP.Mask, IPv4, hm, v4InV6Prefix]

/-- Any address under a sixteen-byte mask of `ones` ones, when `IP.Mask` accepts it. -/
theorem CIDRNet.of_Mask {ip nn : IP} {ones : Nat} (hones : ones ≤ 128)
    (h : ip.Mask (cidrBytes ones 16) = some nn) : CIDRNet ⟨nn, cidrBytes ones 16⟩ := by
  unfold IP.Mask at h
  by_cases hv4 : ip.length = 4 ∧ allFF ((cidrBytes ones 16).take 12) = true
  · -- a four-byte address: the mask loses its first twelve bytes
    have hlo := le_ones_of_allFF_take hv4.2
    have hdrop : (cidrBytes ones 16).drop 12 = cidrBytes (ones - 96) 4 := drop_cidrBytes 12 4 ones
    simp [hv4, hdrop] at h
    subst h
    exact CIDRNet.v4InV6 hv4.1 hlo hones
  · -- the mask is kept, and the address must have sixteen bytes
    simp [hv4] at h
    obtain ⟨hl, rfl⟩ := h
    exact CIDRNet.v6 hl hones

/-- **`ParseCIDR` returns a prefix of leading ones.** -/
theorem ParseCIDR_net {s : String} {ip : IP} {n : IPNet} (h : ParseCIDR s = some (ip, n)) :
    CIDRNet n := by
  unfold ParseCIDR at h
  split at h
  · rename_i addr mask _
    cases hv4 : parseIPv4 addr with
    | some ip₀ =>
      -- an IPv4 address and a mask of four bytes
      obtain ⟨a, b, c, d, rfl⟩ := parseIPv4_eq_some hv4
      simp only [hv4] at h
      split at h
      · rename_i ip' ones len hip _
        cases hip
        split_ifs at h with hc
        rw [CIDRMask_eq (by omega) hc.2, show 8 * 4 / 8 = 4 from rfl] at h
        dsimp only at h
        rw [Mask_IPv4 a b c d _ (by simp)] at h
        simp only [Option.some.injEq, Prod.mk.injEq] at h
        obtain ⟨-, rfl⟩ := h
        exact CIDRNet.v4 rfl (by omega)
      · cases h
    | none =>
      -- an IPv6 address and a mask of sixteen bytes
      simp only [hv4] at h
      split at h
      · rename_i ip' ones len _ _
        split_ifs at h with hc
        rw [CIDRMask_eq (by omega) hc.2, show 8 * 16 / 8 = 16 from rfl] at h
        dsimp only at h
        split at h
        · rename_i nn hnn
          simp only [Option.some.injEq, Prod.mk.injEq] at h
          obtain ⟨-, rfl⟩ := h
          exact CIDRNet.of_Mask (by omega) hnn
        · cases h
      · cases h
  · cases h

/-! ## One prefix for a size and an address -/

/-- Two canonical masks of one size over numbers of one length are the same: a mask written on
four bytes has at most 32 ones and one written on sixteen at least 96 when its number has four. -/
theorem Canonical.mask_eq {s : Nat} {nm₁ nm₂ : IP × IPMask} (h₁ : Canonical s nm₁)
    (h₂ : Canonical s nm₂) (hlen : nm₁.1.length = nm₂.1.length) : nm₁.2 = nm₂.2 := by
  rcases h₁.mask with ⟨l₁, s₁, m₁⟩ | ⟨l₁, s₁, m₁⟩ | ⟨l₁, m₁⟩ <;>
    rcases h₂.mask with ⟨l₂, s₂, m₂⟩ | ⟨l₂, s₂, m₂⟩ | ⟨l₂, m₂⟩ <;>
    first | omega | rw [m₁, m₂]

/-- A canonical number is left as it is by its mask. -/
theorem Canonical.masked_self {s : Nat} {nm : IP × IPMask} (h : Canonical s nm) :
    List.zipWith (· &&& ·) nm.1 nm.2 = nm.1 := by
  obtain ⟨x, hx⟩ := h.masked
  rw [hx, zipWith_and_idem]

/-- `n.Contains(ip)` for a prefix of canonical form `(c, cm)`: the address, in its four-byte form
if it has one, has the length of `c` and agrees with it under the mask. -/
theorem Contains_iff {n : IPNet} {c cm : IP} (hnm : n.networkNumberAndMask = some (c, cm))
    (hlen : cm.length = c.length) (a : IP) :
    n.Contains a = true ↔ ((a.To4).getD a).length = c.length ∧
      List.zipWith (· &&& ·) c cm = List.zipWith (· &&& ·) ((a.To4).getD a) cm := by
  unfold IPNet.Contains
  rw [hnm]
  simp only [Bool.and_eq_true, beq_iff_eq]
  constructor
  · rintro ⟨hl, hall⟩
    exact ⟨hl, (all_zip_zip_iff c cm _ hlen hl).mp hall⟩
  · rintro ⟨hl, heq⟩
    exact ⟨hl, (all_zip_zip_iff c cm _ hlen hl).mpr heq⟩

/-- **One prefix for a size and an address.**  Two prefixes `ParseCIDR` returns that contain the
same address and have masks of the same size print the same: they have the same network number
and mask in their shortest form. -/
theorem networkNumberAndMask_eq_of_contains {n₁ n₂ : IPNet} {a : IP} (h₁ : CIDRNet n₁)
    (h₂ : CIDRNet n₂) (hsize : n₁.mask.Size.1 = n₂.mask.Size.1) (hc₁ : n₁.Contains a = true)
    (hc₂ : n₂.Contains a = true) : n₁.networkNumberAndMask = n₂.networkNumberAndMask := by
  obtain ⟨⟨c₁, cm₁⟩, hnm₁, hcan₁⟩ := h₁.canonical
  obtain ⟨⟨c₂, cm₂⟩, hnm₂, hcan₂⟩ := h₂.canonical
  rw [hsize] at hcan₁
  obtain ⟨hl₁, he₁⟩ := (Contains_iff hnm₁ hcan₁.length_eq a).mp hc₁
  obtain ⟨hl₂, he₂⟩ := (Contains_iff hnm₂ hcan₂.length_eq a).mp hc₂
  -- both numbers have the length of the address
  have hcm : cm₁ = cm₂ := hcan₁.mask_eq hcan₂ (by dsimp only; omega)
  have hc : c₁ = c₂ := calc
    c₁ = List.zipWith (· &&& ·) c₁ cm₁ := hcan₁.masked_self.symm
    _ = List.zipWith (· &&& ·) ((a.To4).getD a) cm₁ := he₁
    _ = List.zipWith (· &&& ·) ((a.To4).getD a) cm₂ := by rw [hcm]
    _ = List.zipWith (· &&& ·) c₂ cm₂ := he₂.symm
    _ = c₂ := hcan₂.masked_self
  rw [hnm₁, hnm₂, hc, hcm]

end Net
end GoStd
