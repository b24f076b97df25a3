import GrpcGo.Lib.GoMap

/-!
# Counters of the values in a map

A component that keeps, next to a map, one counter for each value its entries can take (a state
per connection, say) moves the counters when an entry changes: one down for the value it had, one
up for the value it gets (`shift`).  `tally f m s` is what the counter of `s` should hold: the
number of entries whose value `f` sends to `s`, counted in the counters' own type `G`, an additive
group with a one (as wrapping machine integers are).  `Counts nums f m t` says the counters hold
those numbers for every value but `t`, a value no entry is kept in (a removed connection's).

* `tally_insert`, `tally_of_lookup`: assigning a key counts its new value, and a key's old value
  was counted once;
* `nsmul_one_eq_ofNat`: counted in `uint64`, a count is the number modulo `2 ^ 64`;
* `Counts.insert_of_lookup`, `Counts.insert_of_lookup_none`, `Counts.erase_of_lookup`: moving an
  entry, adding one (from `t`) and deleting one (to `t`) keep the counters exact when they shift.
-/

namespace Tally

open GoStd

variable {κ ν σ G : Type _} [DecidableEq σ] [AddCommGroup G] [One G]

/-- The number of entries of `m` whose value `f` sends to `s`, in `G`. -/
def tally (f : ν → σ) (m : List (κ × ν)) (s : σ) : G :=
  (m.countP fun e => f e.2 = s) • (1 : G)

/-- The counters after an entry moved from `old` to `new`. -/
def shift (nums : σ → G) (old new : σ) (s : σ) : G :=
  nums s - (if old = s then 1 else 0) + (if new = s then 1 else 0)

/-- The counters `nums` hold the tally of `m` for every value but `t`. -/
def Counts (nums : σ → G) (f : ν → σ) (m : List (κ × ν)) (t : σ) : Prop :=
  ∀ s, s ≠ t → nums s = tally f m s

variable {f : ν → σ}

@[simp] theorem tally_nil (s : σ) : tally f ([] : List (κ × ν)) s = (0 : G) := by
  simp [tally]

theorem tally_cons (k : κ) (v : ν) (m : List (κ × ν)) (s : σ) :
    tally f ((k, v) :: m) s = tally f m s + (if f v = s then 1 else 0 : G) := by
  unfold tally
  rw [List.countP_cons, add_nsmul]
  split <;> simp_all [one_nsmul]

theorem tally_perm {m m' : List (κ × ν)} (h : m.Perm m') (s : σ) :
    tally (G := G) f m s = tally f m' s := by
  rw [tally, tally, h.countP_eq]

/-- A count in `uint64` is the number modulo `2 ^ 64`. -/
theorem nsmul_one_eq_ofNat (n : Nat) : n • (1 : UInt64) = UInt64.ofNat n := by
  induction n with
  | zero => rfl
  | succ n ih => rw [succ_nsmul, ih, UInt64.ofNat_add]; rfl

theorem Counts.congr {nums nums' : σ → G} {m : List (κ × ν)} {t : σ} (h : Counts nums f m t)
    (heq : ∀ s, s ≠ t → nums' s = nums s) : Counts nums' f m t := fun s hs => by
  rw [heq s hs, h s hs]

theorem counts_nil (t : σ) : Counts (fun _ => (0 : G)) f ([] : List (κ × ν)) t := fun s _ => by
  simp

variable [DecidableEq κ]

/-- Assigning a key counts its new value, over the map without its old entry. -/
theorem tally_insert (k : κ) (v : ν) (m : List (κ × ν)) (s : σ) :
    tally f (Map.insert k v m) s = tally f (Map.erase k m) s + (if f v = s then 1 else 0 : G) := by
  rw [tally_perm (Map.perm_insert k v m), tally_cons]

/-- An entry of a map with no key twice is counted once. -/
theorem tally_of_lookup {m : List (κ × ν)} {k : κ} {v : ν} (hm : (m.map Prod.fst).Nodup)
    (h : m.lookup k = some v) (s : σ) :
    tally f m s = tally f (Map.erase k m) s + (if f v = s then 1 else 0 : G) := by
  rw [tally_perm (Map.perm_cons_erase hm h), tally_cons]

/-- Moving an entry from `old` to `new`: the counters shift with it. -/
theorem Counts.insert_of_lookup {nums : σ → G} {m : List (κ × ν)} {t : σ} {k : κ} {old : ν}
    (h : Counts nums f m t) (hm : (m.map Prod.fst).Nodup) (hk : m.lookup k = some old) (new : ν) :
    Counts (shift nums (f old) (f new)) f (Map.insert k new m) t := fun s hs => by
  rw [shift, h s hs, tally_insert, tally_of_lookup hm hk, add_sub_cancel_right]

/-- Adding an entry: the counters shift from `t`. -/
theorem Counts.insert_of_lookup_none {nums : σ → G} {m : List (κ × ν)} {t : σ} {k : κ}
    (h : Counts nums f m t) (hk : m.lookup k = none) (v : ν) :
    Counts (shift nums t (f v)) f (Map.insert k v m) t := fun s hs => by
  rw [shift, h s hs, tally_insert, Map.erase_of_lookup_none hk, if_neg (Ne.symm hs), sub_zero]

/-- Deleting an entry: the counters shift to `t`. -/
theorem Counts.erase_of_lookup {nums : σ → G} {m : List (κ × ν)} {t : σ} {k : κ} {old : ν}
    (h : Counts nums f m t) (hm : (m.map Prod.fst).Nodup) (hk : m.lookup k = some old) :
    Counts (shift nums (f old) t) f (Map.erase k m) t := fun s hs => by
  rw [shift, h s hs, tally_of_lookup hm hk, if_neg (Ne.symm hs), add_zero, add_sub_cancel_right]

end Tally
