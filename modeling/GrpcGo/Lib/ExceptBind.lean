import Mathlib

/-!
# Computing with `Except`

The modelled Go functions return a value or an error, written as `do` blocks in `Except`.  These
lemmas evaluate such blocks (`ok` and `error` through `bind`, `map` and `mapError`) and invert a
successful bind, so that a proof about a compiled value can peel its `do` block apart with
`obtain` instead of unfolding the monad.
-/

namespace Except

variable {ε ε' α β : Type _}

@[simp] theorem ok_bind (a : α) (f : α → Except ε β) : (Except.ok a >>= f) = f a := rfl

@[simp] theorem error_bind (e : ε) (f : α → Except ε β) :
    (Except.error e >>= f) = Except.error e := rfl

@[simp] theorem pure_eq_ok (a : α) : (pure a : Except ε α) = Except.ok a := rfl

@[simp] theorem throw_eq_error (e : ε) : (throw e : Except ε α) = Except.error e := rfl

@[simp] theorem map_ok' (f : α → β) (a : α) : (Except.ok a : Except ε α).map f = .ok (f a) := rfl

@[simp] theorem map_error' (f : α → β) (e : ε) : (Except.error e : Except ε α).map f = .error e :=
  rfl

@[simp] theorem mapError_ok' (f : ε → ε') (a : α) :
    (Except.ok a : Except ε α).mapError f = .ok a := rfl

@[simp] theorem mapError_error' (f : ε → ε') (e : ε) :
    (Except.error e : Except ε α).mapError f = .error (f e) := rfl

/-- A bind succeeds exactly when its first computation does and the continuation succeeds on
that value. -/
theorem bind_eq_ok_iff {x : Except ε α} {f : α → Except ε β} {b : β} :
    (x >>= f) = .ok b ↔ ∃ a, x = .ok a ∧ f a = .ok b := by
  cases x with
  | error e => simp
  | ok a => simp

theorem map_eq_ok_iff {x : Except ε α} {f : α → β} {b : β} :
    x.map f = .ok b ↔ ∃ a, x = .ok a ∧ f a = b := by
  cases x with
  | error e => simp
  | ok a => simp

theorem map_eq_error_iff {x : Except ε α} {f : α → β} {e : ε} :
    x.map f = .error e ↔ x = .error e := by
  cases x with
  | error e' => simp
  | ok a => simp

theorem mapError_eq_ok_iff {x : Except ε α} {f : ε → ε'} {a : α} :
    x.mapError f = .ok a ↔ x = .ok a := by
  cases x with
  | error e => simp
  | ok a => simp

/-- An invariant of the accumulator of a `foldlM`, kept by each step that succeeds, holds of its
result. -/
theorem foldlM_invariant {f : β → α → Except ε β} (P : β → Prop) :
    ∀ (xs : List α), (∀ b x b', x ∈ xs → P b → f b x = .ok b' → P b') →
      ∀ {b r : β}, P b → xs.foldlM f b = .ok r → P r
  | [], _, b, r, hb, h => by
    rw [List.foldlM_nil, pure_eq_ok, Except.ok.injEq] at h
    exact h ▸ hb
  | x :: xs, hstep, b, r, hb, h => by
    rw [List.foldlM_cons, bind_eq_ok_iff] at h
    obtain ⟨b', hb', h⟩ := h
    exact foldlM_invariant P xs (fun b y b'' hy => hstep b y b'' (List.mem_cons_of_mem _ hy))
      (hstep b x b' List.mem_cons_self hb hb') h

/-- A `foldlM` whose steps all succeed is the `foldl` of their values. -/
theorem foldlM_eq_ok_of_forall {f : β → α → Except ε β} {g : β → α → β} :
    ∀ (xs : List α) (b : β), (∀ b, ∀ x ∈ xs, f b x = .ok (g b x)) →
      xs.foldlM f b = .ok (xs.foldl g b)
  | [], _, _ => rfl
  | x :: xs, b, h => by
    rw [List.foldlM_cons, h b x List.mem_cons_self, ok_bind, List.foldl_cons]
    exact foldlM_eq_ok_of_forall xs _ fun b y hy => h b y (List.mem_cons_of_mem x hy)

/-- Each value of a successful `mapM` is the value of one of its inputs. -/
theorem mem_of_mapM_eq_ok {f : α → Except ε β} :
    ∀ {xs : List α} {ys : List β}, xs.mapM f = .ok ys → ∀ y ∈ ys, ∃ x ∈ xs, f x = .ok y
  | [], ys, h, y, hy => by
    rw [List.mapM_nil, pure_eq_ok, Except.ok.injEq] at h
    subst h
    exact absurd hy List.not_mem_nil
  | x :: xs, ys, h, y, hy => by
    rw [List.mapM_cons, bind_eq_ok_iff] at h
    obtain ⟨y₀, hy₀, h⟩ := h
    rw [bind_eq_ok_iff] at h
    obtain ⟨ys', hys', h⟩ := h
    rw [pure_eq_ok, Except.ok.injEq] at h
    subst h
    rcases List.mem_cons.mp hy with rfl | hy
    · exact ⟨x, List.mem_cons_self, hy₀⟩
    · obtain ⟨x', hx', hfx'⟩ := mem_of_mapM_eq_ok hys' y hy
      exact ⟨x', List.mem_cons_of_mem _ hx', hfx'⟩

/-- A successful `mapM` relates each input to its value. -/
theorem forall₂_of_mapM_eq_ok {f : α → Except ε β} :
    ∀ {xs : List α} {ys : List β}, xs.mapM f = .ok ys → List.Forall₂ (fun x y => f x = .ok y) xs ys
  | [], ys, h => by
    rw [List.mapM_nil, pure_eq_ok, Except.ok.injEq] at h
    subst h
    exact List.Forall₂.nil
  | x :: xs, ys, h => by
    rw [List.mapM_cons, bind_eq_ok_iff] at h
    obtain ⟨y, hy, h⟩ := h
    rw [bind_eq_ok_iff] at h
    obtain ⟨ys', hys', h⟩ := h
    rw [pure_eq_ok, Except.ok.injEq] at h
    subst h
    exact List.Forall₂.cons hy (forall₂_of_mapM_eq_ok hys')

/-- `mapM` succeeds with the values `g` gives when `f` succeeds with them on every element. -/
theorem mapM_eq_ok_of_forall {f : α → Except ε β} {g : α → β} :
    ∀ {xs : List α}, (∀ x ∈ xs, f x = .ok (g x)) → xs.mapM f = .ok (xs.map g)
  | [], _ => rfl
  | x :: xs, h => by
    rw [List.mapM_cons, h x List.mem_cons_self, ok_bind,
      mapM_eq_ok_of_forall (fun y hy => h y (List.mem_cons_of_mem x hy))]
    rfl

/-- A loop that appends the value of each element, stopping at the first error, succeeds
exactly when `mapM` does, with the values after what it started with. -/
theorem foldlM_append_eq_ok {f : α → Except ε β} :
    ∀ (xs : List α) (acc r : List β),
      xs.foldlM (fun acc x => f x >>= fun y => pure (acc ++ [y])) acc = .ok r ↔
        ∃ ys, xs.mapM f = .ok ys ∧ r = acc ++ ys
  | [], acc, r => by
    rw [List.foldlM_nil, List.mapM_nil, pure_eq_ok, Except.ok.injEq]
    constructor
    · rintro rfl
      exact ⟨[], rfl, (List.append_nil acc).symm⟩
    · rintro ⟨ys, hys, rfl⟩
      rw [pure_eq_ok, Except.ok.injEq] at hys
      rw [← hys, List.append_nil]
  | x :: xs, acc, r => by
    rw [List.foldlM_cons, List.mapM_cons]
    cases hx : f x with
    | error e =>
      -- the loop and `mapM` stop at the same error
      simp only [error_bind]
      constructor
      · intro h
        cases h
      · rintro ⟨ys, hys, -⟩
        cases hys
    | ok y =>
      rw [ok_bind, pure_eq_ok, ok_bind, ok_bind, foldlM_append_eq_ok xs (acc ++ [y]) r]
      constructor
      · rintro ⟨ys, hys, rfl⟩
        exact ⟨y :: ys, by rw [hys]; rfl, by simp⟩
      · rintro ⟨zs, hzs, rfl⟩
        rw [bind_eq_ok_iff] at hzs
        obtain ⟨ys, hys, hpure⟩ := hzs
        rw [pure_eq_ok, Except.ok.injEq] at hpure
        subst hpure
        exact ⟨ys, hys, by simp⟩

end Except
