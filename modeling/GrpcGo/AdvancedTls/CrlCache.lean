import GrpcGo.AdvancedTls.Crl

/-!
# When the CRL cache is transparent

A run is a sequence of `CheckChainRevocation` calls that share one cache.  The cache holds, under
the hex encoding of a raw issuer, the CRL that `fetchCRL` read for that issuer
(`CacheFaithful`); a cache hit skips `verifyCRL`.  So the cached run gives the results of the
uncached one as long as every chain verifies the CRLs of its own issuers
(`runChecks_cached_eq_uncached`), and not in general: two CAs with one name and two keys tell
the two runs apart (`runChecks_otherKeySameName`).

The proofs go down the call structure: one agreement lemma per function of `crl.go`, each by
induction over the loop it models, with the cache invariant carried from step to step.
-/

namespace GrpcGo
namespace AdvancedTls

open GoStd

variable (X : X509)

/-- A run: each call with its chains and its time, sharing the cache; the results of the calls
(`none` for a nil error). -/
def runChecks (cfg : RevocationConfig) :
    List (List (List Certificate) × Nat) → Option Cache → List (Option String)
  | [], _ => []
  | (chains, now) :: calls, cache =>
    let (result, cache) := CheckChainRevocation X chains cfg now cache
    result :: runChecks cfg calls cache

/-- Every cached CRL is the one `fetchCRL` reads for the issuer it is cached under. -/
def CacheFaithful (cfg : RevocationConfig) (cache : Cache) : Prop :=
  ∀ rawIssuer crl, cache.lookup (Hex.EncodeToString rawIssuer) = some crl →
    fetchCRL X rawIssuer cfg = .ok crl

/-- The chain verifies every CRL that `fetchCRL` reads for the issuer of one of its
certificates. -/
def VerifiesOwnCRLs (cfg : RevocationConfig) (chain : List Certificate) : Prop :=
  ∀ c ∈ chain, ∀ crl, fetchCRL X c.rawIssuer cfg = .ok crl → verifyCRL X crl c.rawIssuer chain = .ok ()

/-- A step with the cache and the same step without it: the same result, no cache kept by the
uncached step, and a faithful cache kept by the cached one. -/
def Agrees {α : Type} (cfg : RevocationConfig) (cached uncached : α × Option Cache) : Prop :=
  cached.1 = uncached.1 ∧ uncached.2 = none ∧ ∃ cache, cached.2 = some cache ∧ CacheFaithful X cfg cache

theorem cacheFaithful_nil (cfg : RevocationConfig) : CacheFaithful X cfg [] := by
  intro rawIssuer crl h
  simp at h

theorem cachedCrl_eq_some {rawIssuer : Bytes} {cache : Cache} {now : Nat}
    {crl : CertificateListExt} (h : cachedCrl rawIssuer cache now = some crl) :
    cache.lookup (Hex.EncodeToString rawIssuer) = some crl := by
  unfold cachedCrl at h
  split at h
  · cases h
  · rename_i crl' hl
    split at h
    · cases h
    · cases h
      exact hl

/-- Adding the CRL `fetchCRL` read for an issuer keeps the cache faithful. -/
theorem cacheFaithful_insert {cfg : RevocationConfig} {cache : Cache} {rawIssuer : Bytes}
    {crl : CertificateListExt} (hinv : CacheFaithful X cfg cache)
    (hfetch : fetchCRL X rawIssuer cfg = .ok crl) :
    CacheFaithful X cfg (Map.insert (Hex.EncodeToString rawIssuer) crl cache) := by
  intro r crl' h
  rw [Map.lookup_insert] at h
  split at h
  · rename_i hkey
    cases h
    rw [Hex.EncodeToString_inj hkey]
    exact hfetch
  · exact hinv r crl' h

section Agreement

variable {X} {cfg : RevocationConfig} (now : Nat)

theorem fetchIssuerCRL_agrees (dp : String) {rawIssuer : Bytes} {chain : List Certificate}
    {cache : Cache} (hinv : CacheFaithful X cfg cache)
    (hv : ∀ crl, fetchCRL X rawIssuer cfg = .ok crl → verifyCRL X crl rawIssuer chain = .ok ()) :
    Agrees X cfg (fetchIssuerCRL X dp rawIssuer chain cfg now (some cache))
      (fetchIssuerCRL X dp rawIssuer chain cfg now none) := by
  cases hhit : cachedCrl rawIssuer cache now with
  | some crl =>
    -- A hit returns the cached CRL, which is the one the uncached call reads and verifies.
    have hfetch := hinv rawIssuer crl (cachedCrl_eq_some hhit)
    refine ⟨?_, ?_, cache, ?_, hinv⟩
    · simp [fetchIssuerCRL, hhit, hfetch, hv crl hfetch]
    · simp [fetchIssuerCRL, hfetch, hv crl hfetch]
    · simp [fetchIssuerCRL, hhit]
  | none =>
    -- A miss reads and verifies as the uncached call does, then caches the CRL.
    cases hfetch : fetchCRL X rawIssuer cfg with
    | error err =>
      exact ⟨by simp [fetchIssuerCRL, hhit, hfetch], by simp [fetchIssuerCRL, hfetch],
        cache, by simp [fetchIssuerCRL, hhit, hfetch], hinv⟩
    | ok crl =>
      have hver := hv crl hfetch
      exact ⟨by simp [fetchIssuerCRL, hhit, hfetch, hver],
        by simp [fetchIssuerCRL, hfetch, hver], _,
        by simp [fetchIssuerCRL, hhit, hfetch, hver], cacheFaithful_insert X hinv hfetch⟩

theorem checkCertLoop_agrees {c : Certificate} {chain : List Certificate}
    (hv : ∀ crl, fetchCRL X c.rawIssuer cfg = .ok crl → verifyCRL X crl c.rawIssuer chain = .ok ()) :
    ∀ (dps : List String) {cache : Cache}, CacheFaithful X cfg cache →
      Agrees X cfg (checkCertLoop X c chain cfg now dps (some cache))
        (checkCertLoop X c chain cfg now dps none)
  | [], cache, hinv => ⟨rfl, rfl, cache, rfl, hinv⟩
  | dp :: dps, cache, hinv => by
    obtain ⟨hres, hnone, cache', hcache', hinv'⟩ :=
      fetchIssuerCRL_agrees now dp hinv hv
    have ih := checkCertLoop_agrees hv dps hinv'
    -- Both calls take the same branch on the same result of `fetchIssuerCRL`.
    unfold checkCertLoop
    rw [← Prod.eta (fetchIssuerCRL X dp c.rawIssuer chain cfg now (some cache)),
      ← Prod.eta (fetchIssuerCRL X dp c.rawIssuer chain cfg now none), hres, hnone, hcache']
    rcases (fetchIssuerCRL X dp c.rawIssuer chain cfg now none).1 with err | crl
    · exact ih
    · rcases hcr : checkCertRevocation c crl with err | revocation
      · simp only [hcr]
        exact ih
      · simp only [hcr]
        exact ⟨rfl, rfl, cache', rfl, hinv'⟩

theorem checkCert_agrees {c : Certificate} {chain : List Certificate} {cache : Cache}
    (hinv : CacheFaithful X cfg cache)
    (hv : ∀ crl, fetchCRL X c.rawIssuer cfg = .ok crl → verifyCRL X crl c.rawIssuer chain = .ok ()) :
    Agrees X cfg (checkCert X c chain cfg now (some cache)) (checkCert X c chain cfg now none) := by
  unfold checkCert
  split
  · exact ⟨rfl, rfl, cache, rfl, hinv⟩
  · exact checkCertLoop_agrees now hv _ hinv

theorem checkChainLoop_agrees {chain : List Certificate} (hv : VerifiesOwnCRLs X cfg chain) :
    ∀ (status : RevocationStatus) (cs : List Certificate), (∀ c ∈ cs, c ∈ chain) →
      ∀ {cache : Cache}, CacheFaithful X cfg cache →
        Agrees X cfg (checkChainLoop X chain cfg now status cs (some cache))
          (checkChainLoop X chain cfg now status cs none)
  | status, [], _, cache, hinv => ⟨rfl, rfl, cache, rfl, hinv⟩
  | status, c :: cs, hcs, cache, hinv => by
    obtain ⟨hres, hnone, cache', hcache', hinv'⟩ :=
      checkCert_agrees now hinv (hv c (hcs c List.mem_cons_self))
    have hcs' : ∀ c' ∈ cs, c' ∈ chain := fun c' hc' => hcs c' (List.mem_cons_of_mem _ hc')
    unfold checkChainLoop
    rw [← Prod.eta (checkCert X c chain cfg now (some cache)),
      ← Prod.eta (checkCert X c chain cfg now none), hres, hnone, hcache']
    cases (checkCert X c chain cfg now none).1 with
    | revoked => exact ⟨rfl, rfl, cache', rfl, hinv'⟩
    | undetermined => exact checkChainLoop_agrees hv _ cs hcs' hinv'
    | unrevoked => exact checkChainLoop_agrees hv _ cs hcs' hinv'

theorem checkChainRevocationLoop_agrees :
    ∀ (revoked undetermined : Nat) (chains : List (List Certificate)),
      (∀ chain ∈ chains, VerifiesOwnCRLs X cfg chain) → ∀ {cache : Cache},
        CacheFaithful X cfg cache →
          Agrees X cfg (checkChainRevocationLoop X cfg now revoked undetermined chains (some cache))
            (checkChainRevocationLoop X cfg now revoked undetermined chains none)
  | revoked, undetermined, [], _, cache, hinv => ⟨rfl, rfl, cache, rfl, hinv⟩
  | revoked, undetermined, chain :: chains, hv, cache, hinv => by
    obtain ⟨hres, hnone, cache', hcache', hinv'⟩ :=
      checkChainLoop_agrees now (hv chain List.mem_cons_self) .unrevoked chain
        (fun _ h => h) hinv
    have hv' : ∀ chain' ∈ chains, VerifiesOwnCRLs X cfg chain' :=
      fun chain' h => hv chain' (List.mem_cons_of_mem _ h)
    unfold checkChainRevocationLoop
    rw [checkChain, checkChain, ← Prod.eta (checkChainLoop X chain cfg now .unrevoked chain (some cache)),
      ← Prod.eta (checkChainLoop X chain cfg now .unrevoked chain none), hres, hnone, hcache']
    cases (checkChainLoop X chain cfg now .unrevoked chain none).1 with
    | unrevoked => exact ⟨rfl, rfl, cache', rfl, hinv'⟩
    | revoked => exact checkChainRevocationLoop_agrees _ _ chains hv' hinv'
    | undetermined =>
      by_cases hallow : cfg.allowUndetermined
      · simp only [hallow, if_true]
        exact ⟨rfl, rfl, cache', rfl, hinv'⟩
      · simp only [hallow]
        exact checkChainRevocationLoop_agrees _ _ chains hv' hinv'

end Agreement

/-- **The cache is transparent for chains that verify their own CRLs.**  From an empty cache,
a run of `CheckChainRevocation` calls gives the results of the same run without a cache, when
every chain verifies every CRL read for the issuer of one of its certificates. -/
theorem runChecks_cached_eq_uncached (cfg : RevocationConfig) :
    ∀ (calls : List (List (List Certificate) × Nat)),
      (∀ call ∈ calls, ∀ chain ∈ call.1, VerifiesOwnCRLs X cfg chain) →
        ∀ {cache : Cache}, CacheFaithful X cfg cache →
          runChecks X cfg calls (some cache) = runChecks X cfg calls none
  | [], _, _, _ => rfl
  | (chains, now) :: calls, hv, cache, hinv => by
    obtain ⟨hres, hnone, cache', hcache', hinv'⟩ :=
      checkChainRevocationLoop_agrees now 0 0 chains
        (hv (chains, now) List.mem_cons_self) hinv
    have hv' : ∀ call ∈ calls, ∀ chain ∈ call.1, VerifiesOwnCRLs X cfg chain :=
      fun call h => hv call (List.mem_cons_of_mem _ h)
    simp only [runChecks, CheckChainRevocation]
    rw [← Prod.eta (checkChainRevocationLoop X cfg now 0 0 chains (some cache)),
      ← Prod.eta (checkChainRevocationLoop X cfg now 0 0 chains none), hres, hnone, hcache',
      runChecks_cached_eq_uncached cfg calls hv' hinv']

/-- Two CAs with one subject name (`30 0c`) and two key ids, and a CRL of the first in `RootDir`.
The first call caches the CRL after verifying it against the first CA; the second call, for a
leaf of the second CA, takes it from the cache unverified and admits the chain, where the same
call without a cache finds no certificate of its chain that verifies the CRL and fails. -/
theorem runChecks_otherKeySameName :
    runChecks ⟨fun r => some (Hex.EncodeToString r), fun c crl => c.publicKey == crl.signatureValue⟩
        ⟨fun hash => if hash = "300c" then
            [some ⟨[0x30, 0x0c], 100, [], [.authorityKeyIdentifier (some [1])], [0x0a]⟩] else [],
          false⟩
        [([[⟨[0x30, 0x0c], [0x31], [3], [0x0c], 10, ["crl"]⟩,
            ⟨[0x30, 0x0c], [0x30, 0x0c], [1], [0x0a], 1, []⟩]], 0),
          ([[⟨[0x30, 0x0c], [0x32], [4], [0x0d], 11, ["crl"]⟩,
            ⟨[0x30, 0x0c], [0x30, 0x0c], [2], [0x0b], 2, []⟩]], 0)]
        (some []) = [none, none] ∧
    runChecks ⟨fun r => some (Hex.EncodeToString r), fun c crl => c.publicKey == crl.signatureValue⟩
        ⟨fun hash => if hash = "300c" then
            [some ⟨[0x30, 0x0c], 100, [], [.authorityKeyIdentifier (some [1])], [0x0a]⟩] else [],
          false⟩
        [([[⟨[0x30, 0x0c], [0x31], [3], [0x0c], 10, ["crl"]⟩,
            ⟨[0x30, 0x0c], [0x30, 0x0c], [1], [0x0a], 1, []⟩]], 0),
          ([[⟨[0x30, 0x0c], [0x32], [4], [0x0d], 11, ["crl"]⟩,
            ⟨[0x30, 0x0c], [0x30, 0x0c], [2], [0x0b], 2, []⟩]], 0)]
        none = [none, some "no unrevoked chains found: map[RevocationUndetermined:1]"] :=
  ⟨by decide, by decide⟩

end AdvancedTls
end GrpcGo
