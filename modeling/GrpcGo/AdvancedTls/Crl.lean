import GrpcGo.Lib.GoStrings
import GrpcGo.Lib.GoMap

/-!
# CRL revocation checks (`security/advancedtls`)

`CheckChainRevocation` looks for a verified chain none of whose certificates is revoked.  Each
certificate with CRL distribution points is checked against the CRL of its issuer, read from
`RootDir` in the `X509_LOOKUP_hash_dir` layout, verified against the chain, and kept in the
optional cache under the hex encoding of the issuer's raw name.

What the model leaves to parameters (`X509`): the OpenSSL name hash of a raw issuer (`none`
when the name does not parse) and the signature check of a CRL by a certificate.  `RootDir`
is, for each name hash, the run of files `hash.r0`, `hash.r1`, ... that are present, each as
`x509.ParseCRL` reads it.  The cache behaves as a key/value map, and `time.Now()` is an input of
each call.
-/

namespace GrpcGo
namespace AdvancedTls

open GoStd

/-! ## Certificates and CRLs -/

/-- What the checks read of an `x509.Certificate`. -/
structure Certificate where
  rawIssuer : Bytes
  rawSubject : Bytes
  subjectKeyId : Bytes
  publicKey : Bytes
  serialNumber : Int
  crlDistributionPoints : List String
  deriving DecidableEq, Repr

/-- An extension of a CRL entry: a certificate issuer, as `parseCertIssuerExt` reads it (`none`
when it has no directory name or does not parse), or another extension. -/
inductive EntryExtension where
  | certificateIssuer (directoryName : Option Bytes) (critical : Bool)
  | other (critical : Bool)
  deriving DecidableEq, Repr

/-- A `pkix.RevokedCertificate`. -/
structure RevokedCertificate where
  serialNumber : Int
  extensions : List EntryExtension
  deriving DecidableEq, Repr

/-- An `IssuingDistributionPoint` extension. -/
structure IssuingDistributionPoint where
  onlyContainsUserCerts : Bool
  onlyContainsCACerts : Bool
  onlySomeReasonsBitLength : Nat
  indirectCRL : Bool
  onlyContainsAttributeCerts : Bool
  deriving DecidableEq, Repr

/-- An extension of a CRL; the authority key identifier and the issuing distribution point are
`none` when their value does not unmarshal or has trailing data. -/
inductive CRLExtension where
  | deltaCRLIndicator
  | authorityKeyIdentifier (id : Option Bytes)
  | issuingDistributionPoint (dp : Option IssuingDistributionPoint)
  | other (critical : Bool)
  deriving DecidableEq, Repr

/-- A `pkix.CertificateList`; `issuer` is `asn1.Marshal` of its issuer name and `nextUpdate`
a time in seconds. -/
structure CertificateList where
  issuer : Bytes
  nextUpdate : Nat
  revokedCertificates : List RevokedCertificate
  extensions : List CRLExtension
  signatureValue : Bytes
  deriving DecidableEq, Repr

/-- `CertificateList.HasExpired(now)`: `now` is not before `NextUpdate`. -/
def CertificateList.HasExpired (c : CertificateList) (now : Nat) : Bool :=
  !decide (now < c.nextUpdate)

/-- `certificateListExt`. -/
structure CertificateListExt where
  certList : CertificateList
  authorityKeyID : Bytes
  deriving DecidableEq, Repr

/-- `RevocationStatus`. -/
inductive RevocationStatus where
  | undetermined
  | unrevoked
  | revoked
  deriving DecidableEq, Repr

/-- One file of `RootDir`, as `x509.ParseCRL` reads it: `none` when it does not parse. -/
abbrev CRLFile := Option CertificateList

/-- `RevocationConfig`; the cache is kept apart, as the state of a run. -/
structure RevocationConfig where
  /-- For each name hash, the files `hash.r0`, `hash.r1`, ... up to the first missing one. -/
  rootDir : String → List CRLFile
  allowUndetermined : Bool

/-- A cache that behaves as a key/value map from the hex issuer to its CRL. -/
abbrev Cache := List (String × CertificateListExt)

/-- The cryptographic and ASN.1 operations the checks call. -/
structure X509 where
  /-- `asn1.Unmarshal` of a raw issuer followed by `x509NameHash`; `none` when the name does
  not parse. -/
  nameHash : Bytes → Option String
  /-- `c.CheckCRLSignature(crl)` succeeds. -/
  checkCRLSignature : Certificate → CertificateList → Bool

variable (X : X509)

/-! ## Reading CRLs -/

/-- The loop of `parseCRLExtensions`: the authority key identifier found so far, or the reason
the CRL is not supported. -/
def parseCRLExtensionsLoop (akid : Bytes) : List CRLExtension → Except String Bytes
  | [] => .ok akid
  | .deltaCRLIndicator :: _ => .error "delta CRLs unsupported"
  | .authorityKeyIdentifier none :: _ => .error "asn1.Unmarshal failed"
  | .authorityKeyIdentifier (some id) :: exts => parseCRLExtensionsLoop id exts
  | .issuingDistributionPoint none :: _ => .error "asn1.Unmarshal failed"
  | .issuingDistributionPoint (some dp) :: exts =>
    if dp.onlyContainsUserCerts || dp.onlyContainsCACerts || dp.onlyContainsAttributeCerts then
      .error "CRL only contains some certificate types"
    else if dp.indirectCRL then .error "indirect CRLs unsupported"
    else if dp.onlySomeReasonsBitLength ≠ 0 then .error "onlySomeReasons unsupported"
    else parseCRLExtensionsLoop akid exts
  | .other critical :: exts =>
    if critical then .error "unsupported critical extension"
    else parseCRLExtensionsLoop akid exts

/-- `parseCRLExtensions(c)`. -/
def parseCRLExtensions (c : CertificateList) : Except String CertificateListExt := do
  let akid ← parseCRLExtensionsLoop [] c.extensions
  if akid.length = 0 then throw "authority key identifier extension missing"
  pure ⟨c, akid⟩

/-- The loop of `fetchCRL` over the files of one name hash: the last supported CRL of the
issuer is kept; a file that does not parse fails the whole read. -/
def fetchCRLLoop (rawIssuer : Bytes) (parsedCRL : Option CertificateListExt) :
    List CRLFile → Except String (Option CertificateListExt)
  | [] => .ok parsedCRL
  | none :: _ => .error "x509.ParseCrl failed"
  | some crl :: files =>
    match parseCRLExtensions crl with
    | .error _ => fetchCRLLoop rawIssuer parsedCRL files
    | .ok certList =>
      if rawIssuer = certList.certList.issuer then fetchCRLLoop rawIssuer (some certList) files
      else fetchCRLLoop rawIssuer parsedCRL files

/-- `fetchCRL(loc, rawIssuer, cfg)`. -/
def fetchCRL (rawIssuer : Bytes) (cfg : RevocationConfig) : Except String CertificateListExt :=
  match X.nameHash rawIssuer with
  | none => .error "asn1.Unmarshal(Issuer) failed"
  | some hash =>
    match fetchCRLLoop rawIssuer none (cfg.rootDir hash) with
    | .error err => .error err
    | .ok none => .error "fetchCrls no CRLs found for issuer"
    | .ok (some crl) => .ok crl

/-- `verifyCRL(crl, rawIssuer, chain)`: the first certificate of the chain whose subject is the
CRL's issuer and whose subject key id is the CRL's authority key id must verify its signature. -/
def verifyCRL (crl : CertificateListExt) (_rawIssuer : Bytes) (chain : List Certificate) :
    Except String Unit :=
  match chain.find? fun c =>
      c.subjectKeyId == crl.authorityKeyID && c.rawSubject == crl.certList.issuer with
  | some c =>
    if X.checkCRLSignature c crl.certList then .ok ()
    else .error "x509: signature verification failure"
  | none => .error "verifyCRL: No certificates mached CRL issuer"

/-- `cachedCrl(rawIssuer, cache)` at time `now`: a cached CRL that has not expired. -/
def cachedCrl (rawIssuer : Bytes) (cache : Cache) (now : Nat) : Option CertificateListExt :=
  match cache.lookup (Hex.EncodeToString rawIssuer) with
  | none => none
  | some crl => if crl.certList.HasExpired now then none else some crl

/-- `fetchIssuerCRL(crlDistributionPoint, rawIssuer, crlVerifyCrt, cfg)` at time `now`, with the
cache before and after: a cache hit is returned as it is; otherwise the CRL is read, verified
against `crlVerifyCrt` and added to the cache. -/
def fetchIssuerCRL (crlDistributionPoint : String) (rawIssuer : Bytes)
    (crlVerifyCrt : List Certificate) (cfg : RevocationConfig) (now : Nat) (cache : Option Cache) :
    Except String CertificateListExt × Option Cache :=
  match cache.bind fun c => cachedCrl rawIssuer c now with
  | some crl => (.ok crl, cache)
  | none =>
    match fetchCRL X rawIssuer cfg with
    | .error err => (.error ("fetchCRL(" ++ crlDistributionPoint ++ ") failed err = " ++ err), cache)
    | .ok crl =>
      match verifyCRL X crl rawIssuer crlVerifyCrt with
      | .error err =>
        (.error ("verifyCRL(" ++ crlDistributionPoint ++ ") failed err = " ++ err), cache)
      | .ok () => (.ok crl, cache.map (Map.insert (Hex.EncodeToString rawIssuer) crl))

/-! ## Checking certificates and chains -/

/-- The issuer of the next CRL entry: a certificate issuer extension replaces it; a critical
extension that cannot be read stops the check. -/
def entryIssuer (rawEntryIssuer : Bytes) : List EntryExtension → Except String Bytes
  | [] => .ok rawEntryIssuer
  | .certificateIssuer (some dn) _ :: exts => entryIssuer dn exts
  | .certificateIssuer none critical :: exts =>
    if critical then .error "no DN found in certificate issuer" else entryIssuer rawEntryIssuer exts
  | .other critical :: exts =>
    if critical then .error "checkCertRevocation: Unhandled critical extension"
    else entryIssuer rawEntryIssuer exts

/-- The entry loop of `checkCertRevocation`, with the issuer of the previous entry. -/
def checkCertRevocationLoop (c : Certificate) (rawEntryIssuer : Bytes) :
    List RevokedCertificate → Except String RevocationStatus
  | [] => .ok .unrevoked
  | revCert :: revoked => do
    let rawEntryIssuer ← entryIssuer rawEntryIssuer revCert.extensions
    if c.rawIssuer = rawEntryIssuer ∧ c.serialNumber = revCert.serialNumber then .ok .revoked
    else checkCertRevocationLoop c rawEntryIssuer revoked

/-- `checkCertRevocation(c, crl)`; an error stands for `RevocationUndetermined` with it. -/
def checkCertRevocation (c : Certificate) (crl : CertificateListExt) :
    Except String RevocationStatus :=
  checkCertRevocationLoop c crl.certList.issuer crl.certList.revokedCertificates

/-- The distribution point loop of `checkCert`: the first CRL that loads, verifies and can be
read decides. -/
def checkCertLoop (c : Certificate) (crlVerifyCrt : List Certificate) (cfg : RevocationConfig)
    (now : Nat) : List String → Option Cache → RevocationStatus × Option Cache
  | [], cache => (.undetermined, cache)
  | dp :: dps, cache =>
    match fetchIssuerCRL X dp c.rawIssuer crlVerifyCrt cfg now cache with
    | (.error _, cache) => checkCertLoop c crlVerifyCrt cfg now dps cache
    | (.ok crl, cache) =>
      match checkCertRevocation c crl with
      | .error _ => checkCertLoop c crlVerifyCrt cfg now dps cache
      | .ok revocation => (revocation, cache)

/-- `checkCert(c, crlVerifyCrt, cfg)`. -/
def checkCert (c : Certificate) (crlVerifyCrt : List Certificate) (cfg : RevocationConfig)
    (now : Nat) (cache : Option Cache) : RevocationStatus × Option Cache :=
  if c.crlDistributionPoints.length = 0 then (.unrevoked, cache)
  else checkCertLoop X c crlVerifyCrt cfg now c.crlDistributionPoints cache

/-- The loop of `checkChain`: a revoked certificate decides, an undetermined one lowers the
status of the chain. -/
def checkChainLoop (chain : List Certificate) (cfg : RevocationConfig) (now : Nat)
    (chainStatus : RevocationStatus) : List Certificate → Option Cache →
      RevocationStatus × Option Cache
  | [], cache => (chainStatus, cache)
  | c :: cs, cache =>
    match checkCert X c chain cfg now cache with
    | (.revoked, cache) => (.revoked, cache)
    | (.undetermined, cache) => checkChainLoop chain cfg now .undetermined cs cache
    | (.unrevoked, cache) => checkChainLoop chain cfg now chainStatus cs cache

/-- `checkChain(chain, cfg)`. -/
def checkChain (chain : List Certificate) (cfg : RevocationConfig) (now : Nat)
    (cache : Option Cache) : RevocationStatus × Option Cache :=
  checkChainLoop X chain cfg now .unrevoked chain cache

/-- The `%v` of the `count` map: the statuses that occurred, in the order of their values. -/
def countString (revoked undetermined : Nat) : String :=
  let entries :=
    (if 0 < undetermined then ["RevocationUndetermined:" ++ toString undetermined] else []) ++
      (if 0 < revoked then ["RevocationRevoked:" ++ toString revoked] else [])
  "map[" ++ " ".intercalate entries ++ "]"

/-- The chain loop of `CheckChainRevocation`, with the counts of revoked and undetermined
chains. -/
def checkChainRevocationLoop (cfg : RevocationConfig) (now : Nat) (revoked undetermined : Nat) :
    List (List Certificate) → Option Cache → Option String × Option Cache
  | [], cache =>
    (some ("no unrevoked chains found: " ++ countString revoked undetermined), cache)
  | chain :: chains, cache =>
    match checkChain X chain cfg now cache with
    | (.unrevoked, cache) => (none, cache)
    | (.revoked, cache) => checkChainRevocationLoop cfg now (revoked + 1) undetermined chains cache
    | (.undetermined, cache) =>
      if cfg.allowUndetermined then (none, cache)
      else checkChainRevocationLoop cfg now revoked (undetermined + 1) chains cache

/-- `CheckChainRevocation(verifiedChains, cfg)` at time `now`: `none` is a nil error. -/
def CheckChainRevocation (verifiedChains : List (List Certificate)) (cfg : RevocationConfig)
    (now : Nat) (cache : Option Cache) : Option String × Option Cache :=
  checkChainRevocationLoop X cfg now 0 0 verifiedChains cache

end AdvancedTls
end GrpcGo
