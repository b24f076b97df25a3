import GrpcGo.Lib.GoNet
import GrpcGo.Lib.GoNetHostPort

/-!
# The addresses of the DNS resolver (`internal/resolver/dns/dns_resolver.go`)

`lookupHost` and `lookupSRV` turn the IP addresses of A records into `host:port` strings with
`formatIP`, which puts an address in square brackets unless `ip.To4()` finds it an IPv4 address.
The DNS lookups themselves are the environment's: their results are arguments.

* `formatIP_of_ParseIP`: what `formatIP` returns for an address `net.ParseIP` accepts.
* `address_splits_iff`: the `host:port` string splits back into the address and the port
  exactly when the address parses to no IPv4 address, or has no colon.  An IPv4-mapped IPv6
  address written with colons is not bracketed, and `net.SplitHostPort` refuses the string
  (`lookupHost_mapped_too_many_colons`).
-/

namespace GrpcGo
namespace Resolver

open GoStd Net

/-- `formatIP(addr)`: the address as a host, and whether it is an IP address. -/
def formatIP (addr : String) : String × Bool :=
  match ParseIP addr with
  | none => ("", false)
  | some ip => if (IP.To4 ip).isSome then (addr, true) else ("[" ++ addr ++ "]", true)

/-- A `*net.DNSError` or another error of a lookup. -/
structure DNSError where
  isDNSError : Bool
  IsTimeout : Bool
  IsTemporary : Bool
  text : String
  deriving DecidableEq, Repr

/-- `handleDNSError(err, lookupType)`: `none` for an error that is not worth reporting. -/
def handleDNSError (err : DNSError) (lookupType : String) : Option String :=
  if err.isDNSError && !err.IsTimeout && !err.IsTemporary then none
  else some ("dns: " ++ lookupType ++ " record lookup error: " ++ err.text)

/-- A `resolver.Address` as the DNS resolver fills it. -/
structure Address where
  Addr : String
  ServerName : String
  deriving DecidableEq, Repr

/-- The error for an A record that is not an IP address. -/
def errParsingIP (a : String) : String := "dns: error parsing A record IP address " ++ a

/-- The addresses of the A records `addrs` with the port `port` and the server name
`serverName`. -/
def formatAddrs (addrs : List String) (port serverName : String) : Except String (List Address) :=
  addrs.mapM fun a =>
    match formatIP a with
    | (ip, true) => .ok ⟨ip ++ ":" ++ port, serverName⟩
    | (_, false) => .error (errParsingIP a)

/-- `d.lookupHost()`, given what `LookupHost(d.host)` returned: the addresses, or the error to
report, which may be none. -/
def lookupHost (addrs : Except DNSError (List String)) (port : String) :
    List Address × Option String :=
  match addrs with
  | .error err => ([], handleDNSError err "A")
  | .ok addrs =>
    match formatAddrs addrs port "" with
    | .ok newAddrs => (newAddrs, none)
    | .error err => ([], some err)

/-- A `*net.SRV` record. -/
structure SRV where
  Target : String
  Port : UInt16
  deriving DecidableEq, Repr

/-- The loop of `lookupSRV` over the SRV records, with `lookup` for `LookupHost`. -/
def lookupSRVLoop (lookup : String → Except DNSError (List String)) :
    List SRV → List Address × Option String
  | [] => ([], none)
  | s :: srvs =>
    match lookup s.Target with
    | .error err =>
      match handleDNSError err "A" with
      -- ignore a target that does not exist
      | none => lookupSRVLoop lookup srvs
      | some err => ([], some err)
    | .ok lbAddrs =>
      match formatAddrs lbAddrs (toString s.Port.toNat) s.Target with
      | .error err => ([], some err)
      | .ok here =>
        match lookupSRVLoop lookup srvs with
        | (rest, none) => (here ++ rest, none)
        | (_, some err) => ([], some err)

/-- `d.lookupSRV()`, given `EnableSRVLookups`, what `LookupSRV` returned and `LookupHost`. -/
def lookupSRV (EnableSRVLookups : Bool) (srvs : Except DNSError (List SRV))
    (lookup : String → Except DNSError (List String)) : List Address × Option String :=
  if !EnableSRVLookups then ([], none)
  else
    match srvs with
    | .error err => ([], handleDNSError err "SRV")
    | .ok srvs => lookupSRVLoop lookup srvs

/-! ## Splitting the addresses back -/

/-- What `formatIP` returns for an address `ParseIP` accepts. -/
theorem formatIP_of_ParseIP {a : String} {ip : IP} (h : ParseIP a = some ip) :
    formatIP a = (if (IP.To4 ip).isSome then a else "[" ++ a ++ "]", true) := by
  unfold formatIP
  rw [h]
  dsimp only
  split_ifs <;> rfl

/-- **Which addresses split back.**  For an address `a` that `ParseIP` accepts, without
brackets, and a port `p` without a colon or brackets, the string `formatIP(a) + ":" + p` splits
into `a` and `p` exactly when `a` is not an IPv4 address or has no colon: an IPv4-mapped IPv6
address written with colons is left without brackets and refused with `too many colons`. -/
theorem address_splits_iff {a p : String} {ip : IP} (hip : ParseIP a = some ip)
    (hbr : '[' ∉ a.toList ∧ ']' ∉ a.toList)
    (hp : ':' ∉ p.toList ∧ '[' ∉ p.toList ∧ ']' ∉ p.toList) :
    SplitHostPort ((formatIP a).1 ++ ":" ++ p) = .ok (a, p) ↔
      (IP.To4 ip = none ∨ ':' ∉ a.toList) := by
  rw [formatIP_of_ParseIP hip]
  dsimp only
  by_cases h4 : (IP.To4 ip).isSome
  · rw [if_pos h4]
    have hstr : a ++ ":" ++ p = String.ofList (a.toList ++ ':' :: p.toList) := by
      rw [← String.toList_inj]
      simp
    rw [hstr]
    by_cases hc : ':' ∈ a.toList
    · -- a colon in an unbracketed host
      have hhead : a.toList.head? ≠ some '[' := by
        intro hh
        exact hbr.1 (List.mem_of_mem_head? hh)
      rw [SplitHostPort_colon hc hhead hp.1]
      simp only [reduceCtorEq, false_iff, not_or, not_not]
      exact ⟨(fun hn => by rw [hn] at h4; cases h4), hc⟩
    · rw [SplitHostPort_plain ⟨hc, hbr⟩ hp, String.ofList_toList, String.ofList_toList]
      exact iff_of_true rfl (.inr hc)
  · rw [if_neg h4]
    have hnone : IP.To4 ip = none := Option.not_isSome_iff_eq_none.mp h4
    have hstr : "[" ++ a ++ "]" ++ ":" ++ p = String.ofList ('[' :: (a.toList ++ ']' :: ':' :: p.toList)) := by
      rw [← String.toList_inj]
      simp
    rw [hstr, SplitHostPort_bracketed hbr hp, String.ofList_toList, String.ofList_toList]
    exact iff_of_true rfl (.inl hnone)

/-- **An IPv4-mapped address breaks the address.**  An A record `::ffff:1.2.3.4`, which
`ParseIP` accepts as an IPv4 address, becomes `::ffff:1.2.3.4:443` with the port `443`, and
`net.SplitHostPort` refuses it with `too many colons in address`; so does the address an SRV
record on port `443` gives. -/
theorem lookupHost_mapped_too_many_colons :
    lookupHost (.ok ["::ffff:1.2.3.4"]) "443" = ([⟨"::ffff:1.2.3.4:443", ""⟩], none) ∧
      lookupSRV true (.ok [⟨"lb.example", 443⟩]) (fun _ => .ok ["::ffff:1.2.3.4"]) =
        ([⟨"::ffff:1.2.3.4:443", "lb.example"⟩], none) ∧
      SplitHostPort "::ffff:1.2.3.4:443" =
        .error (addrErr "::ffff:1.2.3.4:443" tooManyColons) := by
  decide

end Resolver
end GrpcGo
