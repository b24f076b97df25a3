import GrpcGo.Lib.GoNet
import GrpcGo.Lib.GoMap
import GrpcGo.Lib.KeepBest

/-!
# Filter chain matching on the xDS server (`xds/internal/xdsclient/filter_chain.go`)

`NewFilterChainManager` validates the filter chains of a Listener and builds the structure that
`Lookup` walks for each incoming connection: a map from destination prefixes to entries, each
with an array of the three source types, each with a map from source prefixes to entries, each
with a map from source ports to filter chains.  Filter chains with match fields gRPC does not
support are dropped at the level of that field, so the levels above it keep the entries made for
them; two filter chains that land on one source port are rejected as overlapping.

`Lookup` walks the levels in the order of the xDS `FilterChainMatch`: the destination prefixes of
the largest mask containing the destination (all of them on a listener bound to a specific
address), the connection's source type if configured there and ANY otherwise, the source prefix
of the largest mask containing the source, and the source port, then the wildcard port.  The two
prefix levels keep the best-scoring entries as `KeepBest.step` does.

The model keeps what matching reads.  `Rest` is the rest of a `FilterChain` message (its filters
and transport socket), which `filterChainFromProto` converts, taken here as the parameter
`fromProto`; `FC` is what it converts to.  A prefix map is keyed by `prefix.String()`, which prints
the network number and mask of `networkNumberAndMask`; `PrefixKey` keeps these.  The Go maps are
lists of entries in one iteration order, and the slices `NewFilterChainManager` builds from them
follow that order.
-/

namespace GrpcGo
namespace XdsClient

open GoStd GoStd.Net

/-! ## The Listener resource -/

/-- A `CidrRange` proto: `address_prefix`, and `prefix_len`, a `UInt32Value`. -/
structure CidrRange where
  addressPrefix : String
  prefixLen : Option UInt32
  deriving DecidableEq, Repr

/-- `fmt.Sprintf("%s/%d", pr.GetAddressPrefix(), pr.GetPrefixLen().GetValue())`. -/
def CidrRange.cidr (pr : CidrRange) : String :=
  pr.addressPrefix ++ "/" ++ toString (pr.prefixLen.getD 0).toNat

/-- `FilterChainMatch.ConnectionSourceType`, with the values outside the enum a proto may carry. -/
inductive ConnectionSourceType
  | ANY
  | SAME_IP_OR_LOOPBACK
  | EXTERNAL
  | unknown (v : Int)
  deriving DecidableEq, Repr

/-- The `FilterChainMatch` fields matching reads; an absent message reads as all defaults. -/
structure FilterChainMatch where
  destinationPort : Option UInt32
  prefixRanges : List CidrRange
  serverNames : List String
  transportProtocol : String
  applicationProtocols : List String
  sourceType : ConnectionSourceType
  sourcePrefixRanges : List CidrRange
  sourcePorts : List UInt32
  deriving DecidableEq, Repr

/-- A `FilterChain` message: its match, and the rest of it. -/
structure FilterChainProto (Rest : Type) where
  filterChainMatch : FilterChainMatch
  rest : Rest
  deriving DecidableEq, Repr

/-- The `Listener` fields `NewFilterChainManager` reads. -/
structure Listener (Rest : Type) where
  filterChains : List (FilterChainProto Rest)
  defaultFilterChain : Option (FilterChainProto Rest)
  deriving DecidableEq, Repr

/-! ## The manager -/

/-- `SourceType`: `SourceTypeAny`, `SourceTypeSameOrLoopback`, `SourceTypeExternal`. -/
inductive SourceType
  | Any
  | SameOrLoopback
  | External
  deriving DecidableEq, Repr

/-- The `int` value of a `SourceType` (`iota`). -/
def SourceType.toInt : SourceType → Int
  | .Any => 0
  | .SameOrLoopback => 1
  | .External => 2

/-- A key of a prefix map: `unspecifiedPrefixMapKey`, or `prefix.String()`, kept as the network
number and mask it prints. -/
inductive PrefixKey
  | unspecified
  | ofNet (nm : Option (IP × IPMask))
  deriving DecidableEq, Repr

/-- `prefix.String()`. -/
def prefixKey (n : IPNet) : PrefixKey :=
  .ofNet n.networkNumberAndMask

/-- `noPrefixMatch`. -/
def noPrefixMatch : Int := -2

/-- `unspecifiedPrefixMatch`. -/
def unspecifiedPrefixMatch : Int := -1

variable {Rest FC : Type}

/-- `sourcePrefixEntry`: the prefix (`none` when unspecified) and the filter chain of each source
port, `0` standing for an unspecified port. -/
structure sourcePrefixEntry (FC : Type) where
  net : Option IPNet
  srcPortMap : List (Int × FC)

/-- `sourcePrefixes`: the map of source prefixes, and the slice `Lookup` scans. -/
structure sourcePrefixes (FC : Type) where
  srcPrefixMap : List (PrefixKey × sourcePrefixEntry FC)
  srcPrefixes : List (sourcePrefixEntry FC)

/-- `destPrefixEntry`: the prefix (`none` when unspecified), whether a `raw_buffer` filter chain
was seen, and the source prefixes of each source type (`sourceTypesArray`). -/
structure destPrefixEntry (FC : Type) where
  net : Option IPNet
  rawBufferSeen : Bool
  srcTypeArr : SourceType → Option (sourcePrefixes FC)

/-- `FilterChainManager`: the map of destination prefixes, the slice `Lookup` scans, and `def`,
the default filter chain. -/
structure FilterChainManager (FC : Type) where
  dstPrefixMap : List (PrefixKey × destPrefixEntry FC)
  dstPrefixes : List (destPrefixEntry FC)
  defaultFC : Option FC

/-- The errors of `NewFilterChainManager`. -/
inductive FilterChainError
  /-- `"failed to parse destination prefix range: %+v"`. -/
  | parseDestPrefix (pr : CidrRange)
  /-- `"unsupported source type: %v"`. -/
  | unsupportedSourceType (st : ConnectionSourceType)
  /-- `"failed to parse source prefix range: %+v"`. -/
  | parseSourcePrefix (pr : CidrRange)
  /-- `"multiple filter chains with overlapping matching rules are defined"`. -/
  | overlapping
  /-- An error of `filterChainFromProto`. -/
  | fromProto (err : String)
  /-- `"no supported filter chains and no default filter chain"`. -/
  | noSupportedFilterChains
  deriving DecidableEq, Repr

/-! ## `NewFilterChainManager` -/

section Build

variable (fromProto : Rest → Except String FC)

/-- `fci.filterChainFromProto(fc)`. -/
def filterChainFromProto (fc : FilterChainProto Rest) : Except FilterChainError FC :=
  (fromProto fc.rest).mapError .fromProto

/-- The prefixes of a list of `CidrRange`s, each parsed by `net.ParseCIDR`. -/
def parsePrefixRanges (err : CidrRange → FilterChainError) (ranges : List CidrRange) :
    Except FilterChainError (List IPNet) :=
  ranges.mapM fun pr =>
    match ParseCIDR pr.cidr with
    | some (_, ipnet) => .ok ipnet
    | none => .error (err pr)

/-- Setting the filter chain of one source port: two filter chains on one port overlap. -/
def addSourcePort (fc : FC) (e : sourcePrefixEntry FC) (port : Int) :
    Except FilterChainError (sourcePrefixEntry FC) :=
  if (e.srcPortMap.lookup port).isSome then .error .overlapping
  else .ok { e with srcPortMap := Map.insert port fc e.srcPortMap }

/-- `addFilterChainsForSourcePorts`: the filter chain on each of its source ports, or on the
wildcard port `0` when it has none. -/
def addFilterChainsForSourcePorts (srcEntry : sourcePrefixEntry FC) (fcProto : FilterChainProto Rest) :
    Except FilterChainError (sourcePrefixEntry FC) := do
  let srcPorts := fcProto.filterChainMatch.sourcePorts.map fun port => (port.toNat : Int)
  let fc ← filterChainFromProto fromProto fcProto
  if srcPorts.isEmpty then addSourcePort fc srcEntry 0
  else srcPorts.foldlM (addSourcePort fc) srcEntry

/-- The entry of `key` in a source prefix map, made for `net` if there is none, with the filter
chain added. -/
def addSourcePrefix (fc : FilterChainProto Rest) (srcPrefixMap : List (PrefixKey × sourcePrefixEntry FC))
    (key : PrefixKey) (net : Option IPNet) :
    Except FilterChainError (List (PrefixKey × sourcePrefixEntry FC)) := do
  let e := (srcPrefixMap.lookup key).getD ⟨net, []⟩
  let e ← addFilterChainsForSourcePorts fromProto e fc
  pure (Map.insert key e srcPrefixMap)

/-- `addFilterChainsForSourcePrefixes`: the filter chain under each of its source prefixes, or
under the unspecified one when it has none. -/
def addFilterChainsForSourcePrefixes (srcPrefixMap : List (PrefixKey × sourcePrefixEntry FC))
    (fc : FilterChainProto Rest) :
    Except FilterChainError (List (PrefixKey × sourcePrefixEntry FC)) := do
  let srcPrefixes ← parsePrefixRanges .parseSourcePrefix fc.filterChainMatch.sourcePrefixRanges
  if srcPrefixes.isEmpty then addSourcePrefix fromProto fc srcPrefixMap .unspecified none
  else srcPrefixes.foldlM (fun m n => addSourcePrefix fromProto fc m (prefixKey n) (some n)) srcPrefixMap

/-- The `SourceType` of a `FilterChainMatch` source type, an error for one outside the enum. -/
def sourceTypeOf : ConnectionSourceType → Except FilterChainError SourceType
  | .ANY => .ok .Any
  | .SAME_IP_OR_LOOPBACK => .ok .SameOrLoopback
  | .EXTERNAL => .ok .External
  | st => .error (.unsupportedSourceType st)

/-- `addFilterChainsForSourceType`. -/
def addFilterChainsForSourceType (dstEntry : destPrefixEntry FC) (fc : FilterChainProto Rest) :
    Except FilterChainError (destPrefixEntry FC) := do
  let srcType ← sourceTypeOf fc.filterChainMatch.sourceType
  let sp := (dstEntry.srcTypeArr srcType).getD ⟨[], []⟩
  let m ← addFilterChainsForSourcePrefixes fromProto sp.srcPrefixMap fc
  pure { dstEntry with
    srcTypeArr := Function.update dstEntry.srcTypeArr srcType (some { sp with srcPrefixMap := m }) }

/-- `addFilterChainsForApplicationProtocols`: a filter chain with application protocols is
dropped. -/
def addFilterChainsForApplicationProtocols (dstEntry : destPrefixEntry FC)
    (fc : FilterChainProto Rest) : Except FilterChainError (destPrefixEntry FC) :=
  if !fc.filterChainMatch.applicationProtocols.isEmpty then .ok dstEntry
  else addFilterChainsForSourceType fromProto dstEntry fc

/-- `addFilterChainsForTransportProtocols`: only `""` and `"raw_buffer"` are kept, and the first
`"raw_buffer"` filter chain of an entry drops those with `""` seen before it. -/
def addFilterChainsForTransportProtocols (dstEntry : destPrefixEntry FC)
    (fc : FilterChainProto Rest) : Except FilterChainError (destPrefixEntry FC) :=
  let tp := fc.filterChainMatch.transportProtocol
  if tp ≠ "" ∧ tp ≠ "raw_buffer" then .ok dstEntry
  else if tp = "" ∧ dstEntry.rawBufferSeen then .ok dstEntry
  else
    let dstEntry :=
      if tp ≠ "" ∧ !dstEntry.rawBufferSeen then
        { dstEntry with rawBufferSeen := true, srcTypeArr := fun _ => none }
      else dstEntry
    addFilterChainsForApplicationProtocols fromProto dstEntry fc

/-- `addFilterChainsForServerNames`: a filter chain with server names is dropped. -/
def addFilterChainsForServerNames (dstEntry : destPrefixEntry FC) (fc : FilterChainProto Rest) :
    Except FilterChainError (destPrefixEntry FC) :=
  if !fc.filterChainMatch.serverNames.isEmpty then .ok dstEntry
  else addFilterChainsForTransportProtocols fromProto dstEntry fc

/-- The entry of `key` in the destination prefix map, made for `net` if there is none, with the
filter chain added. -/
def addDestPrefix (fc : FilterChainProto Rest) (dstPrefixMap : List (PrefixKey × destPrefixEntry FC))
    (key : PrefixKey) (net : Option IPNet) :
    Except FilterChainError (List (PrefixKey × destPrefixEntry FC)) := do
  let e := (dstPrefixMap.lookup key).getD ⟨net, false, fun _ => none⟩
  let e ← addFilterChainsForServerNames fromProto e fc
  pure (Map.insert key e dstPrefixMap)

/-- `addFilterChainsForDestPrefixes`: the filter chain under each of its destination prefixes,
or under the unspecified one when it has none. -/
def addFilterChainsForDestPrefixes (dstPrefixMap : List (PrefixKey × destPrefixEntry FC))
    (fc : FilterChainProto Rest) :
    Except FilterChainError (List (PrefixKey × destPrefixEntry FC)) := do
  let dstPrefixes ← parsePrefixRanges .parseDestPrefix fc.filterChainMatch.prefixRanges
  if dstPrefixes.isEmpty then addDestPrefix fromProto fc dstPrefixMap .unspecified none
  else dstPrefixes.foldlM (fun m n => addDestPrefix fromProto fc m (prefixKey n) (some n)) dstPrefixMap

/-- `addFilterChains`: a filter chain with a destination port is dropped. -/
def addFilterChains (dstPrefixMap : List (PrefixKey × destPrefixEntry FC))
    (fcs : List (FilterChainProto Rest)) :
    Except FilterChainError (List (PrefixKey × destPrefixEntry FC)) :=
  fcs.foldlM (fun m fc =>
    if (fc.filterChainMatch.destinationPort.getD 0) ≠ 0 then .ok m
    else addFilterChainsForDestPrefixes fromProto m fc) dstPrefixMap

/-- A destination entry with the slices of its source prefixes built from their maps. -/
def destPrefixEntry.withSlices (e : destPrefixEntry FC) : destPrefixEntry FC :=
  { e with srcTypeArr := fun t =>
      (e.srcTypeArr t).map fun sp => { sp with srcPrefixes := sp.srcPrefixMap.map Prod.snd } }

/-- Whether an entry holds a filter chain (`fcSeen`). -/
def destPrefixEntry.hasFilterChain (e : destPrefixEntry FC) : Bool :=
  [SourceType.Any, .SameOrLoopback, .External].any fun t =>
    match e.srcTypeArr t with
    | none => false
    | some sp => sp.srcPrefixes.any fun spe => !spe.srcPortMap.isEmpty

/-- `NewFilterChainManager(lis)`. -/
def NewFilterChainManager (lis : Listener Rest) :
    Except FilterChainError (FilterChainManager FC) := do
  let dstPrefixMap ← addFilterChains fromProto [] lis.filterChains
  -- the source and destination prefix slices used by `Lookup`
  let dstPrefixMap := dstPrefixMap.map fun (k, e) => (k, e.withSlices)
  let dstPrefixes := dstPrefixMap.map Prod.snd
  let fcSeen := dstPrefixes.any destPrefixEntry.hasFilterChain
  let defaultFC ← match lis.defaultFilterChain with
    | none => pure none
    | some dfc => some <$> filterChainFromProto fromProto dfc
  if !fcSeen ∧ defaultFC.isNone then .error .noSupportedFilterChains
  else pure ⟨dstPrefixMap, dstPrefixes, defaultFC⟩

end Build

/-! ## `Lookup` -/

/-- `FilterChainLookupParams`. -/
structure FilterChainLookupParams where
  IsUnspecifiedListener : Bool
  DestAddr : IP
  SourceAddr : IP
  SourcePort : Int
  deriving DecidableEq, Repr

/-- The errors of `Lookup`. -/
inductive LookupError
  /-- `"no matching filter chain based on destination prefix match for %+v"`. -/
  | noMatchDestPrefix (params : FilterChainLookupParams)
  /-- `"no matching filter chain based on source type match for %+v"`. -/
  | noMatchSourceType (params : FilterChainLookupParams)
  /-- `"multiple matching filter chains"`. -/
  | multipleMatching
  /-- `"no matching filter chain after all match criteria for %+v"`. -/
  | noMatchAll (params : FilterChainLookupParams)
  deriving DecidableEq, Repr

/-- How well a prefix matches an address: `none` when it does not contain it, the size of its
mask when it does, and `unspecifiedPrefixMatch` for an unspecified prefix. -/
def prefixScore (addr : IP) : Option IPNet → Option Int
  | none => some unspecifiedPrefixMatch
  | some n => if n.Contains addr then some (n.mask.Size.1 : Int) else none

/-- `filterByDestinationPrefixes`: the entries of the largest mask containing the destination,
when the listener is bound to the wildcard address; all of them otherwise. -/
def filterByDestinationPrefixes (dstPrefixes : List (destPrefixEntry FC)) (isUnspecified : Bool)
    (dstAddr : IP) : List (destPrefixEntry FC) :=
  if !isUnspecified then dstPrefixes
  else (dstPrefixes.foldl (KeepBest.step fun e => prefixScore dstAddr e.net) (noPrefixMatch, [])).2

/-- One turn of the loop of `filterBySourceType`: the source prefixes of the connection's source
type, or of ANY when that type has none, kept if their type is the best so far. -/
def sourceTypeStep (srcType : SourceType) (st : Int × List (sourcePrefixes FC))
    (e : destPrefixEntry FC) : Int × List (sourcePrefixes FC) :=
  let (m, srcPrefix) : Int × Option (sourcePrefixes FC) :=
    match srcType with
    | .External => (SourceType.External.toInt, e.srcTypeArr .External)
    | .SameOrLoopback => (SourceType.SameOrLoopback.toInt, e.srcTypeArr .SameOrLoopback)
    | .Any => (0, none)
  let (m, srcPrefix) := if srcPrefix.isNone then (SourceType.Any.toInt, e.srcTypeArr .Any)
    else (m, srcPrefix)
  if m < st.1 then st
  else
    let st := if m > st.1 then (m, []) else st
    match srcPrefix with
    | some sp => (st.1, st.2 ++ [sp])
    | none => st

/-- `filterBySourceType`. -/
def filterBySourceType (dstPrefixes : List (destPrefixEntry FC)) (srcType : SourceType) :
    List (sourcePrefixes FC) :=
  (dstPrefixes.foldl (sourceTypeStep srcType) (0, [])).2

/-- `filterBySourcePrefixes`: the source prefix entry of the largest mask containing the source;
more than one is an error. -/
def filterBySourcePrefixes (srcPrefixes : List (sourcePrefixes FC)) (srcAddr : IP) :
    Except LookupError (Option (sourcePrefixEntry FC)) :=
  let st := srcPrefixes.foldl (fun st sp =>
    sp.srcPrefixes.foldl (KeepBest.step fun e => prefixScore srcAddr e.net) st) (noPrefixMatch, [])
  match st.2 with
  | [] => .ok none
  | [e] => .ok (some e)
  | _ => .error .multipleMatching

/-- `filterBySourcePorts`: the filter chain of the source port, or else of the wildcard port. -/
def filterBySourcePorts (spe : Option (sourcePrefixEntry FC)) (srcPort : Int) : Option FC :=
  match spe with
  | none => none
  | some spe =>
    match spe.srcPortMap.lookup srcPort with
    | some fc => some fc
    | none => spe.srcPortMap.lookup 0

/-- The default filter chain, or the error when there is none. -/
def FilterChainManager.orDefault (fci : FilterChainManager FC) (err : LookupError) :
    Except LookupError FC :=
  match fci.defaultFC with
  | some fc => .ok fc
  | none => .error err

/-- `fci.Lookup(params)`. -/
def FilterChainManager.Lookup (fci : FilterChainManager FC) (params : FilterChainLookupParams) :
    Except LookupError FC :=
  let dstPrefixes := filterByDestinationPrefixes fci.dstPrefixes params.IsUnspecifiedListener
    params.DestAddr
  if dstPrefixes.isEmpty then fci.orDefault (.noMatchDestPrefix params)
  else
    let srcType :=
      if params.SourceAddr.Equal params.DestAddr || params.SourceAddr.IsLoopback then
        SourceType.SameOrLoopback
      else SourceType.External
    let srcPrefixes := filterBySourceType dstPrefixes srcType
    if srcPrefixes.isEmpty then fci.orDefault (.noMatchSourceType params)
    else
      match filterBySourcePrefixes srcPrefixes params.SourceAddr with
      | .error err => .error err
      | .ok srcPrefixEntry =>
        match filterBySourcePorts srcPrefixEntry params.SourcePort with
        | some fc => .ok fc
        | none => fci.orDefault (.noMatchAll params)

end XdsClient
end GrpcGo
