import DaygleDns.Addresses
import DaygleDns.Authoritative.Store
import DaygleDns.Reading
import DaygleDns.Settings.RuntimeSettings

/-! The local copy of the root zone: its refreshes, the changes of its settings, its cache
file, and when it is offered to the resolver. -/
namespace DaygleDns.Authoritative.Root

open Text Framing Reading Settings.Runtime

/-- The numbers of a SOA record; the times are signed there. -/
structure Soa where
  serial : UInt32
  refresh : Int32
  retry : Int32
  expire : Int32
deriving DecidableEq

inductive TrustAnchor where
  | builtinRoot
  | key (key : List UInt8)
deriving DecidableEq

/-- What the module takes from Hickory, from the addresses and from the verification. `rootSoa`:
the data of a SOA record of the root. -/
structure Wire (R : Type) where
  rootSoa : R → Option Soa
  same : R → R → Bool
  emit : R → Except Text Bytes
  read : Reader R
  masterAddr : Text → Option IpAddr
  verifyZone : List R → TrustAnchor → UInt64 → Except Text Unit

/-- A record that is written reads back. -/
structure Wire.Lawful {R : Type} (wire : Wire R) : Prop where
  reads_emit : ∀ record bytes, wire.emit record = .ok bytes → Reads wire.read bytes record

structure RootZone (R : Type) where
  serial : UInt32
  refresh : UInt32
  retry : UInt32
  expire : UInt32
  checkedAt : UInt64
  records : List R
deriving DecidableEq

variable {R : Type} (wire : Wire R)

/-- `max(0)` of a time. -/
def nonNegative (time : Int32) : UInt32 := if time < 0 then 0 else time.toUInt32

/-- The records without the SOA that a transfer repeats at the end. -/
def withoutRepeat (records : List R) : List R :=
  match records.head?, records.getLast? with
  | some first, some last => if 1 < records.length ∧ wire.same first last = true then records.dropLast else records
  | _, _ => records

namespace RootZone

def build (records : List R) (checkedAt : UInt64) : Except Text (RootZone R) :=
  let records := withoutRepeat wire records
  match records.findSome? wire.rootSoa with
  | none => .error "the zone has no SOA at the root".toList
  | some soa => .ok {
      serial := soa.serial
      refresh := nonNegative soa.refresh
      retry := nonNegative soa.retry
      expire := nonNegative soa.expire
      checkedAt := checkedAt
      records := records }

def expiresAt (zone : RootZone R) : UInt64 := zone.checkedAt + zone.expire.toUInt64

def isCurrent (zone : RootZone R) (now : UInt64) : Bool := decide (now < zone.expiresAt)

end RootZone

/-! The cache file. -/

def CACHE_MAGIC : Bytes := ("DAYGLE-ROOT-ZONE-1\n".toList).map fun c => UInt8.ofNat c.toNat

namespace RootZone

def encode (zone : RootZone R) : Except Text Bytes := do
  let wires ← zone.records.mapM wire.emit
  return CACHE_MAGIC ++ toBeBytes 8 zone.checkedAt.toNat ++ toBeBytes 4 zone.records.length ++ wires.flatten

/-- The time of the last check, and the records. -/
def decode (bytes : Bytes) : Except Text (UInt64 × List R) :=
  let header := CACHE_MAGIC.length + 12
  if bytes.length < header ∨ bytes.take CACHE_MAGIC.length ≠ CACHE_MAGIC then
    .error "not a root zone cache file".toList
  else
    let fetchedAt := ofBeBytes ((bytes.drop CACHE_MAGIC.length).take 8)
    let count := ofBeBytes ((bytes.drop (CACHE_MAGIC.length + 8)).take 4)
    match readMany wire.read count (bytes.drop header) with
    | .error e => .error e
    | .ok (records, _) => .ok (UInt64.ofNat fetchedAt, records)

end RootZone

/-! The settings. -/

def localRootSources : List Text :=
  ["192.0.32.132".toList, "192.0.47.132".toList, "170.247.170.2".toList, "192.33.4.12".toList, "199.7.91.13".toList,
    "192.5.5.241".toList, "192.112.36.4".toList, "193.0.14.129".toList, "2620:0:2d0:202::132".toList,
    "2620:0:2830:202::132".toList, "2801:1b8:10::b".toList, "2001:500:2::c".toList, "2001:500:2d::d".toList,
    "2001:500:2f::f".toList, "2001:500:12::d0d".toList, "2001:7fd::1".toList]

/-- An IPv4-mapped IPv6 address counts as IPv4. -/
def allows (versions : IpVersions) (ip : IpAddr) : Bool :=
  match versions, ip.toCanonical with
  | .both, _ => true
  | .ipv4, .v4 _ => true
  | .ipv6, .v6 _ => true
  | _, _ => false

def effectiveSources (settings : LocalRootSettings) : List Text :=
  let sources := if settings.sources.isEmpty then localRootSources else settings.sources
  sources.filter fun source =>
    match wire.masterAddr source with
    | some address => allows settings.outboundIpVersions address
    | none => true

def anchor (settings : LocalRootSettings) : TrustAnchor :=
  match settings.testTrustAnchor with
  | some key => .key key
  | none => .builtinRoot

/-! The copy. -/

/-- How far a refresh has come: the source that was asked, with the zone it was asked about or
for the whole zone, and the sources left. -/
inductive Phase (R : Type) where
  | idle
  | asking (source : Text) (rest : List Text) (zone : RootZone R)
  | transferring (source : Text) (rest : List Text)

/-- What a source confirmed, and when: the zone that it sent, or the serial that it has. -/
inductive Confirmation (R : Type) where
  | transfer (source : Text) (records : List R) (at_ : UInt64)
  | sameSerial (source : Text) (serial : UInt32) (at_ : UInt64)
deriving DecidableEq

/-- `confirmations` and `configured`, the sources that the settings had so far, are only
recorded. -/
structure LocalRoot (R : Type) where
  settings : LocalRootSettings
  zone : Option (RootZone R)
  cache : Option Bytes
  phase : Phase R
  clock : UInt64
  confirmations : List (Confirmation R)
  configured : List Text

/-- What happens. `answers` is what a source gave, or an error; `saves`, `reads` and `removes`
are whether the file system plays along. -/
inductive Event (R : Type) where
  | tick (now : UInt64)
  | setSettings (settings : LocalRootSettings) (removes : Bool)
  | restart (settings : LocalRootSettings)
  | loadCache (reads : Bool)
  | startRefresh
  | soaAnswer (answer : Except Text (Option UInt32)) (saves : Bool)
  | axfrAnswer (answer : Except Text (List R)) (saves : Bool)

namespace LocalRoot

/-- The copy offered to the resolver. -/
def currentZone (w : LocalRoot R) : Option (RootZone R) :=
  if w.settings.enabled then w.zone.filter (·.isCurrent w.clock) else none

/-- The next source whose address can be read is asked. -/
def nextSource (w : LocalRoot R) : List Text → LocalRoot R
  | [] => { w with phase := .idle }
  | source :: rest =>
      match wire.masterAddr source with
      | none => nextSource w rest
      | some _ =>
          match w.zone with
          | some zone => { w with phase := .asking source rest zone }
          | none => { w with phase := .transferring source rest }

/-- `write_cache`: a zone that cannot be written leaves the file. -/
def writeCache (saves : Bool) (zone : RootZone R) (cache : Option Bytes) : Option Bytes :=
  match zone.encode wire with
  | .ok bytes => if saves then some bytes else cache
  | .error _ => cache

/-- The zone in memory is the one asked about, unless the settings dropped it. -/
def stillCurrent (w : LocalRoot R) (source : Text) (serial : UInt32) (saves : Bool) (zone : RootZone R) : LocalRoot R :=
  let checked := { zone with checkedAt := w.clock }
  { w with
    zone := w.zone.map fun _ => checked
    cache := writeCache wire saves checked w.cache
    phase := .idle
    confirmations :=
      if serial = zone.serial then .sameSerial source serial w.clock :: w.confirmations else w.confirmations }

def transferred (w : LocalRoot R) (source : Text) (rest : List Text) (records : List R) (saves : Bool) :
    LocalRoot R :=
  match wire.verifyZone records (anchor w.settings) w.clock, RootZone.build wire records w.clock with
  | .ok (), .ok zone =>
      { w with
        zone := some zone
        cache := writeCache wire saves zone w.cache
        phase := .idle
        confirmations := .transfer source records w.clock :: w.confirmations }
  | _, _ => w.nextSource wire rest

/-- The cache file, where it still verifies and has not expired. -/
def loaded (w : LocalRoot R) (bytes : Bytes) : LocalRoot R :=
  match RootZone.decode wire bytes with
  | .error _ => w
  | .ok (fetchedAt, records) =>
      match wire.verifyZone records (anchor w.settings) w.clock, RootZone.build wire records fetchedAt with
      | .ok (), .ok zone => if zone.isCurrent w.clock then { w with zone := some zone } else w
      | _, _ => w

def step (w : LocalRoot R) : Event R → LocalRoot R
  | .tick now => if w.clock ≤ now then { w with clock := now } else w
  | .setSettings settings removes =>
      if w.settings = settings then w
      else if settings.enabled then
        { w with settings := settings, configured := effectiveSources wire settings ++ w.configured }
      else
        { w with
          settings := settings
          zone := none
          cache := if removes then none else w.cache
          configured := effectiveSources wire settings ++ w.configured }
  | .restart settings =>
      { w with
        settings := settings
        zone := none
        phase := .idle
        configured := effectiveSources wire settings ++ w.configured }
  | .loadCache reads =>
      match w.phase, w.zone, w.cache with
      | .idle, none, some bytes => if reads then w.loaded wire bytes else w
      | _, _, _ => w
  | .startRefresh =>
      match w.phase with
      | .idle => w.nextSource wire (effectiveSources wire w.settings)
      | _ => w
  | .soaAnswer answer saves =>
      match w.phase with
      | .asking source rest zone =>
          match answer with
          | .ok (some serial) =>
              if serialNewer serial zone.serial then { w with phase := .transferring source rest }
              else w.stillCurrent wire source serial saves zone
          | .ok none => { w with phase := .transferring source rest }
          | .error _ => w.nextSource wire rest
      | _ => w
  | .axfrAnswer answer saves =>
      match w.phase with
      | .transferring source rest =>
          match answer with
          | .ok records => w.transferred wire source rest records saves
          | .error _ => w.nextSource wire rest
      | _ => w

/-- A server that runs for the first time. -/
def first (settings : LocalRootSettings) (clock : UInt64) : LocalRoot R where
  settings := settings
  zone := none
  cache := none
  phase := .idle
  clock := clock
  confirmations := []
  configured := effectiveSources wire settings

end LocalRoot

end DaygleDns.Authoritative.Root
