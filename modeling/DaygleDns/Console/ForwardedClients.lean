import DaygleDns.Dispatch.ProxyProtocol
import DaygleDns.Policy.Groups
import Mathlib.Data.List.ReduceOption

/-! The client that a request behind a trusted proxy is attributed to. -/
namespace DaygleDns.Console

open Text Policy
open Dispatch (SocketAddr)

section Forwarded

/-- The values of a header, in the order they were sent. -/
abbrev HeaderMap (V : Type) := Text → List V

variable {V : Type} (toStr : V → Option Text)

def forwardedFor : Text := "x-forwarded-for".toList

def parseHop (hop : Text) : Option IpAddr := (parseIpAddr (trim hop)).map IpAddr.toCanonical

/-- The loops over the values and their hops; `toStr` is the header library's. -/
def readHops : List V → Option (List IpAddr)
  | [] => some []
  | value :: rest => do
      let text ← toStr value
      let hops ← (text.splitOn ',').mapM parseHop
      return hops ++ (← readHops rest)

def forwardedClientIp (peer : IpAddr) (headers : HeaderMap V) (isTrusted : IpAddr → Bool) : Option IpAddr :=
  if !isTrusted peer.toCanonical then none
  else do
    let hops ← readHops toStr (headers forwardedFor)
    hops.reverse.find? fun ip => !isTrusted ip

/-- What of a request later steps see: the peer, and the mark of a secure transport. -/
structure Attribution where
  peer : Option SocketAddr
  secure : Bool
deriving DecidableEq

/-- The first value of the header is `https`. -/
def forwardedHttps (headers : HeaderMap V) : Bool :=
  (((headers "x-forwarded-proto".toList).head?).bind toStr).any fun text =>
    eqIgnoreAsciiCase (trim text) "https".toList

def forwardedClient (libs : Libraries) (trustedProxies : List Text) (headers : HeaderMap V) :
    Option SocketAddr → Attribution
  | none => ⟨none, false⟩
  | some peer =>
      if trustedProxies.isEmpty then ⟨some peer, false⟩
      else
        let isTrusted := fun ip => (parseNetworks libs trustedProxies).any (·.contains ip)
        let secure := isTrusted peer.ip.toCanonical && forwardedHttps toStr headers
        match forwardedClientIp toStr peer.ip headers isTrusted with
        | none => ⟨some peer, secure⟩
        | some client => ⟨some ⟨client, peer.port⟩, secure⟩

/-- The hops of the values in order; none for one that does not parse, and for a value that is no text. -/
def entries : List V → List (Option IpAddr)
  | [] => []
  | value :: rest =>
      (match toStr value with
        | none => [none]
        | some text => (text.splitOn ',').map parseHop) ++ entries rest

theorem readHops_eq (values : List V) : readHops toStr values = (entries toStr values).mapM id := by
  induction values with
  | nil => rfl
  | cons value rest ih =>
    rw [readHops, entries, List.mapM_append, ih]
    cases toStr value with
    | none => rfl
    | some text =>
      simp only [List.mapM_map]
      rfl

theorem mapM_id {α : Type} (items : List (Option α)) :
    items.mapM id = if items.all Option.isSome then some items.reduceOption else none := by
  induction items with
  | nil => rfl
  | cons item rest ih =>
    rw [List.mapM_cons, ih]
    cases item with
    | none => rfl
    | some a =>
      rw [List.all_cons, Option.isSome_some, Bool.true_and, List.reduceOption_cons_of_some]
      split <;> rfl

/-- What is read is all hops, where all of them parse. -/
theorem forwardedClientIp_eq {peer : IpAddr} {isTrusted : IpAddr → Bool} (h : isTrusted peer.toCanonical = true)
    (headers : HeaderMap V) :
    forwardedClientIp toStr peer headers isTrusted =
      if (entries toStr (headers forwardedFor)).all Option.isSome then
        (entries toStr (headers forwardedFor)).reduceOption.reverse.find? fun ip => !isTrusted ip
      else none := by
  rw [forwardedClientIp, h, readHops_eq, mapM_id, if_neg (by decide)]
  split <;> rfl

theorem find_last {isTrusted : IpAddr → Bool} {client : IpAddr} {after : List IpAddr} (hclient : isTrusted client = false)
    (hafter : ∀ ip ∈ after, isTrusted ip = true) (before : List IpAddr) :
    ((before ++ client :: after).reverse.find? fun ip => !isTrusted ip) = some client := by
  have hskip : (after.reverse.find? fun ip => !isTrusted ip) = none := by
    rw [List.find?_eq_none]
    intro ip hip
    rw [hafter ip (List.mem_reverse.mp hip)]
    decide
  rw [List.reverse_append, List.reverse_cons, List.append_assoc, List.find?_append, hskip, Option.none_or,
    List.singleton_append, List.find?_cons_of_pos]
  rw [hclient]
  rfl

/-- The address that only trusted ones follow is the client, if what stands before it parses too. -/
theorem forwardedClientIp_suffix {peer : IpAddr} {isTrusted : IpAddr → Bool} (h : isTrusted peer.toCanonical = true)
    {client : IpAddr} {after : List IpAddr} (hclient : isTrusted client = false)
    (hafter : ∀ ip ∈ after, isTrusted ip = true) {headers : HeaderMap V}
    (hsuffix : some client :: after.map some <:+ entries toStr (headers forwardedFor)) :
    forwardedClientIp toStr peer headers isTrusted =
      if (entries toStr (headers forwardedFor)).all Option.isSome then some client else none := by
  obtain ⟨before, hbefore⟩ := hsuffix
  have hread : (after.map some).reduceOption = after := by simp [List.reduceOption]
  rw [forwardedClientIp_eq toStr h, ← hbefore]
  split
  · rw [List.reduceOption_append, List.reduceOption_cons_of_some, hread]
    exact find_last hclient hafter _
  · rfl

/-- A client is never a trusted address, and stands in the headers. -/
theorem forwardedClientIp_eq_some {peer client : IpAddr} {isTrusted : IpAddr → Bool} {headers : HeaderMap V}
    (h : forwardedClientIp toStr peer headers isTrusted = some client) :
    isTrusted client = false ∧ some client ∈ entries toStr (headers forwardedFor) := by
  cases hpeer : isTrusted peer.toCanonical with
  | false =>
    rw [forwardedClientIp, hpeer, if_pos (by decide)] at h
    cases h
  | true =>
    rw [forwardedClientIp_eq toStr hpeer] at h
    split at h
    · constructor
      · simpa using List.find?_some h
      · exact List.reduceOption_mem_iff.mp (List.mem_reverse.mp (List.mem_of_find?_eq_some h))
    · cases h

/-- Of what stands before the address that only trusted ones follow, it matters only whether it
parses; what an untrusted peer sends does not matter. -/
theorem forwardedClientIp_attribution (isTrusted : IpAddr → Bool) (peer : IpAddr) :
    (isTrusted peer.toCanonical = true →
      ∀ (client : IpAddr) (after : List IpAddr), isTrusted client = false → (∀ ip ∈ after, isTrusted ip = true) →
        ∀ first second : HeaderMap V,
          some client :: after.map some <:+ entries toStr (first forwardedFor) →
          some client :: after.map some <:+ entries toStr (second forwardedFor) →
          (forwardedClientIp toStr peer first isTrusted =
              if (entries toStr (first forwardedFor)).all Option.isSome then some client else none) ∧
            forwardedClientIp toStr peer second isTrusted =
              if (entries toStr (second forwardedFor)).all Option.isSome then some client else none) ∧
      (isTrusted peer.toCanonical = false →
        ∀ first second : HeaderMap V,
          forwardedClientIp toStr peer first isTrusted = forwardedClientIp toStr peer second isTrusted) := by
  constructor
  · intro hpeer client after hclient hafter first second hfirst hsecond
    exact ⟨forwardedClientIp_suffix toStr hpeer hclient hafter hfirst,
      forwardedClientIp_suffix toStr hpeer hclient hafter hsecond⟩
  · intro hpeer first second
    rw [forwardedClientIp, forwardedClientIp, hpeer]
    rfl

/-- 10.0.0.0/8 -/
def tenNetwork (ip : IpAddr) : Bool := Network.contains (.v4 ⟨0x0a000000, 8⟩) ip

/-- A request with these values of `X-Forwarded-For`. -/
def forwardedValues (values : List Text) : HeaderMap Text := fun name => if name = forwardedFor then values else []

/-- 198.51.100.7, which a proxy at 10.0.0.2 has appended to what the client sent: nothing, or an address. -/
theorem forwardedClientIp_attribution_proxied :
    forwardedClientIp some (.v4 0x0a000001) (forwardedValues ["198.51.100.7, 10.0.0.2".toList]) tenNetwork =
        some (.v4 0xc6336407) ∧
      forwardedClientIp some (.v4 0x0a000001) (forwardedValues ["192.0.2.66, 198.51.100.7".toList, "10.0.0.2".toList])
        tenNetwork = some (.v4 0xc6336407) := by
  have hboth := (forwardedClientIp_attribution some tenNetwork (.v4 0x0a000001)).1 (by decide) (.v4 0xc6336407)
    [.v4 0x0a000002] (by decide) (by decide) (forwardedValues ["198.51.100.7, 10.0.0.2".toList])
    (forwardedValues ["192.0.2.66, 198.51.100.7".toList, "10.0.0.2".toList]) (by decide) (by decide)
  exact ⟨hboth.1.trans (if_pos (by decide)), hboth.2.trans (if_pos (by decide))⟩

/-- With text before the address that is none, the peer is kept. -/
theorem forwardedClientIp_garbled :
    let garbled := forwardedValues ["unknown, 198.51.100.7".toList]
    let plain := forwardedValues ["198.51.100.7".toList]
    tenNetwork (IpAddr.toCanonical (.v4 0x0a000001)) = true ∧ tenNetwork (.v4 0xc6336407) = false ∧
      [some (.v4 0xc6336407)] <:+ entries some (garbled forwardedFor) ∧
      [some (.v4 0xc6336407)] <:+ entries some (plain forwardedFor) ∧
      forwardedClientIp some (.v4 0x0a000001) garbled tenNetwork = none ∧
      forwardedClientIp some (.v4 0x0a000001) plain tenNetwork = some (.v4 0xc6336407) := by
  decide

/-- Behind an untrusted peer a request is the peer's own, whatever its headers say. -/
theorem forwardedClient_untrusted (libs : Libraries) (trustedProxies : List Text) (headers : HeaderMap V) (peer : SocketAddr)
    (h : ∀ net ∈ parseNetworks libs trustedProxies, net.contains peer.ip.toCanonical = false) :
    forwardedClient toStr libs trustedProxies headers (some peer) = ⟨some peer, false⟩ := by
  have huntrusted : ((parseNetworks libs trustedProxies).any (·.contains peer.ip.toCanonical)) = false := by
    rw [List.any_eq_false]
    intro net hnet
    rw [h net hnet]
    decide
  rw [forwardedClient]
  split
  · rfl
  · simp [forwardedClientIp, huntrusted]

end Forwarded

end DaygleDns.Console
