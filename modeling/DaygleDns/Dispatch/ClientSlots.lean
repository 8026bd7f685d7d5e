import DaygleDns.KeyedMap
import DaygleDns.Runs
import DaygleDns.Settings.Networks
import DaygleDns.Tallies

/-! The connections that one client may hold on an encrypted listener. -/
namespace DaygleDns.Dispatch

open Runs Settings

/-- An eighth of the listener's connections, at least 4. -/
def perClientLimit (maxConnections : Nat) : Nat := max (maxConnections / 8) 4

/-- The live connections of the public clients; `uncapped` are the private and loopback networks. -/
structure ClientSlots where
  limit : Nat
  opened : KeyedMap IpAddr Nat
  uncapped : List Network

/-- The key that a slot is counted under, `none` for an uncapped client. -/
abbrev ClientSlot := Option IpAddr

namespace ClientSlots

def new (limit : Nat) : ClientSlots := ⟨limit, ∅, privateNetworks.filterMap readIpNet⟩

/-- IPv6 clients are counted by the first 64 bits. -/
def key (ip : IpAddr) : IpAddr :=
  match ip.toCanonical with
  | .v6 bits => .v6 ((bits >>> 64) <<< 64)
  | .v4 bits => .v4 bits

def acquire (slots : ClientSlots) (ip : IpAddr) : Option ClientSlot × ClientSlots :=
  if slots.uncapped.any (·.contains ip.toCanonical) then (some none, slots)
  else
    let key := key ip.toCanonical
    let count := (slots.opened.lookup key).getD 0
    -- `entry` puts a zero where nothing was
    if count ≥ slots.limit then (none, { slots with opened := slots.opened.insert key count })
    else (some (some key), { slots with opened := slots.opened.insert key (count + 1) })

def drop (slots : ClientSlots) : ClientSlot → ClientSlots
  | none => slots
  | some key =>
      match slots.opened.lookup key with
      | none => slots
      | some count =>
          if count - 1 = 0 then { slots with opened := slots.opened.erase key }
          else { slots with opened := slots.opened.insert key (count - 1) }

end ClientSlots

/-- Two addresses of what counts as one client: one IPv4 address in either form, or a /64. -/
def sameClient (first second : IpAddr) : Bool :=
  match first.toCanonical, second.toCanonical with
  | .v4 a, .v4 b => a = b
  | .v6 a, .v6 b => a.toNat / 2 ^ 64 = b.toNat / 2 ^ 64
  | _, _ => false

theorem toCanonical_toCanonical (ip : IpAddr) : ip.toCanonical.toCanonical = ip.toCanonical := by
  cases ip with
  | v4 bits => rfl
  | v6 bits =>
    by_cases hmapped : bits.toNat / 2 ^ 32 = 0xffff
    · simp only [IpAddr.toCanonical, if_pos hmapped]
    · simp only [IpAddr.toCanonical, if_neg hmapped]

theorem upper_eq_iff (a b : Ipv6Addr) : (a >>> 64) <<< 64 = (b >>> 64) <<< 64 ↔ a.toNat / 2 ^ 64 = b.toNat / 2 ^ 64 := by
  have ha := a.isLt
  have hb := b.isLt
  rw [← BitVec.toNat_inj, BitVec.toNat_shiftLeft, BitVec.toNat_shiftLeft, BitVec.toNat_ushiftRight,
    BitVec.toNat_ushiftRight, Nat.shiftRight_eq_div_pow, Nat.shiftRight_eq_div_pow, Nat.shiftLeft_eq, Nat.shiftLeft_eq]
  omega

theorem key_eq_iff (first second : IpAddr) :
    ClientSlots.key first.toCanonical = ClientSlots.key second.toCanonical ↔ sameClient first second = true := by
  rw [ClientSlots.key, ClientSlots.key, toCanonical_toCanonical, toCanonical_toCanonical, sameClient]
  cases first.toCanonical with
  | v4 a =>
    cases second.toCanonical with
    | v4 b => simp
    | v6 b => simp
  | v6 a =>
    cases second.toCanonical with
    | v4 b => simp
    | v6 b => simpa using upper_eq_iff a b

/-! A listener: the connections in the order in which they arrive. -/

structure OpenConnection where
  client : IpAddr
  slot : ClientSlot

/-- A connection is `none` once it is refused or over. -/
structure Listener where
  slots : ClientSlots
  connections : List (Option OpenConnection)

inductive ListenerEvent where
  | arrive (client : IpAddr)
  | finish (i : Nat)

namespace Listener

def new (maxConnections : Nat) : Listener := ⟨.new (perClientLimit maxConnections), []⟩

def step (listener : Listener) : ListenerEvent → Listener
  | .arrive client =>
      let (slot, slots) := listener.slots.acquire client
      ⟨slots, listener.connections ++ [slot.map fun slot => ⟨client, slot⟩]⟩
  | .finish i =>
      match listener.connections[i]? with
      | some (some connection) => ⟨listener.slots.drop connection.slot, listener.connections.set i none⟩
      | _ => listener

def isPrivate (ip : IpAddr) : Bool := (privateNetworks.filterMap readIpNet).any (·.contains ip.toCanonical)

/-- The connections whose slots are counted under a key. -/
def counted (listener : Listener) (key : IpAddr) : Nat :=
  listener.connections.countP fun connection => connection.bind OpenConnection.slot = some key

/-- The open connections of a public client. -/
def heldBy (listener : Listener) (ip : IpAddr) : Nat :=
  listener.connections.countP fun connection =>
    connection.any fun open_ => !isPrivate open_.client && sameClient open_.client ip

/-- The entry of a key with so many connections. -/
def entryFor : Nat → Option Nat
  | 0 => none
  | n + 1 => some (n + 1)

theorem entryFor_of_pos {n : Nat} (h : 0 < n) : entryFor n = some n := by
  cases n with
  | zero => exact absurd h (Nat.lt_irrefl 0)
  | succ n => rfl

/-- The table holds just the keys of open connections, each with their number. -/
structure Sound (limit : Nat) (listener : Listener) : Prop where
  settings : listener.slots.limit = limit ∧ listener.slots.uncapped = privateNetworks.filterMap readIpNet
  keyed : ∀ connection, some connection ∈ listener.connections →
    connection.slot = if isPrivate connection.client then none else some (ClientSlots.key connection.client.toCanonical)
  table : ∀ key, listener.slots.opened.lookup key = entryFor (listener.counted key)
  bounded : ∀ key, listener.counted key ≤ limit

variable {limit : Nat} {listener : Listener}

theorem sound_new (maxConnections : Nat) : Sound (perClientLimit maxConnections) (new maxConnections) :=
  ⟨⟨rfl, rfl⟩, by simp [new], fun key => rfl, fun key => Nat.zero_le _⟩

theorem any_uncapped (h : Sound limit listener) (client : IpAddr) :
    listener.slots.uncapped.any (·.contains client.toCanonical) = isPrivate client := by
  rw [h.settings.2]
  rfl

theorem getD_lookup (h : Sound limit listener) (key : IpAddr) :
    (listener.slots.opened.lookup key).getD 0 = listener.counted key := by
  rw [h.table]
  cases listener.counted key <;> rfl

theorem acquire_of_private (h : Sound limit listener) {client : IpAddr} (hprivate : isPrivate client = true) :
    listener.slots.acquire client = (some none, listener.slots) := by
  rw [ClientSlots.acquire, any_uncapped h, if_pos hprivate]

theorem acquire_of_room (h : Sound limit listener) {client : IpAddr} (hpublic : isPrivate client = false)
    (hroom : listener.counted (ClientSlots.key client.toCanonical) < limit) :
    listener.slots.acquire client =
      (some (some (ClientSlots.key client.toCanonical)),
        { listener.slots with
          opened := listener.slots.opened.insert (ClientSlots.key client.toCanonical)
            (listener.counted (ClientSlots.key client.toCanonical) + 1) }) := by
  have hnot : ¬isPrivate client = true := by simp [hpublic]
  rw [ClientSlots.acquire, any_uncapped h, if_neg hnot]
  dsimp only
  rw [getD_lookup h, h.settings.1, if_neg (Nat.not_le.mpr hroom)]

theorem acquire_of_full (h : Sound limit listener) {client : IpAddr} (hpublic : isPrivate client = false)
    (hfull : limit ≤ listener.counted (ClientSlots.key client.toCanonical)) :
    listener.slots.acquire client =
      (none,
        { listener.slots with
          opened := listener.slots.opened.insert (ClientSlots.key client.toCanonical)
            (listener.counted (ClientSlots.key client.toCanonical)) }) := by
  have hnot : ¬isPrivate client = true := by simp [hpublic]
  rw [ClientSlots.acquire, any_uncapped h, if_neg hnot]
  dsimp only
  rw [getD_lookup h, h.settings.1, if_pos hfull]

theorem counted_append (listener : Listener) (slots : ClientSlots) (connection : Option OpenConnection) (key : IpAddr) :
    counted ⟨slots, listener.connections ++ [connection]⟩ key =
      listener.counted key + (decide (connection.bind OpenConnection.slot = some key)).toNat := by
  rw [counted, counted, List.countP_append, List.countP_singleton]
  cases decide (connection.bind OpenConnection.slot = some key) <;> rfl

/-- A new connection, whose key is counted once more. -/
theorem sound_append (h : Sound limit listener) {slots : ClientSlots} {entry : Option OpenConnection}
    (hsettings : slots.limit = listener.slots.limit ∧ slots.uncapped = listener.slots.uncapped)
    (hkeyed : ∀ connection, entry = some connection →
      connection.slot = if isPrivate connection.client then none else some (ClientSlots.key connection.client.toCanonical))
    (htable : ∀ key, slots.opened.lookup key =
      entryFor (listener.counted key + (decide (entry.bind OpenConnection.slot = some key)).toNat))
    (hbounded : ∀ key, entry.bind OpenConnection.slot = some key → listener.counted key < limit) :
    Sound limit ⟨slots, listener.connections ++ [entry]⟩ := by
  refine ⟨⟨hsettings.1.trans h.settings.1, hsettings.2.trans h.settings.2⟩, ?_, ?_, ?_⟩
  · intro connection hmem
    cases List.mem_append.mp hmem with
    | inl hold => exact h.keyed connection hold
    | inr hnew => exact hkeyed connection (List.mem_singleton.mp hnew).symm
  · intro key
    rw [counted_append]
    exact htable key
  · intro key
    rw [counted_append]
    by_cases hkey : entry.bind OpenConnection.slot = some key
    · rw [decide_eq_true hkey]
      exact hbounded key hkey
    · rw [decide_eq_false hkey]
      exact h.bounded key

theorem sound_arrive (h : Sound limit listener) (hlimit : 0 < limit) (client : IpAddr) :
    Sound limit (listener.step (.arrive client)) := by
  cases hprivate : isPrivate client with
  | true =>
    simp only [step, acquire_of_private h hprivate]
    refine sound_append h ⟨rfl, rfl⟩ ?_ ?_ ?_
    · intro connection hconnection
      obtain rfl := Option.some.inj hconnection
      exact (if_pos hprivate).symm
    · intro key
      exact h.table key
    · exact nofun
  | false =>
    have hnot : ¬isPrivate client = true := by simp [hprivate]
    by_cases hroom : listener.counted (ClientSlots.key client.toCanonical) < limit
    · simp only [step, acquire_of_room h hprivate hroom]
      refine sound_append h ⟨rfl, rfl⟩ ?_ ?_ ?_
      · intro connection hconnection
        obtain rfl := Option.some.inj hconnection
        exact (if_neg hnot).symm
      · intro key
        dsimp only [Option.map_some, Option.bind_some]
        rw [KeyedMap.lookup_insert]
        by_cases hkey : key = ClientSlots.key client.toCanonical
        · rw [if_pos hkey, hkey, decide_eq_true rfl]
          rfl
        · have hother : ¬(some (ClientSlots.key client.toCanonical) = some key) :=
            fun hsame => hkey (Option.some.inj hsame).symm
          rw [if_neg hkey, decide_eq_false hother]
          exact h.table key
      · intro key hkey
        rwa [← Option.some.inj hkey]
    · have hfull := Nat.not_lt.mp hroom
      simp only [step, acquire_of_full h hprivate hfull]
      refine sound_append h ⟨rfl, rfl⟩ ?_ ?_ ?_
      · exact nofun
      · intro key
        dsimp only
        rw [KeyedMap.lookup_insert]
        by_cases hkey : key = ClientSlots.key client.toCanonical
        · rw [if_pos hkey, hkey]
          exact (entryFor_of_pos (Nat.lt_of_lt_of_le hlimit hfull)).symm
        · rw [if_neg hkey]
          exact h.table key
      · exact nofun

theorem counted_set {i : Nat} {entry : Option OpenConnection} (hi : listener.connections[i]? = some entry)
    (slots : ClientSlots) (key : IpAddr) :
    counted ⟨slots, listener.connections.set i none⟩ key +
      (decide (entry.bind OpenConnection.slot = some key)).toNat = listener.counted key :=
  countP_set_add (fun connection : Option OpenConnection => decide (connection.bind OpenConnection.slot = some key)) hi none

/-- A connection that is over, whose key is counted once less. -/
theorem sound_set (h : Sound limit listener) {i : Nat} {entry : Option OpenConnection}
    (hi : listener.connections[i]? = some entry) {slots : ClientSlots}
    (hsettings : slots.limit = listener.slots.limit ∧ slots.uncapped = listener.slots.uncapped)
    (htable : ∀ key, slots.opened.lookup key =
      entryFor (listener.counted key - (decide (entry.bind OpenConnection.slot = some key)).toNat)) :
    Sound limit ⟨slots, listener.connections.set i none⟩ := by
  have hset := counted_set hi slots
  refine ⟨⟨hsettings.1.trans h.settings.1, hsettings.2.trans h.settings.2⟩, ?_, ?_, ?_⟩
  · intro connection hmem
    cases List.mem_or_eq_of_mem_set hmem with
    | inl hold => exact h.keyed connection hold
    | inr hnew => exact absurd hnew nofun
  · intro key
    rw [Nat.eq_sub_of_add_eq (hset key)]
    exact htable key
  · intro key
    exact (Nat.le.intro (hset key)).trans (h.bounded key)

theorem drop_settings (slots : ClientSlots) (slot : ClientSlot) :
    (slots.drop slot).limit = slots.limit ∧ (slots.drop slot).uncapped = slots.uncapped := by
  cases slot with
  | none => exact ⟨rfl, rfl⟩
  | some key =>
    rw [ClientSlots.drop]
    cases slots.opened.lookup key with
    | none => exact ⟨rfl, rfl⟩
    | some count =>
      dsimp only
      split
      · exact ⟨rfl, rfl⟩
      · exact ⟨rfl, rfl⟩

theorem lookup_drop {slots : ClientSlots} {key : IpAddr} {n : Nat} (h : slots.opened.lookup key = some n) (other : IpAddr) :
    (slots.drop (some key)).opened.lookup other =
      if other = key then entryFor (n - 1) else slots.opened.lookup other := by
  rw [ClientSlots.drop, h]
  dsimp only
  by_cases hlast : n - 1 = 0
  · rw [if_pos hlast, hlast]
    by_cases hother : other = key
    · rw [if_pos hother, hother, AList.lookup_erase]
      rfl
    · rw [if_neg hother, AList.lookup_erase_ne hother]
  · rw [if_neg hlast, entryFor_of_pos (Nat.pos_of_ne_zero hlast), KeyedMap.lookup_insert]

theorem sound_finish (h : Sound limit listener) (i : Nat) : Sound limit (listener.step (.finish i)) := by
  cases hi : listener.connections[i]? with
  | none => simpa only [step, hi] using h
  | some entry =>
    cases entry with
    | none => simpa only [step, hi] using h
    | some connection =>
      simp only [step, hi]
      refine sound_set h hi (drop_settings _ _) ?_
      intro other
      cases hslot : connection.slot with
      | none =>
        rw [Option.bind_some, hslot, decide_eq_false nofun]
        exact h.table other
      | some key =>
        have hcounted := counted_set hi listener.slots key
        rw [Option.bind_some, hslot, decide_eq_true rfl, Bool.toNat_true] at hcounted
        have hlookup : listener.slots.opened.lookup key = some (listener.counted key) := by
          rw [h.table, entryFor_of_pos (by omega)]
        rw [lookup_drop hlookup, Option.bind_some, hslot]
        by_cases hother : other = key
        · rw [if_pos hother, hother, decide_eq_true rfl]
          rfl
        · have hdiffers : ¬(some key = some other) := fun hsame => hother (Option.some.inj hsame).symm
          rw [if_neg hother, decide_eq_false hdiffers]
          exact h.table other

theorem heldBy_eq (h : Sound limit listener) (ip : IpAddr) :
    listener.heldBy ip = listener.counted (ClientSlots.key ip.toCanonical) := by
  apply List.countP_congr
  intro entry hentry
  cases entry with
  | none => simp
  | some connection =>
    have hslot := h.keyed connection hentry
    simp only [Option.any_some, Option.bind_some, hslot, Bool.and_eq_true, Bool.not_eq_true', decide_eq_true_eq]
    cases hprivate : isPrivate connection.client with
    | true => simp
    | false => simp [key_eq_iff]

theorem pos_perClientLimit (maxConnections : Nat) : 0 < perClientLimit maxConnections :=
  Nat.lt_of_lt_of_le (by decide) (Nat.le_max_right _ 4)

theorem sound_step (h : Sound limit listener) (hlimit : 0 < limit) (event : ListenerEvent) :
    Sound limit (listener.step event) := by
  cases event with
  | arrive client => exact sound_arrive h hlimit client
  | finish i => exact sound_finish h i

/-- A connection is refused when its client is public and has as many as it may. -/
theorem refused_iff (h : Sound limit listener) (client : IpAddr) :
    (listener.step (.arrive client)).connections = listener.connections ++ [none] ↔
      isPrivate client = false ∧ listener.heldBy client = limit := by
  have hbounded := h.bounded (ClientSlots.key client.toCanonical)
  rw [heldBy_eq h]
  cases hprivate : isPrivate client with
  | true => simp [step, acquire_of_private h hprivate]
  | false =>
    by_cases hroom : listener.counted (ClientSlots.key client.toCanonical) < limit
    · have hne : listener.counted (ClientSlots.key client.toCanonical) ≠ limit := Nat.ne_of_lt hroom
      simp [step, acquire_of_room h hprivate hroom, hne]
    · have hfull : listener.counted (ClientSlots.key client.toCanonical) = limit := by omega
      simp [step, acquire_of_full h hprivate (Nat.not_lt.mp hroom), hfull]

/-- Whatever connections come and go: a public client, which is an IPv4 address in either form or an IPv6 /64, holds at
most its share of the listener; a connection is refused just where a public client has all of its share; and the table
has no entry for a client without connections. -/
theorem clients_capped (maxConnections : Nat) (events : List ListenerEvent) :
    Always step
      (fun listener => (∀ ip, listener.heldBy ip ≤ perClientLimit maxConnections) ∧
        ∀ key ∈ listener.slots.opened, ∃ connection, some connection ∈ listener.connections ∧ connection.slot = some key)
      (new maxConnections) events ∧
    Each step
      (fun listener event => ∀ client, event = .arrive client →
        ((listener.step event).connections = listener.connections ++ [none] ↔
          isPrivate client = false ∧ listener.heldBy client = perClientLimit maxConnections))
      (new maxConnections) events := by
  have hpos := pos_perClientLimit maxConnections
  have halways : Always step (Sound (perClientLimit maxConnections)) (new maxConnections) events :=
    always_of_step (fun listener event h => sound_step h hpos event) events (sound_new maxConnections)
  have hany : Each step (fun _ _ => True) (new maxConnections) events := each_of_forall (fun _ _ => trivial) events _
  constructor
  · apply always_mono _ halways
    intro listener h
    refine ⟨fun ip => (heldBy_eq h ip).trans_le (h.bounded _), ?_⟩
    intro key hkey
    have hcounted : 0 < listener.counted key := by
      rw [← AList.lookup_isSome, h.table] at hkey
      cases hcount : listener.counted key with
      | zero => simp [hcount, entryFor] at hkey
      | succ n => exact Nat.succ_pos n
    obtain ⟨entry, hentry, hslot⟩ := List.countP_pos_iff.mp hcounted
    cases entry with
    | none => simp at hslot
    | some connection => exact ⟨connection, hentry, by simpa using hslot⟩
  · apply each_of_invariant (Sound (perClientLimit maxConnections))
      (fun listener event h _ => sound_step h hpos event) _ events (sound_new maxConnections) hany
    intro listener event h _ client hevent
    rw [hevent]
    exact refused_iff h client

end Listener

end DaygleDns.Dispatch
