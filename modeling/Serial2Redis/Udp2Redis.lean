import Serial2Redis.Udp
import Serial2Redis.Library.GuardedRun
import Mathlib.Data.List.Pairwise

/-!
# udp2redis: one Redis connection per UDP client

The receive handler, the cleanup timer and the proxies of `udp2redis.cpp`. A
datagram waits in the `_toRedis` queue of its proxy until the thread loop delivers
it; the activity stamp is written by that delivery, not by the receive handler.
-/

namespace Serial2Redis

open GuardedRun

structure UdpMsg where
  dst : UdpAddress
  payload : Bytes

/-- A datagram in a `_toRedis` queue, with its sender and when it was handled. -/
structure QueuedDatagram where
  source : UdpAddress
  arrival : Nat
  payload : Bytes

/-- `udpSource` is the address captured by the reply lambda; `served` lists the
senders of all datagrams handed to the proxy. -/
structure RedisProxy where
  udpSource : UdpAddress
  lastMessage : Nat
  toRedis : List QueuedDatagram
  served : List UdpAddress

abbrev Clients := List (UdpAddress × RedisProxy)

/-- `lastHandled` is when the receive handler last handled a datagram from an address. -/
structure UdpBridge where
  clients : Clients
  millis : Nat
  lastHandled : UdpAddress → Option Nat
  sent : List UdpMsg

def RedisProxy.create (udpSource : UdpAddress) : RedisProxy where
  udpSource := udpSource
  lastMessage := 0
  toRedis := []
  served := []

def RedisProxy.enqueue (proxy : RedisProxy) (datagram : QueuedDatagram) : RedisProxy :=
  { proxy with
    toRedis := proxy.toRedis ++ [datagram]
    served := datagram.source :: proxy.served }

/-- The thread loop hands the oldest queued datagram to the subscribers, the last
of which writes the stamp. -/
def RedisProxy.deliver (now : Nat) (proxy : RedisProxy) : RedisProxy :=
  match proxy.toRedis with
  | [] => proxy
  | _ :: rest => { proxy with toRedis := rest, lastMessage := now }

/-- `Sys::millis() - _lastMessage`; the clock never runs backwards, so nothing wraps. -/
def RedisProxy.inactivity (now : Nat) (proxy : RedisProxy) : Nat := now - proxy.lastMessage

def Clients.find (memcmp : Memcmp) (clients : Clients) (source : UdpAddress) :
    Option (UdpAddress × RedisProxy) :=
  clients.find? fun entry => UdpAddress.equivalent memcmp entry.1 source

def Clients.modify (clients : Clients) (key : UdpAddress) (change : RedisProxy → RedisProxy) :
    Clients :=
  clients.map fun entry => if entry.1 = key then (entry.1, change entry.2) else entry

def Clients.cleanup (proxyTimeout now : Nat) (clients : Clients) : Clients :=
  clients.filter fun entry => ¬entry.2.inactivity now > proxyTimeout

inductive UdpEvent where
  | datagram (source : UdpAddress) (payload : Bytes)
  | deliver (client : UdpAddress)
  | reply (client : UdpAddress) (payload : Bytes)
  | tick
  | elapse (milliseconds : Nat)

namespace UdpBridge

def admitted (memcmp : Memcmp) (bridge : UdpBridge) (source : UdpAddress) : Clients :=
  match bridge.clients.find memcmp source with
  | some _ => bridge.clients
  | none => (source, RedisProxy.create source) :: bridge.clients

/-- The entry whose proxy the receive handler hands the payload to. -/
def receiver (memcmp : Memcmp) (bridge : UdpBridge) (source : UdpAddress) :
    UdpAddress × RedisProxy :=
  match bridge.clients.find memcmp source with
  | some entry => entry
  | none => (source, RedisProxy.create source)

def step (memcmp : Memcmp) (proxyTimeout : Nat) (bridge : UdpBridge) : UdpEvent → UdpBridge
  | .datagram source payload =>
      { bridge with
        clients := (bridge.admitted memcmp source).modify (bridge.receiver memcmp source).1
          (RedisProxy.enqueue · ⟨source, bridge.millis, payload⟩)
        lastHandled := Function.update bridge.lastHandled source (some bridge.millis) }
  | .deliver client =>
      { bridge with clients := bridge.clients.modify client (RedisProxy.deliver bridge.millis) }
  | .reply client payload =>
      { bridge with
        sent := (bridge.clients.filter fun entry => entry.1 = client).map
          (fun entry => ⟨entry.2.udpSource, payload⟩) ++ bridge.sent }
  | .tick => { bridge with clients := bridge.clients.cleanup proxyTimeout bridge.millis }
  | .elapse milliseconds => { bridge with millis := bridge.millis + milliseconds }

def initial (millis : Nat) : UdpBridge where
  clients := []
  millis := millis
  lastHandled := fun _ => none
  sent := []

end UdpBridge

open UdpBridge

/-- A payload goes to the proxy created for its source, and a reply goes to an
address that sent everything its proxy was ever given. -/
def StaysInSession (memcmp : Memcmp) (bridge : UdpBridge) : UdpEvent → Prop
  | .datagram source _ => (bridge.receiver memcmp source).2.udpSource = source
  | .reply client _ => ∀ entry ∈ bridge.clients, entry.1 = client →
      ∀ source ∈ entry.2.served, source = entry.2.udpSource
  | _ => True

/-- The order of the map tells the source of a datagram from every client. -/
def SourceSeparated (memcmp : Memcmp) (bridge : UdpBridge) : UdpEvent → Prop
  | .datagram source _ => ∀ entry ∈ bridge.clients, UdpAddress.Separates memcmp entry.1 source
  | _ => True

/-- What the map looks like in every run: each proxy stands under the address it
was created for, and no two keys are equivalent. -/
structure UdpBridge.WellKeyed (memcmp : Memcmp) (bridge : UdpBridge) : Prop where
  keyed : ∀ entry ∈ bridge.clients, entry.2.udpSource = entry.1
  apart : (bridge.clients.map Prod.fst).Pairwise
    fun left right => UdpAddress.equivalent memcmp left right = false

namespace Clients

theorem modify_keys (clients : Clients) (key : UdpAddress) (change : RedisProxy → RedisProxy) :
    (clients.modify key change).map Prod.fst = clients.map Prod.fst := by
  rw [modify, List.map_map]
  apply List.map_congr_left
  intro entry _
  by_cases same : entry.1 = key <;> simp [same]

theorem mem_modify {clients : Clients} {key : UdpAddress} {change : RedisProxy → RedisProxy}
    {entry : UdpAddress × RedisProxy} (member : entry ∈ clients.modify key change) :
    ∃ old ∈ clients, entry.1 = old.1 ∧
      ((old.1 = key ∧ entry.2 = change old.2) ∨ (old.1 ≠ key ∧ entry.2 = old.2)) := by
  obtain ⟨old, inside, rfl⟩ := List.mem_map.mp member
  refine ⟨old, inside, ?_⟩
  by_cases same : old.1 = key <;> simp [same]

theorem find_some {memcmp : Memcmp} {clients : Clients} {source : UdpAddress}
    {entry : UdpAddress × RedisProxy} (found : clients.find memcmp source = some entry) :
    entry ∈ clients ∧ UdpAddress.equivalent memcmp entry.1 source = true :=
  ⟨List.mem_of_find?_eq_some found, by simpa using List.find?_some found⟩

theorem find_none {memcmp : Memcmp} {clients : Clients} {source : UdpAddress}
    (found : clients.find memcmp source = none) :
    ∀ entry ∈ clients, UdpAddress.equivalent memcmp entry.1 source = false := by
  intro entry member
  have missed := List.find?_eq_none.mp found entry member
  simpa using missed

theorem mem_cleanup_iff (proxyTimeout now : Nat) (clients : Clients)
    (entry : UdpAddress × RedisProxy) :
    entry ∈ clients.cleanup proxyTimeout now ↔
      entry ∈ clients ∧ ¬entry.2.inactivity now > proxyTimeout := by
  rw [cleanup, List.mem_filter, decide_eq_true_eq]

end Clients

namespace UdpBridge

variable {memcmp : Memcmp} {proxyTimeout : Nat} {bridge : UdpBridge}

theorem mem_admitted {source : UdpAddress} {entry : UdpAddress × RedisProxy}
    (member : entry ∈ bridge.admitted memcmp source) :
    entry ∈ bridge.clients ∨
      (entry = (source, RedisProxy.create source) ∧ bridge.clients.find memcmp source = none) := by
  unfold admitted at member
  cases found : bridge.clients.find memcmp source with
  | some present => exact .inl (by simpa only [found] using member)
  | none =>
      rw [found] at member
      rcases List.mem_cons.mp member with same | older
      · exact .inr ⟨same, rfl⟩
      · exact .inl older

theorem WellKeyed.same_key (wellKeyed : bridge.WellKeyed memcmp)
    {left right : UdpAddress × RedisProxy}
    (leftMember : left ∈ bridge.clients) (rightMember : right ∈ bridge.clients)
    (same : UdpAddress.equivalent memcmp left.1 right.1 = true) : left.1 = right.1 := by
  by_contra different
  have symmetric : Std.Symm fun left right : UdpAddress =>
      UdpAddress.equivalent memcmp left right = false := by
    constructor
    intro left right apart
    rwa [UdpAddress.equivalent_comm]
  have apart := wellKeyed.apart.forall (List.mem_map_of_mem leftMember)
    (List.mem_map_of_mem rightMember) different
  rw [apart] at same
  cases same

theorem WellKeyed.admitted (wellKeyed : bridge.WellKeyed memcmp) (source : UdpAddress) :
    ({ bridge with clients := bridge.admitted memcmp source }).WellKeyed memcmp := by
  constructor
  · intro entry member
    rcases mem_admitted member with older | ⟨rfl, _⟩
    · exact wellKeyed.keyed entry older
    · rfl
  · simp only [UdpBridge.admitted]
    cases found : bridge.clients.find memcmp source with
    | some present => exact wellKeyed.apart
    | none =>
        rw [List.map_cons, List.pairwise_cons]
        refine ⟨?_, wellKeyed.apart⟩
        intro key member
        obtain ⟨entry, inside, rfl⟩ := List.mem_map.mp member
        rw [UdpAddress.equivalent_comm]
        exact Clients.find_none found entry inside

theorem WellKeyed.modify (wellKeyed : bridge.WellKeyed memcmp) (key : UdpAddress)
    (change : RedisProxy → RedisProxy)
    (keeps : ∀ proxy, (change proxy).udpSource = proxy.udpSource) :
    ({ bridge with clients := bridge.clients.modify key change }).WellKeyed memcmp := by
  constructor
  · intro entry member
    obtain ⟨old, inside, sameKey, ⟨_, changed⟩ | ⟨_, kept⟩⟩ := Clients.mem_modify member
    · rw [changed, keeps, wellKeyed.keyed old inside, sameKey]
    · rw [kept, wellKeyed.keyed old inside, sameKey]
  · rw [Clients.modify_keys]
    exact wellKeyed.apart

theorem deliver_keeps (now : Nat) (proxy : RedisProxy) :
    (proxy.deliver now).udpSource = proxy.udpSource ∧
      (proxy.deliver now).served = proxy.served := by
  unfold RedisProxy.deliver
  cases proxy.toRedis <;> exact ⟨rfl, rfl⟩

@[simp] theorem step_datagram_clients (source : UdpAddress) (payload : Bytes) :
    (bridge.step memcmp proxyTimeout (.datagram source payload)).clients =
      (bridge.admitted memcmp source).modify (bridge.receiver memcmp source).1
        (RedisProxy.enqueue · ⟨source, bridge.millis, payload⟩) := rfl

@[simp] theorem step_deliver_clients (client : UdpAddress) :
    (bridge.step memcmp proxyTimeout (.deliver client)).clients =
      bridge.clients.modify client (RedisProxy.deliver bridge.millis) := rfl

theorem step_well_keyed (event : UdpEvent) (wellKeyed : bridge.WellKeyed memcmp) :
    (bridge.step memcmp proxyTimeout event).WellKeyed memcmp := by
  cases event with
  | datagram source payload =>
      have handed := (wellKeyed.admitted source).modify (bridge.receiver memcmp source).1
        (RedisProxy.enqueue · ⟨source, bridge.millis, payload⟩) fun _ => rfl
      exact ⟨handed.keyed, handed.apart⟩
  | deliver client =>
      exact wellKeyed.modify client _ fun proxy => (deliver_keeps bridge.millis proxy).1
  | reply client payload => exact ⟨wellKeyed.keyed, wellKeyed.apart⟩
  | tick =>
      constructor
      · intro entry member
        exact wellKeyed.keyed entry ((Clients.mem_cleanup_iff _ _ _ _).mp member).1
      · exact wellKeyed.apart.sublist (List.filter_sublist.map Prod.fst)
  | elapse milliseconds => exact ⟨wellKeyed.keyed, wellKeyed.apart⟩

theorem initial_well_keyed (memcmp : Memcmp) (millis : Nat) :
    (initial millis).WellKeyed memcmp := by
  constructor <;> simp [initial]

theorem receiver_keyed (wellKeyed : bridge.WellKeyed memcmp) (source : UdpAddress) :
    (bridge.receiver memcmp source).2.udpSource = (bridge.receiver memcmp source).1 := by
  unfold receiver
  cases found : bridge.clients.find memcmp source with
  | some entry => exact wellKeyed.keyed entry (Clients.find_some found).1
  | none => rfl

/-- A source that is itself a key is served by its own entry. -/
theorem receiver_of_key (wellKeyed : bridge.WellKeyed memcmp) (source : UdpAddress)
    (entry : UdpAddress × RedisProxy) (member : entry ∈ bridge.admitted memcmp source)
    (key : entry.1 = source) : (bridge.receiver memcmp source).1 = source := by
  unfold receiver
  cases found : bridge.clients.find memcmp source with
  | none => rfl
  | some present =>
      obtain ⟨inside, same⟩ := Clients.find_some found
      rcases mem_admitted member with older | ⟨_, absent⟩
      · rw [← key] at same ⊢
        exact wellKeyed.same_key inside older same
      · rw [found] at absent
        cases absent

theorem receiver_separated (source : UdpAddress)
    (separated : ∀ entry ∈ bridge.clients, UdpAddress.Separates memcmp entry.1 source) :
    (bridge.receiver memcmp source).1 = source := by
  unfold receiver
  cases found : bridge.clients.find memcmp source with
  | none => rfl
  | some entry =>
      obtain ⟨inside, same⟩ := Clients.find_some found
      rcases (UdpAddress.equivalent_iff memcmp entry.1 source).mp same with equal | collides
      · exact equal
      · exact absurd (separated entry inside) collides

theorem separated_of_receiver (wellKeyed : bridge.WellKeyed memcmp) (source : UdpAddress)
    (own : (bridge.receiver memcmp source).2.udpSource = source) :
    ∀ entry ∈ bridge.clients, UdpAddress.Separates memcmp entry.1 source := by
  intro entry member
  by_contra collides
  have same := (UdpAddress.equivalent_iff memcmp entry.1 source).mpr (.inr collides)
  rw [receiver_keyed wellKeyed, receiver] at own
  cases found : bridge.clients.find memcmp source with
  | none =>
      rw [Clients.find_none found entry member] at same
      cases same
  | some present =>
      simp only [found] at own
      have inside := (Clients.find_some found).1
      rw [← own] at same
      have key := wellKeyed.same_key member inside same
      exact collides (.inl (by rw [key, own]))

def ServesOwn (bridge : UdpBridge) : Prop :=
  ∀ entry ∈ bridge.clients, ∀ source ∈ entry.2.served, source = entry.2.udpSource

theorem step_serves_own (event : UdpEvent) (wellKeyed : bridge.WellKeyed memcmp)
    (servesOwn : bridge.ServesOwn) (separated : SourceSeparated memcmp bridge event) :
    (bridge.step memcmp proxyTimeout event).ServesOwn := by
  cases event with
  | datagram source payload =>
      have own := receiver_separated source separated
      have owned : ∀ old ∈ bridge.admitted memcmp source, old.2.udpSource = old.1 ∧
          ∀ served ∈ old.2.served, served = old.2.udpSource := by
        intro old inside
        rcases mem_admitted inside with older | ⟨rfl, _⟩
        · exact ⟨wellKeyed.keyed old older, servesOwn old older⟩
        · exact ⟨rfl, by simp [RedisProxy.create]⟩
      intro entry member served given
      rw [step_datagram_clients] at member
      obtain ⟨old, inside, _, ⟨key, changed⟩ | ⟨_, kept⟩⟩ := Clients.mem_modify member
      · rw [changed] at given ⊢
        rcases List.mem_cons.mp given with rfl | earlier
        · exact (own.symm.trans key.symm).trans (owned old inside).1.symm
        · exact (owned old inside).2 served earlier
      · rw [kept] at given ⊢
        exact (owned old inside).2 served given
  | deliver client =>
      intro entry member served given
      rw [step_deliver_clients] at member
      obtain ⟨old, inside, _, ⟨_, changed⟩ | ⟨_, kept⟩⟩ := Clients.mem_modify member
      · rw [changed, (deliver_keeps bridge.millis old.2).2] at given
        rw [changed, (deliver_keeps bridge.millis old.2).1]
        exact servesOwn old inside served given
      · rw [kept] at given ⊢
        exact servesOwn old inside served given
  | reply client payload => exact servesOwn
  | tick =>
      intro entry member
      exact servesOwn entry ((Clients.mem_cleanup_iff _ _ _ _).mp member).1
  | elapse milliseconds => exact servesOwn

end UdpBridge

/-- A run keeps every session to its own address exactly when each datagram comes
from a source that the order of the map tells from the clients present. -/
theorem udp_session_isolation_iff (memcmp : Memcmp) (proxyTimeout millis : Nat)
    (events : List UdpEvent) :
    Admits (step memcmp proxyTimeout) (StaysInSession memcmp) (initial millis) events ↔
      Admits (step memcmp proxyTimeout) (SourceSeparated memcmp) (initial millis) events := by
  constructor
  · apply admits_mono _ _ _ (UdpBridge.WellKeyed memcmp)
    · exact fun bridge event wellKeyed _ => step_well_keyed event wellKeyed
    · intro bridge event wellKeyed stays
      cases event with
      | datagram source payload => exact separated_of_receiver wellKeyed source stays
      | _ => trivial
    · exact initial_well_keyed memcmp millis
  · apply admits_mono _ _ _ fun bridge => bridge.WellKeyed memcmp ∧ bridge.ServesOwn
    · intro bridge event holds separated
      exact ⟨step_well_keyed event holds.1, step_serves_own event holds.1 holds.2 separated⟩
    · intro bridge event holds separated
      cases event with
      | datagram source payload =>
          exact (receiver_keyed holds.1 source).trans (receiver_separated source separated)
      | reply client payload => exact fun entry member _ => holds.2 entry member
      | _ => trivial
    · exact ⟨initial_well_keyed memcmp millis, by simp [ServesOwn, initial]⟩

def sampleAddress (host : Byte) : UdpAddress where
  ip := ⟨[10, 0, 0, host], rfl⟩
  port := 5000

/-- With the byte difference for `memcmp`, 10.0.0.3 is served by the proxy of 10.0.0.1. -/
theorem udp_sources_share_a_proxy :
    ¬Admits (step glibcMemcmp 5000) (StaysInSession glibcMemcmp) (initial 0)
      [.datagram (sampleAddress 1) (text "[]"), .datagram (sampleAddress 3) (text "[]")] := by
  intro stays
  have second : (RedisProxy.enqueue (RedisProxy.create (sampleAddress 1))
      ⟨sampleAddress 1, 0, text "[]"⟩).udpSource = sampleAddress 3 := stays.2.1
  exact absurd second (by decide)

end Serial2Redis
