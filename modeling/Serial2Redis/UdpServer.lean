import Serial2Redis.UdpAccounting

/-!
# udp2redis on its socket

`Udp.cpp` and `SessionUdp.cpp` under the receive handler of `udp2redis.cpp`: what comes in
from the kernel, the queue of replies, and what goes back to the kernel. Nothing opens the
socket again once an error has closed it.
-/

namespace Serial2Redis

open GuardedRun UdpBridge

def MAXLINE : Nat := 1472

inductive ByteOrder where
  | littleEndian
  | bigEndian

namespace ByteOrder

/-- A `uint16_t` by its two bytes in memory. -/
def load : ByteOrder → Byte × Byte → BitVec 16
  | .littleEndian, (first, second) => second ++ first
  | .bigEndian, (first, second) => first ++ second

def store : ByteOrder → BitVec 16 → Byte × Byte
  | .littleEndian, value => (value.extractLsb' 0 8, value.extractLsb' 8 8)
  | .bigEndian, value => (value.extractLsb' 8 8, value.extractLsb' 0 8)

def ntohs : ByteOrder → BitVec 16 → BitVec 16
  | .littleEndian, value => value.extractLsb' 0 8 ++ value.extractLsb' 8 8
  | .bigEndian, value => value

def htons : ByteOrder → BitVec 16 → BitVec 16 := ntohs

end ByteOrder

/-- What the kernel looks at in a `sockaddr_in` besides its family, in memory order. -/
structure SockaddrIn where
  sinPort : Byte × Byte
  sinAddr : InAddr

namespace Udp

/-- The source that `receive` reports. -/
def sourceOf (order : ByteOrder) (clientaddr : SockaddrIn) : UdpAddress where
  ip := clientaddr.sinAddr
  port := order.ntohs (order.load clientaddr.sinPort)

/-- What `recvfrom` leaves in the buffer, as a message; `none` is a result below zero. -/
def receive (order : ByteOrder) : Option (SockaddrIn × Bytes) → Option (UdpAddress × Bytes)
  | none => none
  | some (clientaddr, datagram) => some (sourceOf order clientaddr, datagram.take MAXLINE)

/-- Where `send` sends to. -/
def destination (order : ByteOrder) (dst : UdpAddress) : SockaddrIn where
  sinPort := order.store (order.htons dst.port)
  sinAddr := dst.ip

theorem store_load (order : ByteOrder) (port : Byte × Byte) :
    order.store (order.htons (order.ntohs (order.load port))) = port := by
  rcases port with ⟨first, second⟩
  cases order <;>
    simp only [ByteOrder.htons, ByteOrder.ntohs, ByteOrder.load, ByteOrder.store,
      BitVec.extractLsb'_append_eq_left, BitVec.extractLsb'_append_eq_right]

/-- A reply is addressed with the very bytes its request came with. -/
theorem destination_source (order : ByteOrder) (clientaddr : SockaddrIn) :
    destination order (sourceOf order clientaddr) = clientaddr := by
  rw [destination, sourceOf, store_load]

end Udp

/-- A call of `sendto`; `opened` tells whether the descriptor is still the socket's. -/
structure Departure where
  opened : Bool
  destination : SockaddrIn
  payload : Bytes

/-- `opened` is whether `_sockfd` is open, `registered` whether the thread has the invokers
of `SessionUdp` for it, `outbox` the `_send` queue. -/
structure UdpServer where
  bridge : UdpBridge
  opened : Bool
  registered : Bool
  outbox : List UdpMsg

/-- How `socket` and `bind` end. -/
structure Boot where
  socket : Bool
  bind : Bool

inductive ServerEvent where
  | readable (result : Option (SockaddrIn × Bytes))
  | error
  | dequeue
  | inside (event : UdpEvent)

/-- The rules by which limero's queues refuse what is put into them. -/
structure QueueRules where
  toRedis : List QueuedDatagram → Bool
  send : List UdpMsg → Bool

namespace UdpServer

/-- `main` connects once and does not look at the result: a failed `bind` leaves the socket
open, and nothing is registered. -/
def connect (boot : Boot) (millis : Nat) : UdpServer where
  bridge := initial millis
  opened := boot.socket
  registered := boot.socket && boot.bind
  outbox := []

def disconnect (server : UdpServer) : UdpServer :=
  { server with registered := false, opened := false }

/-- The messages that the reply lambda of a proxy makes of a Redis response. -/
def repliesBy (bridge : UdpBridge) : UdpEvent → List UdpMsg
  | .reply client payload =>
      (bridge.clients.filter fun entry => entry.1 = client).map fun entry =>
        ⟨entry.2.udpSource, payload⟩
  | _ => []

section Step

variable (order : ByteOrder) (memcmp : Memcmp) (proxyTimeout : Nat) (rules : QueueRules)

/-- What the receive handler makes of a read event. -/
def receivedBy (server : UdpServer) : ServerEvent → List (UdpAddress × Bytes)
  | .readable result => if server.registered then (Udp.receive order result).toList else []
  | _ => []

def departuresBy (server : UdpServer) : ServerEvent → List Departure
  | .dequeue => server.outbox.head?.toList.map fun message =>
      ⟨server.opened, Udp.destination order message.dst, message.payload⟩
  | _ => []

/-- The replies that the `_send` queue takes. -/
def queuedBy (server : UdpServer) : ServerEvent → List UdpMsg
  | .inside (.datagram _ _) => []
  | .inside event => if rules.send server.outbox then [] else repliesBy server.bridge event
  | _ => []

/-- The thread calls invokers only while they are registered. Datagrams reach the proxies
through the receive handler alone. -/
def step (server : UdpServer) : ServerEvent → UdpServer
  | .readable result =>
      { server with
        bridge := (receivedBy order server (.readable result)).foldl
          (fun bridge message =>
            boundedStep memcmp proxyTimeout rules.toRedis bridge (.datagram message.1 message.2))
          server.bridge }
  | .error => if server.registered then server.disconnect else server
  | .dequeue => { server with outbox := server.outbox.tail }
  | .inside (.datagram _ _) => server
  | .inside event =>
      { server with
        bridge := boundedStep memcmp proxyTimeout rules.toRedis server.bridge event
        outbox := if rules.send server.outbox then server.outbox
          else server.outbox ++ repliesBy server.bridge event }

end Step

def isQuiet : ServerEvent → Bool
  | .error => false
  | _ => true

def arrivals (events : List ServerEvent) : List (SockaddrIn × Bytes) :=
  events.flatMap fun event =>
    match event with
    | .readable result => result.toList
    | _ => []

/-- What the handler gets of a datagram. -/
def received (order : ByteOrder) (arrival : SockaddrIn × Bytes) : UdpAddress × Bytes :=
  (Udp.sourceOf order arrival.1, arrival.2.take MAXLINE)

/-- There is nobody to reply to, and nobody will be heard. -/
structure Silent (server : UdpServer) : Prop where
  alone : server.bridge.clients = []
  nothing : server.outbox = []
  deaf : server.registered = false

/-- The socket is listened to while it is open, or it never comes to a reply. -/
def Settled (server : UdpServer) : Prop :=
  server.opened = server.registered ∨ server.Silent

/-- Every address that the server may still send to is known. -/
structure Knows (order : ByteOrder) (known : SockaddrIn → Prop) (server : UdpServer) : Prop where
  clients : ∀ entry ∈ server.bridge.clients, known (Udp.destination order entry.2.udpSource)
  waiting : ∀ message ∈ server.outbox, known (Udp.destination order message.dst)

def Hears (known : SockaddrIn → Prop) (server : UdpServer) (event : ServerEvent) : Prop :=
  server.registered = true → ∀ arrival ∈ arrivals [event], known arrival.1

section Runs

variable {order : ByteOrder} {memcmp : Memcmp} {proxyTimeout : Nat} {rules : QueueRules}
variable {server : UdpServer} {known : SockaddrIn → Prop}

theorem received_readable (result : Option (SockaddrIn × Bytes)) :
    receivedBy order server (.readable result) =
      if server.registered then (arrivals [.readable result]).map (received order) else [] := by
  cases result with
  | none => rfl
  | some arrival => rfl

/-- A bridge event puts clients into the map only for the source of a datagram. -/
theorem mem_bounded_step {bridge : UdpBridge} {event : UdpEvent}
    {entry : UdpAddress × RedisProxy}
    (member : entry ∈ (boundedStep memcmp proxyTimeout rules.toRedis bridge event).clients) :
    (∃ old ∈ bridge.clients, entry.2.udpSource = old.2.udpSource) ∨
      ∃ payload, event = .datagram entry.2.udpSource payload := by
  have created : ∀ source, ∀ old ∈ bridge.admitted memcmp source,
      (∃ older ∈ bridge.clients, old.2.udpSource = older.2.udpSource) ∨
        old.2.udpSource = source := by
    intro source old inside
    rcases mem_admitted inside with older | ⟨rfl, _⟩
    · exact .inl ⟨old, older, rfl⟩
    · exact .inr rfl
  rcases bounded_step_cases memcmp proxyTimeout rules.toRedis bridge event with
    ⟨stepped, _⟩ | ⟨source, payload, rfl, clients, _⟩
  · rw [stepped] at member
    cases event with
    | datagram source payload =>
        rw [step_datagram_clients] at member
        rcases Clients.mem_modify member with ⟨old, inside, _, ⟨_, changed⟩ | ⟨_, kept⟩⟩
        · have same : entry.2.udpSource = old.2.udpSource := by rw [changed]; rfl
          rcases created source old inside with older | own
          · exact .inl (by rwa [same])
          · exact .inr ⟨payload, by rw [same, own]⟩
        · rcases created source old inside with older | own
          · exact .inl (by rwa [kept])
          · exact .inr ⟨payload, by rw [kept, own]⟩
    | deliver client =>
        rcases Clients.mem_modify member with ⟨old, inside, _, ⟨_, changed⟩ | ⟨_, kept⟩⟩
        · exact .inl ⟨old, inside, by rw [changed, (deliver_keeps bridge.millis old.2).1]⟩
        · exact .inl ⟨old, inside, by rw [kept]⟩
    | tick => exact .inl ⟨entry, ((Clients.mem_cleanup_iff _ _ _ _).mp member).1, rfl⟩
    | reply client payload => exact .inl ⟨entry, member, rfl⟩
    | elapse milliseconds => exact .inl ⟨entry, member, rfl⟩
  · rw [clients] at member
    rcases created source entry member with older | own
    · exact .inl older
    · exact .inr ⟨payload, by rw [own]⟩

/-- What an event inside the process does: no client is new, and what is added to the
queue of replies is for clients that are there. -/
theorem step_inside (order : ByteOrder) (memcmp : Memcmp) (proxyTimeout : Nat)
    (rules : QueueRules) (server : UdpServer) (event : UdpEvent) :
    let next := step order memcmp proxyTimeout rules server (.inside event)
    next.opened = server.opened ∧ next.registered = server.registered ∧
      (∀ entry ∈ next.bridge.clients,
        ∃ old ∈ server.bridge.clients, entry.2.udpSource = old.2.udpSource) ∧
      ∀ message ∈ next.outbox, message ∈ server.outbox ∨
        ∃ old ∈ server.bridge.clients, message.dst = old.2.udpSource := by
  have bridged : ∀ other : UdpEvent, (∀ source payload, other ≠ .datagram source payload) →
      ∀ entry ∈ (boundedStep memcmp proxyTimeout rules.toRedis server.bridge other).clients,
        ∃ old ∈ server.bridge.clients, entry.2.udpSource = old.2.udpSource := by
    intro other internal entry member
    rcases mem_bounded_step member with old | ⟨payload, datagram⟩
    · exact old
    · exact absurd datagram (internal _ payload)
  have queued : ∀ other : UdpEvent, ∀ message ∈ (if rules.send server.outbox then server.outbox
      else server.outbox ++ repliesBy server.bridge other), message ∈ server.outbox ∨
        ∃ old ∈ server.bridge.clients, message.dst = old.2.udpSource := by
    intro other message member
    split_ifs at member with refused
    · exact .inl member
    · rcases List.mem_append.mp member with earlier | reply
      · exact .inl earlier
      · cases other with
        | reply client payload =>
            rcases List.mem_map.mp reply with ⟨old, inside, rfl⟩
            exact .inr ⟨old, (List.mem_filter.mp inside).1, rfl⟩
        | _ => cases reply
  cases event with
  | datagram source payload =>
      exact ⟨rfl, rfl, fun entry member => ⟨entry, member, rfl⟩, fun _ member => .inl member⟩
  | reply client payload => exact ⟨rfl, rfl, bridged _ (by simp), queued _⟩
  | deliver client => exact ⟨rfl, rfl, bridged _ (by simp), queued _⟩
  | tick => exact ⟨rfl, rfl, bridged _ (by simp), queued _⟩
  | elapse milliseconds => exact ⟨rfl, rfl, bridged _ (by simp), queued _⟩

/-- A read event leaves the socket and the queue of replies alone, and what is new in the map
stands for the source of the datagram. -/
theorem step_readable (order : ByteOrder) (memcmp : Memcmp) (proxyTimeout : Nat)
    (rules : QueueRules) (server : UdpServer) (result : Option (SockaddrIn × Bytes)) :
    let next := step order memcmp proxyTimeout rules server (.readable result)
    next.opened = server.opened ∧ next.registered = server.registered ∧
      next.outbox = server.outbox ∧
      ∀ entry ∈ next.bridge.clients,
        (∃ old ∈ server.bridge.clients, entry.2.udpSource = old.2.udpSource) ∨
          server.registered = true ∧
            ∃ arrival ∈ result, entry.2.udpSource = Udp.sourceOf order arrival.1 := by
  refine ⟨rfl, rfl, rfl, ?_⟩
  intro entry member
  simp only [step, receivedBy] at member
  by_cases registered : server.registered = true
  · rw [if_pos registered] at member
    cases result with
    | none => exact .inl ⟨entry, member, rfl⟩
    | some arrival =>
        change entry ∈ (boundedStep memcmp proxyTimeout rules.toRedis server.bridge
          (.datagram (Udp.sourceOf order arrival.1) (arrival.2.take MAXLINE))).clients at member
        rcases mem_bounded_step member with old | ⟨payload, datagram⟩
        · exact .inl old
        · injection datagram with source
          exact .inr ⟨registered, arrival, rfl, source.symm⟩
  · rw [if_neg registered] at member
    exact .inl ⟨entry, member, rfl⟩

theorem step_knows (event : ServerEvent) (knows : server.Knows order known)
    (hears : server.Hears known event) :
    (step order memcmp proxyTimeout rules server event).Knows order known := by
  cases event with
  | readable result =>
      obtain ⟨_, _, outbox, clients⟩ := step_readable order memcmp
        proxyTimeout rules server result
      constructor
      · intro entry member
        rcases clients entry member with ⟨old, inside, same⟩ | ⟨registered, arrival, taken, source⟩
        · rw [same]
          exact knows.clients old inside
        · rw [source, Udp.destination_source]
          apply hears registered arrival
          cases taken
          exact List.mem_singleton.mpr rfl
      · rw [outbox]
        exact knows.waiting
  | error =>
      simp only [step]
      split_ifs
      · exact ⟨knows.clients, knows.waiting⟩
      · exact knows
  | dequeue =>
      exact ⟨knows.clients, fun message member =>
        knows.waiting message (List.mem_of_mem_tail member)⟩
  | inside event =>
      obtain ⟨_, _, clients, outbox⟩ := step_inside order memcmp
        proxyTimeout rules server event
      constructor
      · intro entry member
        rcases clients entry member with ⟨old, inside, same⟩
        rw [same]
        exact knows.clients old inside
      · intro message member
        rcases outbox message member with earlier | ⟨old, inside, same⟩
        · exact knows.waiting message earlier
        · rw [same]
          exact knows.clients old inside

theorem step_silent (event : ServerEvent) (silent : server.Silent) :
    (step order memcmp proxyTimeout rules server event).Silent := by
  cases event with
  | readable result =>
      obtain ⟨_, registered, outbox, clients⟩ := step_readable order memcmp
        proxyTimeout rules server result
      constructor
      · apply List.eq_nil_iff_forall_not_mem.mpr
        intro entry member
        rcases clients entry member with ⟨old, inside, _⟩ | ⟨listening, _⟩
        · rw [silent.alone] at inside
          cases inside
        · rw [silent.deaf] at listening
          cases listening
      · rw [outbox, silent.nothing]
      · rw [registered, silent.deaf]
  | error =>
      rw [step, silent.deaf]
      exact silent
  | dequeue => exact ⟨silent.alone, by rw [step, silent.nothing]; rfl, silent.deaf⟩
  | inside event =>
      obtain ⟨_, registered, clients, outbox⟩ := step_inside order memcmp
        proxyTimeout rules server event
      constructor
      · apply List.eq_nil_iff_forall_not_mem.mpr
        intro entry member
        rcases clients entry member with ⟨old, inside, _⟩
        rw [silent.alone] at inside
        cases inside
      · apply List.eq_nil_iff_forall_not_mem.mpr
        intro message member
        rcases outbox message member with earlier | ⟨old, inside, _⟩
        · rw [silent.nothing] at earlier
          cases earlier
        · rw [silent.alone] at inside
          cases inside
      · rw [registered, silent.deaf]

theorem step_settled (event : ServerEvent) (settled : server.Settled) :
    (step order memcmp proxyTimeout rules server event).Settled := by
  rcases settled with same | silent
  · left
    cases event with
    | readable result => exact same
    | error =>
        simp only [step]
        split_ifs
        · rfl
        · exact same
    | dequeue => exact same
    | inside event =>
        obtain ⟨opened, registered, _, _⟩ :=
          step_inside order memcmp proxyTimeout rules server event
        rw [opened, registered, same]
  · exact .inr (step_silent event silent)

theorem connect_settled (boot : Boot) (millis : Nat) : (connect boot millis).Settled := by
  by_cases bound : boot.bind = true
  · left
    rw [connect, bound, Bool.and_true]
  · right
    exact ⟨rfl, rfl, by rw [connect, Bool.eq_false_iff.mpr bound, Bool.and_false]⟩

theorem step_registered (event : ServerEvent) :
    (step order memcmp proxyTimeout rules server event).registered =
      (server.registered && isQuiet event) := by
  cases event with
  | readable result => exact (Bool.and_true _).symm
  | error =>
      rw [isQuiet, Bool.and_false, step]
      by_cases registered : server.registered = true
      · rw [if_pos registered]
        rfl
      · rw [if_neg registered]
        exact Bool.eq_false_iff.mpr registered
  | dequeue => exact (Bool.and_true _).symm
  | inside event =>
      rw [(step_inside order memcmp proxyTimeout rules server event).2.1]
      exact (Bool.and_true _).symm

theorem received_quiet (event : ServerEvent) (quiet : isQuiet event = true) :
    receivedBy order server event =
      if server.registered then (arrivals [event]).map (received order) else [] := by
  cases event with
  | readable result => exact received_readable result
  | error => cases quiet
  | dequeue => exact (ite_self _).symm
  | inside event => exact (ite_self _).symm

theorem arrivals_cons (event : ServerEvent) (events : List ServerEvent) :
    arrivals (event :: events) = arrivals [event] ++ arrivals events := by
  rw [arrivals, arrivals, arrivals, List.flatMap_singleton]
  rfl

/-- While it is registered the session hears everything up to the first error. -/
theorem received_run (server : UdpServer) (events : List ServerEvent) :
    collected (step order memcmp proxyTimeout rules) (receivedBy order) server events =
      if server.registered then (arrivals (events.takeWhile isQuiet)).map (received order)
      else [] := by
  induction events generalizing server with
  | nil => exact (ite_self _).symm
  | cons event events induction =>
      rw [collected, induction, step_registered]
      by_cases quiet : isQuiet event = true
      · rw [received_quiet event quiet, quiet, Bool.and_true, List.takeWhile_cons_of_pos quiet,
          arrivals_cons event (events.takeWhile isQuiet), List.map_append]
        by_cases listening : server.registered = true
        · rw [if_pos listening, if_pos listening, if_pos listening]
        · rw [if_neg listening, if_neg listening, if_neg listening, List.append_nil]
      · cases event with
        | error => simp [receivedBy, isQuiet, arrivals]
        | _ => exact absurd rfl quiet

theorem admits_hears (server : UdpServer) (events : List ServerEvent)
    (heard : server.registered = true → ∀ arrival ∈ arrivals (events.takeWhile isQuiet),
      known arrival.1) :
    Admits (step order memcmp proxyTimeout rules) (Hears known) server events := by
  induction events generalizing server with
  | nil => trivial
  | cons event events induction =>
      constructor
      · intro listening arrival member
        apply heard listening
        cases event with
        | readable result =>
            rw [List.takeWhile_cons_of_pos rfl, arrivals_cons]
            exact List.mem_append_left _ member
        | _ => cases member
      · apply induction
        intro listening arrival member
        rw [step_registered, Bool.and_eq_true] at listening
        apply heard listening.1
        rw [List.takeWhile_cons_of_pos listening.2, arrivals_cons]
        exact List.mem_append_right _ member

theorem departures_dequeue {event : ServerEvent} {departure : Departure}
    (member : departure ∈ server.departuresBy order event) :
    ∃ message ∈ server.outbox,
      departure = ⟨server.opened, Udp.destination order message.dst, message.payload⟩ := by
  cases event with
  | dequeue =>
      rcases List.mem_map.mp member with ⟨message, first, rfl⟩
      exact ⟨message, List.mem_of_head? (Option.mem_toList.mp first), rfl⟩
  | _ => cases member

theorem departures_known (server : UdpServer) (events : List ServerEvent)
    (knows : server.Knows order known)
    (heard : server.registered = true → ∀ arrival ∈ arrivals (events.takeWhile isQuiet),
      known arrival.1) :
    ∀ departure ∈ collected (step order memcmp proxyTimeout rules) (departuresBy order) server
      events, known departure.destination := by
  have each : ∀ server event, Knows order known server → Hears known server event →
      ∀ departure ∈ departuresBy order server event, known departure.destination := by
    intro server event knows _ departure member
    rcases departures_dequeue member with ⟨message, waiting, rfl⟩
    exact knows.waiting message waiting
  exact admitted_collected _ (Hears known) (Knows order known) _
    (fun departure : Departure => known departure.destination)
    (fun server event knows hears => step_knows event knows hears) each server events knows
    (admits_hears server events heard)

/-- While the session stays as it is, so does what its messages leave on. -/
theorem departures_opened (server : UdpServer) (events : List ServerEvent) (listening : Bool)
    (settled : server.Settled) (registered : server.registered = listening)
    (same : ∀ event ∈ events, (listening && isQuiet event) = listening) :
    ∀ departure ∈ collected (step order memcmp proxyTimeout rules) (departuresBy order) server
      events, departure.opened = listening := by
  induction events generalizing server with
  | nil =>
      intro departure member
      cases member
  | cons event events induction =>
      intro departure member
      rcases List.mem_append.mp member with first | later
      · rcases departures_dequeue first with ⟨message, waiting, rfl⟩
        rcases settled with opened | silent
        · exact opened.trans registered
        · rw [silent.nothing] at waiting
          cases waiting
      · apply induction _ (step_settled event settled) _ _ departure later
        · rw [step_registered, registered]
          exact same event List.mem_cons_self
        · exact fun other inside => same other (List.mem_cons_of_mem _ inside)

/-- Where a reply goes and what it says. -/
def addressed (order : ByteOrder) (message : UdpMsg) : SockaddrIn × Bytes :=
  (Udp.destination order message.dst, message.payload)

def sentBy (order : ByteOrder) (server : UdpServer) (event : ServerEvent) :
    List (SockaddrIn × Bytes) :=
  (departuresBy order server event).map fun departure => (departure.destination, departure.payload)

theorem outbox_queued (server : UdpServer) (event : ServerEvent) :
    server.outbox.map (addressed order) ++ (queuedBy rules server event).map (addressed order) =
      sentBy order server event ++
        (step order memcmp proxyTimeout rules server event).outbox.map (addressed order) := by
  cases event with
  | readable result => exact List.append_nil _
  | error =>
      rw [step]
      split <;> exact List.append_nil _
  | dequeue =>
      refine (List.append_nil _).trans ?_
      rw [sentBy, departuresBy, step, List.map_map]
      cases server.outbox <;> rfl
  | inside event =>
      cases event with
      | datagram source payload => exact List.append_nil _
      | deliver | reply | tick | elapse =>
          simp only [queuedBy, step, sentBy, departuresBy, List.map_nil, List.nil_append]
          split
          · exact List.append_nil _
          · exact List.map_append.symm

theorem quiet_ends (events : List ServerEvent) :
    events.dropWhile isQuiet = [] ∨ ∃ tail, events.dropWhile isQuiet = .error :: tail := by
  cases rest : events.dropWhile isQuiet with
  | nil => exact .inl rfl
  | cons event tail =>
      have filled : events.dropWhile isQuiet ≠ [] := by
        rw [rest]
        exact List.cons_ne_nil event tail
      have loud := List.head_dropWhile_not isQuiet filled
      simp only [rest, List.head_cons] at loud
      cases event with
      | error => exact .inr ⟨tail, rfl⟩
      | _ => cases loud

/-- From the first error on everything is sent to a closed descriptor. -/
theorem departures_after_error (server : UdpServer) (events : List ServerEvent)
    (settled : server.Settled) :
    ∀ departure ∈ collected (step order memcmp proxyTimeout rules) (departuresBy order) server
      (events.dropWhile isQuiet), departure.opened = false := by
  intro departure member
  rcases quiet_ends events with none | ⟨tail, rest⟩
  · rw [none] at member
    cases member
  · rw [rest] at member
    apply departures_opened _ tail false (step_settled .error settled) _ _ departure member
    · rw [step_registered]
      exact Bool.and_false _
    · exact fun other _ => Bool.false_and _

end Runs

section Exchange

variable (order : ByteOrder) (memcmp : Memcmp) (proxyTimeout millis : Nat) (rules : QueueRules)
variable (boot : Boot)

/-- What `main` hears of a run: nothing without a bound socket. -/
def heard (events : List ServerEvent) : List (SockaddrIn × Bytes) :=
  if boot.socket && boot.bind then arrivals (events.takeWhile isQuiet) else []

theorem departures_heard (events : List ServerEvent) :
    ∀ departure ∈ collected (step order memcmp proxyTimeout rules) (departuresBy order)
      (connect boot millis) events, ∃ arrival ∈ heard boot events,
        departure.destination = arrival.1 := by
  have knows : Knows order (fun address => ∃ arrival ∈ heard boot events, address = arrival.1)
      (connect boot millis) :=
    ⟨fun entry member => absurd member List.not_mem_nil,
      fun message member => absurd member List.not_mem_nil⟩
  apply departures_known (connect boot millis) events knows
  intro registered arrival member
  have listening : (boot.socket && boot.bind) = true := registered
  refine ⟨arrival, ?_, rfl⟩
  rw [heard, if_pos listening]
  exact member

theorem departures_before_error (events : List ServerEvent) :
    ∀ departure ∈ collected (step order memcmp proxyTimeout rules) (departuresBy order)
      (connect boot millis) (events.takeWhile isQuiet), departure.opened = true := by
  intro departure member
  by_cases registered : (boot.socket && boot.bind) = true
  · apply departures_opened (connect boot millis) _ true (connect_settled boot millis) registered _
      departure member
    intro event inside
    rw [Bool.true_and]
    exact List.all_eq_true.mp List.all_takeWhile event inside
  · obtain ⟨arrival, inside, _⟩ :=
      departures_heard order memcmp proxyTimeout millis rules boot _ departure member
    rw [heard, if_neg registered] at inside
    cases inside

end Exchange

/-- Over every run the proxies get what came in before the first error, each datagram cut
to `MAXLINE`, and nothing afterwards; the replies that the queue took are sent in order, each
once, or still wait; nothing is ever sent to an address that was not heard from; replies sent
after the error go to a closed descriptor. -/
theorem udp_server_exchange (order : ByteOrder) (memcmp : Memcmp) (proxyTimeout millis : Nat)
    (rules : QueueRules) (boot : Boot) (events : List ServerEvent) :
    let next := step order memcmp proxyTimeout rules
    let start := connect boot millis
    let quiet := events.takeWhile isQuiet
    let heard := if boot.socket && boot.bind then arrivals quiet else []
    collected next (receivedBy order) start events = heard.map (received order) ∧
      (collected next (queuedBy rules) start events).map (addressed order) =
        (collected next (departuresBy order) start events).map
            (fun departure => (departure.destination, departure.payload)) ++
          (run next start events).outbox.map (addressed order) ∧
      (∀ departure ∈ collected next (departuresBy order) start events,
        ∃ arrival ∈ heard, departure.destination = arrival.1) ∧
      (∀ departure ∈ collected next (departuresBy order) start quiet, departure.opened = true) ∧
      ∀ departure ∈ collected next (departuresBy order) (run next start quiet)
        (events.dropWhile isQuiet), departure.opened = false := by
  intro next start quiet heard
  refine ⟨?_, ?_, departures_heard order memcmp proxyTimeout millis rules boot events,
    departures_before_error order memcmp proxyTimeout millis rules boot events, ?_⟩
  · rw [received_run]
    simp only [heard, start, connect]
    split_ifs <;> rfl
  · rw [collected_map, collected_map]
    exact collected_queue next _ (sentBy order) (fun server => server.outbox.map (addressed order))
      outbox_queued start events
  · apply departures_after_error
    exact run_invariant next Settled (fun _ event holds => step_settled event holds) start quiet
      (connect_settled boot millis)

end UdpServer

end Serial2Redis
