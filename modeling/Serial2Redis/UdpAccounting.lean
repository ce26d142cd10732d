import Serial2Redis.Udp2Redis
import Mathlib.Data.List.Nodup
import Mathlib.Data.List.Flatten
import Mathlib.Data.List.Perm.Basic

/-!
# What becomes of the datagrams

Every datagram that the receive handler takes is waiting, has been delivered, was refused
by the queue of its proxy, or was in the queue of a proxy that a tick removed; while the
map tells the clients apart, the datagrams of each of them are delivered in the order they
came. When a queue refuses a datagram is left to limero.
-/

namespace Serial2Redis

open GuardedRun

namespace UdpBridge

variable {memcmp : Memcmp} {proxyTimeout : Nat} {full : List QueuedDatagram → Bool}

/-- `step` where the `_toRedis` queue of a proxy takes no more datagrams once it is full;
a proxy is created and connected for the source all the same. -/
def boundedStep (memcmp : Memcmp) (proxyTimeout : Nat) (full : List QueuedDatagram → Bool)
    (bridge : UdpBridge) : UdpEvent → UdpBridge
  | .datagram source payload =>
      if full (bridge.receiver memcmp source).2.toRedis then
        { bridge with
          clients := bridge.admitted memcmp source
          lastHandled := Function.update bridge.lastHandled source (some bridge.millis) }
      else bridge.step memcmp proxyTimeout (.datagram source payload)
  | event => bridge.step memcmp proxyTimeout event

def handledBy (bridge : UdpBridge) : UdpEvent → List QueuedDatagram
  | .datagram source payload => [⟨source, bridge.millis, payload⟩]
  | _ => []

def deliveredBy (bridge : UdpBridge) : UdpEvent → List QueuedDatagram
  | .deliver client =>
      (bridge.clients.filter fun entry => entry.1 = client).flatMap fun entry =>
        entry.2.toRedis.take 1
  | _ => []

def refusedBy (memcmp : Memcmp) (full : List QueuedDatagram → Bool) (bridge : UdpBridge) :
    UdpEvent → List QueuedDatagram
  | .datagram source payload =>
      if full (bridge.receiver memcmp source).2.toRedis then [⟨source, bridge.millis, payload⟩]
      else []
  | _ => []

/-- The queues that go with the proxies a tick removes. -/
def reapedBy (proxyTimeout : Nat) (bridge : UdpBridge) : UdpEvent → List QueuedDatagram
  | .tick =>
      (bridge.clients.filter fun entry => entry.2.inactivity bridge.millis > proxyTimeout).flatMap
        fun entry => entry.2.toRedis
  | _ => []

def waiting (clients : Clients) : List QueuedDatagram :=
  clients.flatMap fun entry => entry.2.toRedis

end UdpBridge

open UdpBridge

namespace Clients

variable {clients : Clients}

theorem modify_absent (key : UdpAddress) (change : RedisProxy → RedisProxy)
    (absent : ∀ entry ∈ clients, entry.1 ≠ key) : clients.modify key change = clients := by
  have same := List.map_congr_left (f := fun entry : UdpAddress × RedisProxy =>
    if entry.1 = key then (entry.1, change entry.2) else entry) (g := id)
    fun entry member => if_neg (absent entry member)
  exact same.trans (List.map_id clients)

theorem filter_absent (key : UdpAddress) (absent : ∀ entry ∈ clients, entry.1 ≠ key) :
    (clients.filter fun entry => entry.1 = key) = [] := by
  rw [List.filter_eq_nil_iff]
  intro entry member
  simpa using absent entry member

/-- A key stands at one place, and nothing else is changed under it. -/
theorem modify_split (distinct : (clients.map Prod.fst).Nodup) (key : UdpAddress)
    (present : ∃ entry ∈ clients, entry.1 = key) :
    ∃ before entry after, clients = before ++ entry :: after ∧ entry.1 = key ∧
      (∀ other ∈ before ++ after, other.1 ≠ key) ∧
      (clients.filter fun entry => entry.1 = key) = [entry] ∧
      ∀ change, clients.modify key change = before ++ (entry.1, change entry.2) :: after := by
  rcases present with ⟨entry, member, sameKey⟩
  rcases List.append_of_mem member with ⟨before, after, split⟩
  have others : ∀ other ∈ before ++ after, other.1 ≠ key := by
    rw [split, List.map_append, List.map_cons, List.nodup_middle, List.nodup_cons,
      ← List.map_append] at distinct
    intro other inside same
    apply distinct.1
    rw [sameKey, ← same]
    exact List.mem_map_of_mem inside
  have earlier : ∀ other ∈ before, other.1 ≠ key :=
    fun other inside => others other (List.mem_append_left _ inside)
  have later : ∀ other ∈ after, other.1 ≠ key :=
    fun other inside => others other (List.mem_append_right _ inside)
  refine ⟨before, entry, after, split, sameKey, others, ?_, ?_⟩
  · rw [split, List.filter_append, List.filter_cons, if_pos (by simpa using sameKey),
      filter_absent key earlier, filter_absent key later, List.nil_append]
  · intro change
    have first := modify_absent key change earlier
    have rest := modify_absent key change later
    unfold modify at first rest ⊢
    rw [split, List.map_append, List.map_cons, first, rest, if_pos sameKey]

end Clients

namespace UdpBridge

variable {bridge : UdpBridge}

theorem WellKeyed.distinct (wellKeyed : bridge.WellKeyed memcmp) :
    (bridge.clients.map Prod.fst).Nodup := by
  have apart := wellKeyed.apart
  apply apart.imp
  intro left right separate same
  have equal : UdpAddress.equivalent memcmp left right = true :=
    (UdpAddress.equivalent_iff memcmp left right).mpr (.inl same)
  rw [separate] at equal
  cases equal

theorem receiver_admitted (memcmp : Memcmp) (bridge : UdpBridge) (source : UdpAddress) :
    ∃ entry ∈ bridge.admitted memcmp source, entry.1 = (bridge.receiver memcmp source).1 := by
  unfold admitted receiver
  cases found : bridge.clients.find memcmp source with
  | some entry => exact ⟨entry, (Clients.find_some found).1, rfl⟩
  | none => exact ⟨(source, RedisProxy.create source), List.mem_cons_self, rfl⟩

theorem waiting_admitted (memcmp : Memcmp) (bridge : UdpBridge) (source : UdpAddress) :
    waiting (bridge.admitted memcmp source) = waiting bridge.clients := by
  unfold admitted
  cases bridge.clients.find memcmp source <;> rfl

theorem waiting_append (left right : Clients) :
    waiting (left ++ right) = waiting left ++ waiting right := List.flatMap_append

theorem waiting_cons (entry : UdpAddress × RedisProxy) (rest : Clients) :
    waiting (entry :: rest) = entry.2.toRedis ++ waiting rest := rfl

theorem deliver_queue (now : Nat) (proxy : RedisProxy) :
    proxy.toRedis.take 1 ++ (proxy.deliver now).toRedis = proxy.toRedis := by
  unfold RedisProxy.deliver
  cases queue : proxy.toRedis with
  | nil => rw [queue, List.take_nil, List.nil_append]
  | cons first rest => rfl

theorem waiting_enqueue {clients : Clients} (distinct : (clients.map Prod.fst).Nodup)
    (key : UdpAddress) (present : ∃ entry ∈ clients, entry.1 = key) (datagram : QueuedDatagram) :
    (waiting clients ++ [datagram]).Perm
      (waiting (clients.modify key (RedisProxy.enqueue · datagram))) := by
  obtain ⟨before, entry, after, split, _, _, _, changed⟩ :=
    Clients.modify_split distinct key present
  rw [changed, split, waiting_append, waiting_append, waiting_cons, waiting_cons,
    List.append_assoc, List.append_assoc]
  apply List.Perm.append_left
  change List.Perm _ ((entry.2.toRedis ++ [datagram]) ++ waiting after)
  rw [List.append_assoc]
  exact List.perm_append_comm.append_left _

theorem waiting_deliver (wellKeyed : bridge.WellKeyed memcmp) (client : UdpAddress) :
    (waiting bridge.clients).Perm (bridge.deliveredBy (.deliver client) ++
      waiting (bridge.clients.modify client (RedisProxy.deliver bridge.millis))) := by
  by_cases present : ∃ entry ∈ bridge.clients, entry.1 = client
  · obtain ⟨before, entry, after, split, _, _, only, changed⟩ :=
      Clients.modify_split wellKeyed.distinct client present
    have moved := deliver_queue bridge.millis entry.2
    rw [deliveredBy, only, changed, split, waiting_append, waiting_append, waiting_cons,
      waiting_cons, ← moved, List.flatMap_cons, List.flatMap_nil, List.append_nil,
      List.append_assoc]
    exact List.perm_append_comm_assoc _ _ _
  · have absent : ∀ entry ∈ bridge.clients, entry.1 ≠ client :=
      fun entry member same => present ⟨entry, member, same⟩
    rw [deliveredBy, Clients.filter_absent client absent, Clients.modify_absent client _ absent]
    exact List.Perm.refl _

theorem waiting_cleanup (proxyTimeout : Nat) (bridge : UdpBridge) :
    (waiting bridge.clients).Perm (reapedBy proxyTimeout bridge .tick ++
      waiting (bridge.clients.cleanup proxyTimeout bridge.millis)) := by
  have parts := List.filter_append_perm
    (fun entry : UdpAddress × RedisProxy => entry.2.inactivity bridge.millis > proxyTimeout)
    bridge.clients
  have moved := (parts.flatMap_right fun entry => entry.2.toRedis).symm
  rw [List.flatMap_append] at moved
  simpa only [reapedBy, waiting, Clients.cleanup, decide_not] using moved

/-- Where the datagrams go that an event takes out of the bridge. -/
def settledBy (memcmp : Memcmp) (proxyTimeout : Nat) (full : List QueuedDatagram → Bool)
    (bridge : UdpBridge) (event : UdpEvent) : List QueuedDatagram :=
  bridge.deliveredBy event ++
    (reapedBy proxyTimeout bridge event ++ refusedBy memcmp full bridge event)

/-- An event does what `step` says, or it is a datagram that its queue refuses. -/
theorem bounded_step_cases (memcmp : Memcmp) (proxyTimeout : Nat)
    (full : List QueuedDatagram → Bool) (bridge : UdpBridge) (event : UdpEvent) :
    (boundedStep memcmp proxyTimeout full bridge event = bridge.step memcmp proxyTimeout event ∧
      refusedBy memcmp full bridge event = []) ∨
    ∃ source payload, event = .datagram source payload ∧
      (boundedStep memcmp proxyTimeout full bridge event).clients =
        bridge.admitted memcmp source ∧
      refusedBy memcmp full bridge event = [⟨source, bridge.millis, payload⟩] := by
  cases event with
  | datagram source payload =>
      by_cases refused : full (bridge.receiver memcmp source).2.toRedis = true
      · have stepped := congrArg UdpBridge.clients
          (if_pos refused : boundedStep memcmp proxyTimeout full bridge
            (.datagram source payload) = _)
        exact .inr ⟨source, payload, rfl, stepped, if_pos refused⟩
      · exact .inl ⟨if_neg refused, if_neg refused⟩
  | _ => exact .inl ⟨rfl, rfl⟩

theorem bounded_step_well_keyed (event : UdpEvent) (wellKeyed : bridge.WellKeyed memcmp) :
    (boundedStep memcmp proxyTimeout full bridge event).WellKeyed memcmp := by
  rcases bounded_step_cases memcmp proxyTimeout full bridge event with
    ⟨stepped, _⟩ | ⟨source, payload, _, clients, _⟩
  · rw [stepped]
    exact step_well_keyed event wellKeyed
  · have admitted := wellKeyed.admitted source
    constructor <;> rw [clients]
    · exact admitted.keyed
    · exact admitted.apart

theorem step_balanced (event : UdpEvent) (wellKeyed : bridge.WellKeyed memcmp) :
    (waiting bridge.clients ++ bridge.handledBy event).Perm
      (bridge.deliveredBy event ++ reapedBy proxyTimeout bridge event ++
        waiting (bridge.step memcmp proxyTimeout event).clients) := by
  cases event with
  | datagram source payload =>
      have moved := waiting_enqueue (wellKeyed.admitted source).distinct _
        (receiver_admitted memcmp bridge source) ⟨source, bridge.millis, payload⟩
      rw [waiting_admitted] at moved
      exact moved
  | deliver client =>
      have moved := waiting_deliver wellKeyed client
      change List.Perm (_ ++ []) ((_ ++ []) ++ _)
      rwa [List.append_nil, List.append_nil]
  | reply client payload => exact List.Perm.of_eq (List.append_nil _)
  | tick =>
      have moved := waiting_cleanup proxyTimeout bridge
      change List.Perm (_ ++ []) _
      rwa [List.append_nil]
  | elapse milliseconds => exact List.Perm.of_eq (List.append_nil _)

/-- One event only moves datagrams. -/
theorem bounded_step_balanced (event : UdpEvent) (wellKeyed : bridge.WellKeyed memcmp) :
    (waiting bridge.clients ++ bridge.handledBy event).Perm
      (settledBy memcmp proxyTimeout full bridge event ++
        waiting (boundedStep memcmp proxyTimeout full bridge event).clients) := by
  rcases bounded_step_cases memcmp proxyTimeout full bridge event with
    ⟨stepped, lost⟩ | ⟨source, payload, rfl, clients, lost⟩
  · rw [settledBy, lost, stepped, List.append_nil]
    exact step_balanced event wellKeyed
  · rw [settledBy, lost, clients, waiting_admitted]
    exact List.perm_append_comm

/-- Only datagrams of the client itself wait for its proxy. -/
def OwnQueues (clients : Clients) : Prop :=
  ∀ entry ∈ clients, ∀ datagram ∈ entry.2.toRedis, datagram.source = entry.1

def fromSource (source : UdpAddress) (datagrams : List QueuedDatagram) : List QueuedDatagram :=
  datagrams.filter fun datagram => datagram.source = source

theorem from_source_append (source : UdpAddress) (left right : List QueuedDatagram) :
    fromSource source (left ++ right) = fromSource source left ++ fromSource source right :=
  List.filter_append left right

theorem from_other_source {source : UdpAddress} {datagrams : List QueuedDatagram}
    (other : ∀ datagram ∈ datagrams, datagram.source ≠ source) :
    fromSource source datagrams = [] := by
  unfold fromSource
  rw [List.filter_eq_nil_iff]
  intro datagram member
  simpa using other datagram member

theorem from_other_clients {source : UdpAddress} {clients : Clients} (own : OwnQueues clients)
    (other : ∀ entry ∈ clients, entry.1 ≠ source) : fromSource source (waiting clients) = [] := by
  apply from_other_source
  intro datagram member same
  rcases List.mem_flatMap.mp member with ⟨entry, inside, queued⟩
  exact other entry inside ((own entry inside datagram queued).symm.trans same)

theorem admitted_own (own : OwnQueues bridge.clients) (source : UdpAddress) :
    OwnQueues (bridge.admitted memcmp source) := by
  intro entry member datagram queued
  rcases mem_admitted member with older | ⟨rfl, _⟩
  · exact own entry older datagram queued
  · cases queued

theorem bounded_step_own (event : UdpEvent) (own : OwnQueues bridge.clients)
    (separated : SourceSeparated memcmp bridge event) :
    OwnQueues (boundedStep memcmp proxyTimeout full bridge event).clients := by
  rcases bounded_step_cases memcmp proxyTimeout full bridge event with
    ⟨stepped, _⟩ | ⟨source, payload, _, clients, _⟩
  · rw [stepped]
    cases event with
    | datagram source payload =>
        rw [step_datagram_clients, receiver_separated source separated]
        intro entry member datagram queued
        rcases Clients.mem_modify member with ⟨old, inside, sameKey, ⟨key, changed⟩ | ⟨_, kept⟩⟩
        · rw [changed] at queued
          rcases List.mem_append.mp queued with earlier | last
          · rw [sameKey]
            exact admitted_own own source old inside datagram earlier
          · rw [List.mem_singleton.mp last]
            exact (sameKey.trans key).symm
        · rw [kept] at queued
          rw [sameKey]
          exact admitted_own own source old inside datagram queued
    | deliver client =>
        rw [step_deliver_clients]
        intro entry member datagram queued
        rcases Clients.mem_modify member with ⟨old, inside, sameKey, ⟨_, changed⟩ | ⟨_, kept⟩⟩
        · rw [changed] at queued
          rw [sameKey]
          apply own old inside
          rw [← deliver_queue bridge.millis old.2]
          exact List.mem_append_right _ queued
        · rw [kept] at queued
          rw [sameKey]
          exact own old inside datagram queued
    | tick =>
        intro entry member
        exact own entry ((Clients.mem_cleanup_iff _ _ _ _).mp member).1
    | _ => exact own
  · rw [clients]
    exact admitted_own own source

/-- The datagram that the handler enqueues comes last among those of its source. -/
theorem source_enqueue {clients : Clients} (distinct : (clients.map Prod.fst).Nodup)
    (own : OwnQueues clients) (client : UdpAddress) (datagram : QueuedDatagram)
    (present : ∃ entry ∈ clients, entry.1 = datagram.source) :
    fromSource client (waiting (clients.modify datagram.source (RedisProxy.enqueue · datagram))) =
      fromSource client (waiting clients) ++ fromSource client [datagram] := by
  obtain ⟨before, entry, after, split, sameKey, others, _, changed⟩ :=
    Clients.modify_split distinct _ present
  have nothing : fromSource client (waiting after) = [] ∨ fromSource client [datagram] = [] := by
    by_cases same : datagram.source = client
    · left
      apply from_other_clients
      · intro other inside
        apply own other
        rw [split]
        exact List.mem_append_right _ (List.mem_cons_of_mem _ inside)
      · intro other inside
        rw [← same]
        exact others other (List.mem_append_right _ inside)
    · right
      apply from_other_source
      intro single member
      rwa [List.mem_singleton.mp member]
  have queue : (RedisProxy.enqueue entry.2 datagram).toRedis = entry.2.toRedis ++ [datagram] := rfl
  rw [changed, split, waiting_append, waiting_append, waiting_cons, waiting_cons]
  simp only [queue, from_source_append, List.append_assoc]
  rcases nothing with rest | single
  · rw [rest, List.append_nil, List.nil_append]
  · rw [single, List.append_nil, List.nil_append]

/-- The datagram that a proxy delivers came first among those of its source. -/
theorem source_deliver (wellKeyed : bridge.WellKeyed memcmp) (own : OwnQueues bridge.clients)
    (source client : UdpAddress) :
    fromSource source (bridge.deliveredBy (.deliver client)) ++ fromSource source
      (waiting (bridge.clients.modify client (RedisProxy.deliver bridge.millis))) =
        fromSource source (waiting bridge.clients) := by
  by_cases present : ∃ entry ∈ bridge.clients, entry.1 = client
  · obtain ⟨before, entry, after, split, sameKey, others, only, changed⟩ :=
      Clients.modify_split wellKeyed.distinct client present
    have member : entry ∈ bridge.clients := by
      rw [split]
      exact List.mem_append_right _ List.mem_cons_self
    have nothing : fromSource source (waiting before) = [] ∨
        fromSource source (entry.2.toRedis.take 1) = [] := by
      by_cases same : client = source
      · left
        apply from_other_clients
        · intro other inside
          apply own other
          rw [split]
          exact List.mem_append_left _ inside
        · intro other inside
          rw [← same]
          exact others other (List.mem_append_left _ inside)
      · right
        apply from_other_source
        intro first taken
        rw [own entry member first (List.mem_of_mem_take taken), sameKey]
        exact same
    have moved := deliver_queue bridge.millis entry.2
    rw [deliveredBy, only, changed, split, waiting_append, waiting_append, waiting_cons,
      waiting_cons, ← moved, List.flatMap_cons, List.flatMap_nil, List.append_nil]
    simp only [from_source_append, List.append_assoc]
    rcases nothing with earlier | first
    · rw [earlier, List.nil_append, List.nil_append]
    · rw [first, List.nil_append, List.nil_append]
  · have absent : ∀ entry ∈ bridge.clients, entry.1 ≠ client :=
      fun entry member same => present ⟨entry, member, same⟩
    rw [deliveredBy, Clients.filter_absent client absent, Clients.modify_absent client _ absent]
    rfl

/-- One event takes the datagrams of a source from the front and adds them at the end. -/
theorem bounded_step_ordered (source : UdpAddress) (event : UdpEvent)
    (wellKeyed : bridge.WellKeyed memcmp) (own : OwnQueues bridge.clients)
    (separated : SourceSeparated memcmp bridge event) :
    (fromSource source (bridge.deliveredBy event) ++
      fromSource source
        (waiting (boundedStep memcmp proxyTimeout full bridge event).clients)).Sublist
        (fromSource source (waiting bridge.clients) ++
          fromSource source (bridge.handledBy event)) := by
  rcases bounded_step_cases memcmp proxyTimeout full bridge event with
    ⟨stepped, _⟩ | ⟨sender, payload, rfl, clients, _⟩
  · rw [stepped]
    cases event with
    | datagram sender payload =>
        have receiver := receiver_separated sender separated
        have present := receiver_admitted memcmp bridge sender
        rw [receiver] at present
        have last := source_enqueue (wellKeyed.admitted sender).distinct (admitted_own own sender)
          source ⟨sender, bridge.millis, payload⟩ present
        rw [waiting_admitted] at last
        rw [step_datagram_clients, receiver]
        change List.Sublist (fromSource source _) _
        rw [last]
        exact List.Sublist.refl _
    | deliver client =>
        have first := source_deliver wellKeyed own source client
        rw [step_deliver_clients, first]
        exact List.sublist_append_left _ _
    | reply client payload => exact List.sublist_append_left _ _
    | tick =>
        have fewer : (waiting (bridge.clients.cleanup proxyTimeout bridge.millis)).Sublist
            (waiting bridge.clients) := List.filter_sublist.flatMap _
        have kept := fewer.filter fun datagram => datagram.source = source
        exact kept.trans (List.sublist_append_left _ _)
    | elapse milliseconds => exact List.sublist_append_left _ _
  · rw [clients, waiting_admitted]
    exact List.sublist_append_left _ _

/-- In every run of receptions, deliveries, replies and ticks, whichever datagrams the queues
refuse: each datagram handled is in exactly one place, and a source that the map tells from
the others has its datagrams delivered in the order they came. -/
theorem udp_datagrams_conserved (memcmp : Memcmp) (proxyTimeout millis : Nat)
    (full : List QueuedDatagram → Bool) (events : List UdpEvent) :
    let step := boundedStep memcmp proxyTimeout full
    let record := fun output => collected step output (initial millis) events
    (record handledBy).Perm
        (record deliveredBy ++ (record (reapedBy proxyTimeout) ++
          record (refusedBy memcmp full)) ++ waiting (run step (initial millis) events).clients) ∧
      (Admits step (SourceSeparated memcmp) (initial millis) events →
        ∀ source, (fromSource source (record deliveredBy)).Sublist
          (fromSource source (record handledBy))) := by
  intro step record
  constructor
  · have balance := collected_balance step (UdpBridge.WellKeyed memcmp) handledBy
      (settledBy memcmp proxyTimeout full) (fun bridge => waiting bridge.clients)
      (fun bridge event wellKeyed => bounded_step_well_keyed event wellKeyed)
      (fun bridge event wellKeyed => bounded_step_balanced event wellKeyed)
      (initial millis) events (initial_well_keyed memcmp millis)
    have outer := collected_append_perm step deliveredBy
      (fun bridge event => reapedBy proxyTimeout bridge event ++ refusedBy memcmp full bridge event)
      (initial millis) events
    have inner := collected_append_perm step (reapedBy proxyTimeout) (refusedBy memcmp full)
      (initial millis) events
    exact balance.trans ((outer.trans (inner.append_left _)).append_right _)
  · intro separated source
    have ordered := collected_in_order step (SourceSeparated memcmp)
      (fun bridge => bridge.WellKeyed memcmp ∧ OwnQueues bridge.clients)
      (fun bridge event => fromSource source (bridge.handledBy event))
      (fun bridge event => fromSource source (bridge.deliveredBy event))
      (fun bridge => fromSource source (waiting bridge.clients))
      (fun bridge event holds apart =>
        ⟨bounded_step_well_keyed event holds.1, bounded_step_own event holds.2 apart⟩)
      (fun bridge event holds apart => bounded_step_ordered source event holds.1 holds.2 apart)
      (initial millis) events ⟨initial_well_keyed memcmp millis, fun entry member => nomatch member⟩
      separated
    have delivered := (List.sublist_append_left _ _).trans ordered
    unfold fromSource at delivered ⊢
    rw [collected_filter, collected_filter]
    exact delivered

theorem udp_datagrams_conserved_two :
    let datagram := fun host => UdpEvent.datagram (sampleAddress host) (text "[]")
    let step := boundedStep glibcMemcmp 5000 fun queue => queue.length ≥ 10
    let events := [datagram 1, datagram 2, .deliver (sampleAddress 1), datagram 1]
    (fromSource (sampleAddress 1) (collected step deliveredBy (initial 0) events)).Sublist
      (fromSource (sampleAddress 1) (collected step handledBy (initial 0) events)) := by
  intro datagram step events
  have apart : ∀ key ∈ [sampleAddress 2, sampleAddress 1],
      ∀ source ∈ [sampleAddress 2, sampleAddress 1],
        UdpAddress.Separates glibcMemcmp key source := by
    unfold UdpAddress.Separates
    decide
  have separated : Admits step (SourceSeparated glibcMemcmp) (initial 0) events := by
    refine ⟨fun entry member => absurd member List.not_mem_nil, ?_, trivial, ?_, trivial⟩
    · intro entry member
      have key : entry.1 ∈ [sampleAddress 1] := List.mem_map_of_mem (f := Prod.fst) member
      exact apart entry.1 (List.mem_cons_of_mem _ key) _ List.mem_cons_self
    · intro entry member
      have key : entry.1 ∈ [sampleAddress 2, sampleAddress 1] :=
        List.mem_map_of_mem (f := Prod.fst) member
      exact apart entry.1 key _ (List.mem_cons_of_mem _ List.mem_cons_self)
  exact (udp_datagrams_conserved glibcMemcmp 5000 0 (fun queue => queue.length ≥ 10) events).2
    separated (sampleAddress 1)

end UdpBridge

end Serial2Redis
