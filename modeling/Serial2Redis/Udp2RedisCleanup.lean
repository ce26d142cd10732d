import Serial2Redis.UdpAccounting

/-!
# The cleanup timer of udp2redis

When a tick removes a client. The stamp it looks at follows the receive handler
only as far as the queue of the proxy has been delivered, and not at all where the queue
refused a datagram.
-/

namespace Serial2Redis

open GuardedRun UdpBridge

/-- A tick removes a client only when its last datagram is older than the timeout. -/
def ReapsIdleOnly (proxyTimeout : Nat) (bridge : UdpBridge) : UdpEvent → Prop
  | .tick => ∀ entry ∈ bridge.clients,
      entry ∉ bridge.clients.cleanup proxyTimeout bridge.millis →
        ∀ handled, bridge.lastHandled entry.1 = some handled →
          proxyTimeout < bridge.millis - handled
  | _ => True

/-- The bridge with what its queues have refused so far. -/
structure BoundedBridge where
  bridge : UdpBridge
  refused : List QueuedDatagram

namespace BoundedBridge

def step (memcmp : Memcmp) (proxyTimeout : Nat) (full : List QueuedDatagram → Bool)
    (state : BoundedBridge) (event : UdpEvent) : BoundedBridge where
  bridge := boundedStep memcmp proxyTimeout full state.bridge event
  refused := state.refused ++ refusedBy memcmp full state.bridge event

def initial (millis : Nat) : BoundedBridge where
  bridge := UdpBridge.initial millis
  refused := []

end BoundedBridge

/-- At a tick no client with an expired stamp has a datagram of its own that arrived within
the timeout and is waiting, or was refused. -/
def QueuesDelivered (proxyTimeout : Nat) (state : BoundedBridge) : UdpEvent → Prop
  | .tick => ∀ entry ∈ state.bridge.clients,
      entry.2.inactivity state.bridge.millis > proxyTimeout →
        ∀ datagram ∈ entry.2.toRedis ++ state.refused, datagram.source = entry.1 →
          proxyTimeout < state.bridge.millis - datagram.arrival
  | _ => True

/-- How the stamps, the queues and the receive handler hang together in every run:
the last datagram handled from a client is on its stamp, still in its queue or refused. -/
structure UdpBridge.Tracked (refused : List QueuedDatagram) (bridge : UdpBridge) : Prop where
  past : ∀ source handled, bridge.lastHandled source = some handled → handled ≤ bridge.millis
  covered : ∀ entry ∈ bridge.clients, ∀ handled, bridge.lastHandled entry.1 = some handled →
    handled ≤ entry.2.lastMessage ∨
      ∃ datagram ∈ entry.2.toRedis ++ refused,
        datagram.source = entry.1 ∧ datagram.arrival = handled
  arrived : ∀ entry ∈ bridge.clients, ∀ waiting ∈ entry.2.toRedis, waiting.source = entry.1 →
    ∃ handled, bridge.lastHandled entry.1 = some handled ∧ waiting.arrival ≤ handled
  denied : ∀ datagram ∈ refused,
    ∃ handled, bridge.lastHandled datagram.source = some handled ∧ datagram.arrival ≤ handled

namespace UdpBridge

variable {memcmp : Memcmp} {proxyTimeout : Nat} {full : List QueuedDatagram → Bool}
  {bridge : UdpBridge} {refused : List QueuedDatagram}

theorem initial_tracked (millis : Nat) : (initial millis).Tracked [] := by
  constructor <;> simp [initial]

/-- What the receive handler does to an entry: the entry of the source itself gets
the datagram, and any other entry keeps its stamp and the datagrams it had. -/
theorem mem_step_datagram (wellKeyed : bridge.WellKeyed memcmp) {source : UdpAddress}
    {payload : Bytes} {entry : UdpAddress × RedisProxy}
    (member : entry ∈ (bridge.step memcmp proxyTimeout (.datagram source payload)).clients) :
    ∃ old ∈ bridge.admitted memcmp source, entry.1 = old.1 ∧
      entry.2.lastMessage = old.2.lastMessage ∧
      (entry.2.toRedis = old.2.toRedis ++ [⟨source, bridge.millis, payload⟩] ∨
        (entry.1 ≠ source ∧ entry.2.toRedis = old.2.toRedis)) := by
  rw [step_datagram_clients] at member
  obtain ⟨old, inside, sameKey, ⟨_, changed⟩ | ⟨other, kept⟩⟩ := Clients.mem_modify member
  · refine ⟨old, inside, sameKey, ?_, .inl ?_⟩ <;> rw [changed] <;> rfl
  · refine ⟨old, inside, sameKey, by rw [kept], .inr ⟨?_, by rw [kept]⟩⟩
    intro key
    have own := receiver_of_key wellKeyed source old inside (sameKey.symm.trans key)
    exact other ((sameKey.symm.trans key).trans own.symm)

theorem step_datagram_past (tracked : bridge.Tracked refused) (source : UdpAddress)
    (payload : Bytes)
    (address : UdpAddress) (handled : Nat)
    (last : (bridge.step memcmp proxyTimeout (.datagram source payload)).lastHandled address =
      some handled) :
    handled ≤ bridge.millis := by
  by_cases same : address = source
  · simp only [step, same, Function.update_self, Option.some.injEq] at last
    exact Nat.le_of_eq last.symm
  · simp only [step, Function.update_of_ne same] at last
    exact tracked.past address handled last

theorem step_datagram_covered (wellKeyed : bridge.WellKeyed memcmp)
    (tracked : bridge.Tracked refused)
    (source : UdpAddress) (payload : Bytes) (entry : UdpAddress × RedisProxy)
    (member : entry ∈ (bridge.step memcmp proxyTimeout (.datagram source payload)).clients)
    (handled : Nat)
    (last : (bridge.step memcmp proxyTimeout (.datagram source payload)).lastHandled entry.1 =
      some handled) :
    handled ≤ entry.2.lastMessage ∨
      ∃ datagram ∈ entry.2.toRedis ++ refused,
        datagram.source = entry.1 ∧ datagram.arrival = handled := by
  obtain ⟨old, inside, sameKey, sameStamp, queue⟩ := mem_step_datagram wellKeyed member
  by_cases same : entry.1 = source
  · simp only [step, same, Function.update_self, Option.some.injEq] at last
    rcases queue with longer | ⟨other, _⟩
    · right
      refine ⟨⟨source, bridge.millis, payload⟩, List.mem_append_left _ ?_, same.symm, last⟩
      rw [longer]
      exact List.mem_append_right _ (List.mem_singleton.mpr rfl)
    · exact absurd same other
  · simp only [step, Function.update_of_ne same] at last
    rcases mem_admitted inside with older | ⟨created, _⟩
    · rw [sameStamp]
      rw [sameKey] at last ⊢
      rcases tracked.covered old older handled last with stamped | ⟨datagram, known, own⟩
      · exact .inl stamped
      · right
        refine ⟨datagram, ?_, own⟩
        rcases List.mem_append.mp known with queued | lost
        · apply List.mem_append_left
          rcases queue with longer | ⟨_, unchanged⟩
          · rw [longer]
            exact List.mem_append_left _ queued
          · rwa [unchanged]
        · exact List.mem_append_right _ lost
    · rw [sameKey, created] at same
      exact absurd rfl same

theorem step_datagram_arrived (wellKeyed : bridge.WellKeyed memcmp)
    (tracked : bridge.Tracked refused)
    (source : UdpAddress) (payload : Bytes) (entry : UdpAddress × RedisProxy)
    (member : entry ∈ (bridge.step memcmp proxyTimeout (.datagram source payload)).clients)
    (waiting : QueuedDatagram) (queued : waiting ∈ entry.2.toRedis)
    (own : waiting.source = entry.1) :
    ∃ handled, (bridge.step memcmp proxyTimeout (.datagram source payload)).lastHandled entry.1 =
      some handled ∧ waiting.arrival ≤ handled := by
  obtain ⟨old, inside, sameKey, _, queue⟩ := mem_step_datagram wellKeyed member
  have origin : waiting ∈ old.2.toRedis ∨ waiting = ⟨source, bridge.millis, payload⟩ := by
    rcases queue with longer | ⟨_, unchanged⟩
    · rw [longer] at queued
      exact (List.mem_append.mp queued).imp_right List.mem_singleton.mp
    · rw [unchanged] at queued
      exact .inl queued
  have earlier : waiting ∈ old.2.toRedis →
      ∃ handled, bridge.lastHandled entry.1 = some handled ∧ waiting.arrival ≤ handled := by
    intro before
    rcases mem_admitted inside with older | ⟨created, _⟩
    · rw [sameKey] at own ⊢
      exact tracked.arrived old older waiting before own
    · rw [created] at before
      cases before
  by_cases same : entry.1 = source
  · refine ⟨bridge.millis, by simp [step, same], ?_⟩
    rcases origin with before | new
    · obtain ⟨handled, last, ordered⟩ := earlier before
      exact Nat.le_trans ordered (tracked.past _ handled last)
    · exact Nat.le_of_eq (congrArg QueuedDatagram.arrival new)
  · rcases origin with before | new
    · obtain ⟨handled, last, ordered⟩ := earlier before
      exact ⟨handled, by simpa [step, Function.update_of_ne same] using last, ordered⟩
    · rw [new] at own
      exact absurd own.symm same

/-- What was handled from a source only gets later. -/
theorem step_datagram_denied (tracked : bridge.Tracked refused) (source : UdpAddress)
    (datagram : QueuedDatagram) (lost : datagram ∈ refused) :
    ∃ handled, Function.update bridge.lastHandled source (some bridge.millis) datagram.source =
      some handled ∧ datagram.arrival ≤ handled := by
  obtain ⟨handled, last, ordered⟩ := tracked.denied datagram lost
  by_cases same : datagram.source = source
  · refine ⟨bridge.millis, ?_, Nat.le_trans ordered (tracked.past _ handled last)⟩
    rw [same, Function.update_self]
  · exact ⟨handled, (Function.update_of_ne same _ _).trans last, ordered⟩

theorem step_deliver_tracked (tracked : bridge.Tracked refused) (client : UdpAddress) :
    (bridge.step memcmp proxyTimeout (.deliver client)).Tracked refused := by
  refine ⟨tracked.past, ?_, ?_, tracked.denied⟩
  · intro entry member handled last
    rw [step_deliver_clients] at member
    obtain ⟨old, inside, sameKey, ⟨_, changed⟩ | ⟨_, kept⟩⟩ := Clients.mem_modify member
    · rw [changed, RedisProxy.deliver]
      cases queue : old.2.toRedis with
      | nil =>
          rw [sameKey] at last ⊢
          exact tracked.covered old inside handled last
      | cons first rest => exact .inl (tracked.past entry.1 handled last)
    · rw [kept]
      rw [sameKey] at last ⊢
      exact tracked.covered old inside handled last
  · intro entry member waiting queued own
    rw [step_deliver_clients] at member
    obtain ⟨old, inside, sameKey, changes⟩ := Clients.mem_modify member
    have before : waiting ∈ old.2.toRedis := by
      rcases changes with ⟨_, changed⟩ | ⟨_, kept⟩
      · rw [changed, RedisProxy.deliver] at queued
        cases queue : old.2.toRedis with
        | nil => rwa [queue, queue] at queued
        | cons first rest =>
            rw [queue] at queued
            exact List.mem_cons_of_mem first queued
      · rwa [kept] at queued
    rw [sameKey] at own ⊢
    exact tracked.arrived old inside waiting before own

theorem step_tracked (event : UdpEvent) (wellKeyed : bridge.WellKeyed memcmp)
    (tracked : bridge.Tracked refused) :
    (bridge.step memcmp proxyTimeout event).Tracked refused := by
  cases event with
  | datagram source payload =>
      exact ⟨step_datagram_past tracked source payload,
        step_datagram_covered wellKeyed tracked source payload,
        step_datagram_arrived wellKeyed tracked source payload,
        step_datagram_denied tracked source⟩
  | deliver client => exact step_deliver_tracked tracked client
  | reply client payload =>
      exact ⟨tracked.past, tracked.covered, tracked.arrived, tracked.denied⟩
  | tick =>
      have kept : ∀ entry ∈ bridge.clients.cleanup proxyTimeout bridge.millis,
          entry ∈ bridge.clients :=
        fun entry member => ((Clients.mem_cleanup_iff _ _ _ _).mp member).1
      exact ⟨tracked.past, fun entry member => tracked.covered entry (kept entry member),
        fun entry member => tracked.arrived entry (kept entry member), tracked.denied⟩
  | elapse milliseconds =>
      refine ⟨?_, tracked.covered, tracked.arrived, tracked.denied⟩
      intro source handled last
      exact Nat.le_trans (tracked.past source handled last) (Nat.le_add_right _ _)

/-- A datagram that is refused is handled all the same. -/
theorem refuse_tracked (tracked : bridge.Tracked refused) (source : UdpAddress) (payload : Bytes) :
    ({ bridge with
      clients := bridge.admitted memcmp source
      lastHandled := Function.update bridge.lastHandled source (some bridge.millis) }).Tracked
        (refused ++ [QueuedDatagram.mk source bridge.millis payload]) := by
  have new : QueuedDatagram.mk source bridge.millis payload ∈
      refused ++ [QueuedDatagram.mk source bridge.millis payload] :=
    List.mem_append_right _ (List.mem_singleton_self _)
  constructor
  · exact @step_datagram_past memcmp 0 bridge refused tracked source payload
  · intro entry member handled last
    by_cases same : entry.1 = source
    · refine .inr ⟨⟨source, bridge.millis, payload⟩, List.mem_append_right _ new, same.symm, ?_⟩
      simpa [same] using last
    · have earlier := (Function.update_of_ne same _ _).symm.trans last
      rcases mem_admitted member with older | ⟨rfl, _⟩
      · rcases tracked.covered entry older handled earlier with stamped | ⟨datagram, known, own⟩
        · exact .inl stamped
        · refine .inr ⟨datagram, ?_, own⟩
          rw [← List.append_assoc]
          exact List.mem_append_left _ known
      · exact absurd rfl same
  · intro entry member waiting queued own
    rcases mem_admitted member with older | ⟨rfl, _⟩
    · obtain ⟨handled, last, ordered⟩ := tracked.arrived entry older waiting queued own
      by_cases same : entry.1 = source
      · refine ⟨bridge.millis, ?_, Nat.le_trans ordered (tracked.past _ handled last)⟩
        simp only [same, Function.update_self]
      · exact ⟨handled, (Function.update_of_ne same _ _).trans last, ordered⟩
    · cases queued
  · intro datagram lost
    rcases List.mem_append.mp lost with earlier | last
    · exact step_datagram_denied tracked source datagram earlier
    · rw [List.mem_singleton.mp last]
      exact ⟨bridge.millis, Function.update_self _ _ _, Nat.le_refl _⟩

theorem bounded_step_tracked (event : UdpEvent) (wellKeyed : bridge.WellKeyed memcmp)
    (tracked : bridge.Tracked refused) :
    (boundedStep memcmp proxyTimeout full bridge event).Tracked
      (refused ++ refusedBy memcmp full bridge event) := by
  have accepted (stepped : boundedStep memcmp proxyTimeout full bridge event =
      bridge.step memcmp proxyTimeout event) (none : refusedBy memcmp full bridge event = []) :
      (boundedStep memcmp proxyTimeout full bridge event).Tracked
        (refused ++ refusedBy memcmp full bridge event) := by
    rw [stepped, none, List.append_nil]
    exact step_tracked event wellKeyed tracked
  cases event with
  | datagram source payload =>
      by_cases refuses : full (bridge.receiver memcmp source).2.toRedis = true
      · rw [boundedStep, refusedBy, if_pos refuses, if_pos refuses]
        exact refuse_tracked tracked source payload
      · exact accepted (if_neg refuses) (if_neg refuses)
  | _ => exact accepted rfl rfl

/-- One tick, seen from the stamps: a client it removes was handled long ago unless
a datagram of that client is still waiting or was refused. -/
theorem tick_reaps_idle_only (tracked : bridge.Tracked refused)
    (delivered : QueuesDelivered proxyTimeout ⟨bridge, refused⟩ .tick) :
    ReapsIdleOnly proxyTimeout bridge .tick := by
  intro entry member removed handled last
  have expired : entry.2.inactivity bridge.millis > proxyTimeout := by
    by_contra active
    exact removed ((Clients.mem_cleanup_iff _ _ _ _).mpr ⟨member, active⟩)
  rcases tracked.covered entry member handled last with stamped | ⟨datagram, known, own, arrival⟩
  · unfold RedisProxy.inactivity at expired
    omega
  · rw [← arrival]
    exact delivered entry member expired datagram known own

theorem queues_delivered_of_reaps_idle (tracked : bridge.Tracked refused)
    (reaps : ReapsIdleOnly proxyTimeout bridge .tick) :
    QueuesDelivered proxyTimeout ⟨bridge, refused⟩ .tick := by
  intro entry member expired datagram known own
  obtain ⟨handled, last, ordered⟩ :
      ∃ handled, bridge.lastHandled entry.1 = some handled ∧ datagram.arrival ≤ handled := by
    rcases List.mem_append.mp known with queued | lost
    · exact tracked.arrived entry member datagram queued own
    · rw [← own]
      exact tracked.denied datagram lost
  have removed : entry ∉ bridge.clients.cleanup proxyTimeout bridge.millis := by
    rw [Clients.mem_cleanup_iff]
    exact fun kept => kept.2 expired
  have idle := reaps entry member removed handled last
  change proxyTimeout < bridge.millis - datagram.arrival
  omega

theorem tick_reaps_iff (event : UdpEvent) (tracked : bridge.Tracked refused) :
    ReapsIdleOnly proxyTimeout bridge event ↔
      QueuesDelivered proxyTimeout ⟨bridge, refused⟩ event := by
  cases event with
  | tick =>
      exact ⟨queues_delivered_of_reaps_idle tracked, tick_reaps_idle_only tracked⟩
  | _ => exact Iff.rfl

end UdpBridge

/-- Whatever the queues refuse, the ticks of a run spare every live client exactly when no
tick meets a client with an expired stamp and a datagram of its own that arrived in time and
is waiting or was refused. -/
theorem udp_reaps_idle_only_iff (memcmp : Memcmp) (full : List QueuedDatagram → Bool)
    (proxyTimeout millis : Nat) (events : List UdpEvent) :
    Admits (boundedStep memcmp proxyTimeout full) (ReapsIdleOnly proxyTimeout) (initial millis)
        events ↔
      Admits (BoundedBridge.step memcmp proxyTimeout full) (QueuesDelivered proxyTimeout)
        (BoundedBridge.initial millis) events := by
  have followed := admits_simulated (BoundedBridge.step memcmp proxyTimeout full)
    (boundedStep memcmp proxyTimeout full) BoundedBridge.bridge (ReapsIdleOnly proxyTimeout)
    (fun _ _ => rfl) (BoundedBridge.initial millis) events
  rw [show initial millis = (BoundedBridge.initial millis).bridge from rfl, ← followed]
  exact admits_congr _ _ _
    (fun state : BoundedBridge =>
      state.bridge.WellKeyed memcmp ∧ state.bridge.Tracked state.refused)
    (fun state event holds => ⟨bounded_step_well_keyed event holds.1,
      bounded_step_tracked event holds.1 holds.2⟩)
    (fun state event holds => tick_reaps_iff event holds.2) _ events
    ⟨initial_well_keyed memcmp millis, initial_tracked millis⟩

/-- A tick between the first datagram of a client and its delivery removes the client. -/
theorem udp_tick_reaps_new_client :
    ¬Admits (boundedStep glibcMemcmp 5000 fun _ => false) (ReapsIdleOnly 5000) (initial 10000)
      [.datagram (sampleAddress 1) (text "[]"), .tick] := by
  intro reaps
  have idle := reaps.2.1 (sampleAddress 1, RedisProxy.enqueue (RedisProxy.create (sampleAddress 1))
    ⟨sampleAddress 1, 10000, text "[]"⟩) (List.mem_singleton.mpr rfl)
    (fun kept => ((Clients.mem_cleanup_iff _ _ _ _).mp kept).2 (by decide)) 10000 rfl
  exact absurd idle (by decide)

end Serial2Redis
