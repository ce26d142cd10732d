import Serial2Redis.Basic
import Serial2Redis.Library.GuardedRun

/-!
# ws2redis: one Redis connection per WebSocket

The `Handler` of `ws2redis.cpp` with the proxies it owns and the task queue of
seasocks. A Redis response is not sent at once: the callback queues a task that
captures the proxy pointer, and `onDisconnect` may delete the proxy in between.
-/

namespace Serial2Redis

open GuardedRun

/-- A connection object of seasocks, by its address. -/
abbrev WebSocket := Nat

/-- `id` tells two objects at one address apart. -/
structure WsProxy where
  id : Nat
  ws : WebSocket
  deriving DecidableEq

structure SendTask where
  proxy : WsProxy
  str : CppString

/-- `sockets` are the connections seasocks holds open, `heap` the proxies created
and not deleted; `requests` and `responses` keep what went into and came out of
each Redis connection so far. -/
structure WsServer where
  sockets : List WebSocket
  heap : List WsProxy
  cons : List (WebSocket × WsProxy)
  created : Nat
  tasks : List SendTask
  requests : List (WsProxy × Json)
  responses : List (WsProxy × CppString)

namespace WsServer

def initial : WsServer where
  sockets := []
  heap := []
  cons := []
  created := 0
  tasks := []
  requests := []
  responses := []

def find (server : WsServer) (con : WebSocket) : Option (WebSocket × WsProxy) :=
  server.cons.find? fun entry => entry.1 == con

/-- `emplace` leaves an entry that is already there alone. -/
def onConnect (server : WsServer) (con : WebSocket) : WsServer :=
  { server with
    heap := ⟨server.created, con⟩ :: server.heap
    created := server.created + 1
    cons := match server.find con with
      | some _ => server.cons
      | none => (con, ⟨server.created, con⟩) :: server.cons }

def onDisconnect (server : WsServer) (con : WebSocket) : WsServer :=
  match server.find con with
  | some entry =>
      { server with
        heap := server.heap.filter (· ≠ entry.2)
        cons := server.cons.filter fun other => other.1 ≠ con }
  | none => server

/-- What `onData` hands to the Redis connection: the error code of the parser is
not looked at. -/
def onData (lib : ArduinoJson) (server : WsServer) (con : WebSocket) (data : CppString) :
    List (WsProxy × Json) :=
  match server.find con with
  | some entry => [(entry.2, (lib.deserializeJson data).2)]
  | none => []

def onResponse (lib : ArduinoJson) (server : WsServer) (proxy : WsProxy) (json : Json) : WsServer :=
  { server with
    tasks := server.tasks ++ [⟨proxy, lib.serializeJson json⟩]
    responses := (proxy, lib.serializeJson json) :: server.responses }

end WsServer

inductive WsEvent where
  | connect (con : WebSocket)
  | disconnect (con : WebSocket)
  | data (con : WebSocket) (data : CppString)
  | response (proxy : WsProxy) (json : Json)
  | execute

namespace WsServer

/-- seasocks opens an address once before it closes it and reports data only on
open connections; a Redis connection lives as long as its proxy. -/
def step (lib : ArduinoJson) (server : WsServer) : WsEvent → WsServer
  | .connect con =>
      if con ∈ server.sockets then server
      else { server.onConnect con with sockets := con :: server.sockets }
  | .disconnect con =>
      if con ∈ server.sockets then
        { server.onDisconnect con with sockets := server.sockets.filter (· ≠ con) }
      else server
  | .data con data =>
      if con ∈ server.sockets then
        { server with requests := server.onData lib con data ++ server.requests }
      else server
  | .response proxy json =>
      if proxy ∈ server.heap then server.onResponse lib proxy json else server
  | .execute => { server with tasks := server.tasks.tail }

end WsServer

/-- The proxy still exists, its socket is still open and the text came from the
Redis connection of that socket. -/
structure SendTask.Fresh (task : SendTask) (server : WsServer) : Prop where
  live : task.proxy ∈ server.heap
  connected : task.proxy.ws ∈ server.sockets
  answered : (task.proxy, task.str) ∈ server.responses

def SendsFresh (server : WsServer) : WsEvent → Prop
  | .execute => ∀ task ∈ server.tasks.head?, task.Fresh server
  | _ => True

/-- No socket is closed while a send to it is still queued. -/
def DisconnectsIdle (server : WsServer) : WsEvent → Prop
  | .disconnect con => ∀ task ∈ server.tasks, task.proxy.ws ≠ con
  | _ => True

/-- The bookkeeping that every step keeps: each live proxy is the entry of its own
socket, sockets have one entry, and ids in use are old ids. -/
structure WsServer.Consistent (server : WsServer) : Prop where
  listed : ∀ proxy ∈ server.heap, (proxy.ws, proxy) ∈ server.cons
  keyed : ∀ entry ∈ server.cons, entry.2.ws = entry.1
  unique : ∀ left ∈ server.cons, ∀ right ∈ server.cons, left.1 = right.1 → left = right
  opened : ∀ entry ∈ server.cons, entry.1 ∈ server.sockets
  old_heap : ∀ proxy ∈ server.heap, proxy.id < server.created
  old_tasks : ∀ task ∈ server.tasks, task.proxy.id < server.created

namespace WsServer

variable {lib : ArduinoJson} {server : WsServer}

theorem initial_consistent : initial.Consistent := by
  constructor <;> simp [initial]

theorem Consistent.find_none (consistent : server.Consistent) {con : WebSocket}
    (closed : con ∉ server.sockets) : server.find con = none := by
  rw [find, List.find?_eq_none]
  intro entry member same
  have key : entry.1 = con := by simpa using same
  exact closed (key ▸ consistent.opened entry member)

theorem Consistent.connected (consistent : server.Consistent) {proxy : WsProxy}
    (live : proxy ∈ server.heap) : proxy.ws ∈ server.sockets :=
  consistent.opened _ (consistent.listed proxy live)

theorem step_connect (consistent : server.Consistent) {con : WebSocket}
    (closed : con ∉ server.sockets) :
    server.step lib (.connect con) =
      { server with
        sockets := con :: server.sockets
        heap := ⟨server.created, con⟩ :: server.heap
        created := server.created + 1
        cons := (con, ⟨server.created, con⟩) :: server.cons } := by
  simp only [step, if_neg closed, onConnect, consistent.find_none closed]

theorem owner_iff (consistent : server.Consistent) {con : WebSocket}
    {entry : WebSocket × WsProxy} (found : server.find con = some entry) {proxy : WsProxy}
    (live : proxy ∈ server.heap) : proxy = entry.2 ↔ proxy.ws = con := by
  have inside := List.mem_of_find?_eq_some found
  have key : entry.1 = con := by simpa using List.find?_some found
  constructor
  · rintro rfl
    exact (consistent.keyed entry inside).trans key
  · intro owner
    have merged := consistent.unique _ (consistent.listed proxy live) entry inside
      (owner.trans key.symm)
    exact congrArg Prod.snd merged

theorem find_none_iff (con : WebSocket) :
    server.find con = none ↔ ∀ entry ∈ server.cons, entry.1 ≠ con := by
  rw [find, List.find?_eq_none]
  simp

/-- Whatever the map says, a disconnect takes the socket, its entry and its proxy
away and nothing else. -/
theorem step_disconnect (consistent : server.Consistent) (con : WebSocket) :
    server.step lib (.disconnect con) =
      { server with
        sockets := server.sockets.filter (· ≠ con)
        heap := server.heap.filter (·.ws ≠ con)
        cons := server.cons.filter (·.1 ≠ con) } := by
  cases found : server.find con with
  | none =>
      have absent := (find_none_iff con).mp found
      have heap : server.heap.filter (·.ws ≠ con) = server.heap := by
        rw [List.filter_eq_self]
        intro proxy live
        simpa using absent _ (consistent.listed proxy live)
      have cons : server.cons.filter (·.1 ≠ con) = server.cons := by
        rw [List.filter_eq_self]
        intro entry member
        simpa using absent entry member
      rw [heap, cons]
      by_cases present : con ∈ server.sockets
      · simp only [step, if_pos present, onDisconnect, found]
      · have sockets : server.sockets.filter (· ≠ con) = server.sockets := by
          rw [List.filter_eq_self]
          intro other member
          have different : other ≠ con := fun same => present (same ▸ member)
          simpa using different
        simp only [step, if_neg present, sockets]
  | some entry =>
      have key : entry.1 = con := by simpa using List.find?_some found
      have present : con ∈ server.sockets :=
        key ▸ consistent.opened entry (List.mem_of_find?_eq_some found)
      have heap : server.heap.filter (· ≠ entry.2) = server.heap.filter (·.ws ≠ con) := by
        apply List.filter_congr
        intro proxy live
        simp only [ne_eq, owner_iff consistent found live]
      simp only [step, if_pos present, onDisconnect, found, heap]

theorem connect_consistent (consistent : server.Consistent) (con : WebSocket) :
    (server.step lib (.connect con)).Consistent := by
  by_cases present : con ∈ server.sockets
  · simpa only [step, if_pos present] using consistent
  · rw [step_connect consistent present]
    have absent := (find_none_iff con).mp (consistent.find_none present)
    constructor
    · intro proxy member
      rcases List.mem_cons.mp member with rfl | older
      · exact List.mem_cons_self
      · exact List.mem_cons_of_mem _ (consistent.listed proxy older)
    · intro entry member
      rcases List.mem_cons.mp member with rfl | older
      · rfl
      · exact consistent.keyed entry older
    · intro left leftMember right rightMember same
      rcases List.mem_cons.mp leftMember with rfl | leftOlder
      · rcases List.mem_cons.mp rightMember with rfl | rightOlder
        · rfl
        · exact absurd same.symm (absent right rightOlder)
      · rcases List.mem_cons.mp rightMember with rfl | rightOlder
        · exact absurd same (absent left leftOlder)
        · exact consistent.unique left leftOlder right rightOlder same
    · intro entry member
      rcases List.mem_cons.mp member with rfl | older
      · exact List.mem_cons_self
      · exact List.mem_cons_of_mem _ (consistent.opened entry older)
    · intro proxy member
      rcases List.mem_cons.mp member with rfl | older
      · exact Nat.lt_succ_self _
      · exact Nat.lt_succ_of_lt (consistent.old_heap proxy older)
    · intro task member
      exact Nat.lt_succ_of_lt (consistent.old_tasks task member)

theorem disconnect_consistent (consistent : server.Consistent) (con : WebSocket) :
    (server.step lib (.disconnect con)).Consistent := by
  rw [step_disconnect consistent con]
  constructor
  · intro proxy member
    obtain ⟨live, different⟩ := List.mem_filter.mp member
    exact List.mem_filter.mpr ⟨consistent.listed proxy live, different⟩
  · intro entry member
    exact consistent.keyed entry (List.mem_filter.mp member).1
  · intro left leftMember right rightMember
    exact consistent.unique left (List.mem_filter.mp leftMember).1 right
      (List.mem_filter.mp rightMember).1
  · intro entry member
    obtain ⟨inside, different⟩ := List.mem_filter.mp member
    exact List.mem_filter.mpr ⟨consistent.opened entry inside, different⟩
  · intro proxy member
    exact consistent.old_heap proxy (List.mem_filter.mp member).1
  · exact consistent.old_tasks

theorem step_consistent (event : WsEvent) (consistent : server.Consistent) :
    (server.step lib event).Consistent := by
  cases event with
  | connect con => exact connect_consistent consistent con
  | disconnect con => exact disconnect_consistent consistent con
  | data con data =>
      by_cases present : con ∈ server.sockets
      · simp only [step, if_pos present]
        exact ⟨consistent.listed, consistent.keyed, consistent.unique, consistent.opened,
          consistent.old_heap, consistent.old_tasks⟩
      · simpa only [step, if_neg present] using consistent
  | response proxy json =>
      by_cases live : proxy ∈ server.heap
      · simp only [step, if_pos live, onResponse]
        refine ⟨consistent.listed, consistent.keyed, consistent.unique, consistent.opened,
          consistent.old_heap, ?_⟩
        intro task member
        rcases List.mem_append.mp member with older | newest
        · exact consistent.old_tasks task older
        · rw [List.mem_singleton.mp newest]
          exact consistent.old_heap proxy live
      · simpa only [step, if_neg live] using consistent
  | execute =>
      exact ⟨consistent.listed, consistent.keyed, consistent.unique, consistent.opened,
        consistent.old_heap,
        fun task member => consistent.old_tasks task (List.mem_of_mem_tail member)⟩

theorem step_fresh (event : WsEvent) (consistent : server.Consistent)
    (fresh : ∀ task ∈ server.tasks, task.Fresh server) (idle : DisconnectsIdle server event) :
    ∀ task ∈ (server.step lib event).tasks, task.Fresh (server.step lib event) := by
  cases event with
  | connect con =>
      by_cases present : con ∈ server.sockets
      · simpa only [step, if_pos present] using fresh
      · rw [step_connect consistent present]
        intro task member
        have before := fresh task member
        exact ⟨List.mem_cons_of_mem _ before.live, List.mem_cons_of_mem _ before.connected,
          before.answered⟩
  | disconnect con =>
      rw [step_disconnect consistent con]
      intro task member
      have before := fresh task member
      have elsewhere := decide_eq_true (idle task member)
      exact ⟨List.mem_filter.mpr ⟨before.live, elsewhere⟩,
        List.mem_filter.mpr ⟨before.connected, elsewhere⟩, before.answered⟩
  | data con data =>
      by_cases present : con ∈ server.sockets
      · simp only [step, if_pos present]
        intro task member
        exact ⟨(fresh task member).live, (fresh task member).connected,
          (fresh task member).answered⟩
      · simpa only [step, if_neg present] using fresh
  | response proxy json =>
      by_cases live : proxy ∈ server.heap
      · simp only [step, if_pos live, onResponse]
        intro task member
        rcases List.mem_append.mp member with older | newest
        · have before := fresh task older
          exact ⟨before.live, before.connected, List.mem_cons_of_mem _ before.answered⟩
        · rw [List.mem_singleton.mp newest]
          exact ⟨live, consistent.connected live, List.mem_cons_self⟩
      · simpa only [step, if_neg live] using fresh
  | execute =>
      intro task member
      have before := fresh task (List.mem_of_mem_tail member)
      exact ⟨before.live, before.connected, before.answered⟩

def Stale (server : WsServer) : Prop :=
  ∃ task ∈ server.tasks, task.proxy ∉ server.heap ∧ task.proxy.id < server.created

theorem disconnect_stale (consistent : server.Consistent) (con : WebSocket) (task : SendTask)
    (queued : task ∈ server.tasks) (owner : task.proxy.ws = con) :
    (server.step lib (.disconnect con)).Stale := by
  rw [step_disconnect consistent con]
  refine ⟨task, queued, ?_, consistent.old_tasks task queued⟩
  intro live
  exact absurd owner (of_decide_eq_true (List.mem_filter.mp live).2)

theorem step_stale (event : WsEvent) (consistent : server.Consistent) (stale : server.Stale)
    (sends : SendsFresh server event) : (server.step lib event).Stale := by
  obtain ⟨task, queued, gone, old⟩ := stale
  cases event with
  | connect con =>
      by_cases present : con ∈ server.sockets
      · simp only [step, if_pos present]
        exact ⟨task, queued, gone, old⟩
      · rw [step_connect consistent present]
        refine ⟨task, queued, ?_, Nat.lt_succ_of_lt old⟩
        intro member
        rcases List.mem_cons.mp member with same | older
        · rw [same] at old
          exact Nat.lt_irrefl _ old
        · exact gone older
  | disconnect con =>
      rw [step_disconnect consistent con]
      exact ⟨task, queued, fun live => gone (List.mem_filter.mp live).1, old⟩
  | data con data =>
      simp only [step]
      split_ifs <;> exact ⟨task, queued, gone, old⟩
  | response proxy json =>
      simp only [step, onResponse]
      split_ifs
      · exact ⟨task, List.mem_append_left _ queued, gone, old⟩
      · exact ⟨task, queued, gone, old⟩
  | execute =>
      refine ⟨task, ?_, gone, old⟩
      cases tasks : server.tasks with
      | nil => simp [tasks] at queued
      | cons first rest =>
          have freshHead : first.Fresh server := sends first (by rw [tasks]; rfl)
          rw [tasks] at queued
          rcases List.mem_cons.mp queued with rfl | later
          · exact absurd freshHead.live gone
          · simpa only [step, tasks, List.tail_cons] using later

theorem admitted_stale (events : List WsEvent) (consistent : server.Consistent)
    (stale : server.Stale) (sends : Admits (step lib) SendsFresh server events) :
    (run (step lib) server events).Stale := by
  have both := admitted_run_invariant (step lib) SendsFresh
    (fun state => state.Consistent ∧ state.Stale)
    (fun state event holds fresh =>
      ⟨step_consistent event holds.1, step_stale event holds.1 holds.2 fresh⟩)
    server events ⟨consistent, stale⟩ sends
  exact both.2

theorem admits_idle_of_fresh (events : List WsEvent) (consistent : server.Consistent)
    (drained : (run (step lib) server events).tasks = [])
    (sends : Admits (step lib) SendsFresh server events) :
    Admits (step lib) DisconnectsIdle server events := by
  induction events generalizing server with
  | nil => trivial
  | cons event events induction =>
      have idle : DisconnectsIdle server event := by
        cases event with
        | disconnect con =>
            intro task queued owner
            obtain ⟨left, member, _⟩ := admitted_stale events (step_consistent _ consistent)
              (disconnect_stale consistent con task queued owner) sends.2
            rw [← run_cons, drained] at member
            exact List.not_mem_nil member
        | _ => trivial
      exact ⟨idle, induction (step_consistent event consistent) drained sends.2⟩

end WsServer

open WsServer

/-- If no socket is ever closed while a send to it is queued, every send that runs
goes to a live proxy and an open socket with a text of that socket's Redis
connection. In a run that leaves no task behind the converse holds too. -/
theorem ws_sends_fresh_iff_disconnects_idle (lib : ArduinoJson) (events : List WsEvent) :
    (Admits (step lib) DisconnectsIdle initial events →
      Admits (step lib) SendsFresh initial events) ∧
    ((run (step lib) initial events).tasks = [] →
      Admits (step lib) SendsFresh initial events →
        Admits (step lib) DisconnectsIdle initial events) := by
  have none_queued : ∀ task ∈ initial.tasks, task.Fresh initial := by simp [initial]
  constructor
  · intro idle
    apply admits_mono (step lib) DisconnectsIdle SendsFresh
      (fun state => state.Consistent ∧ ∀ task ∈ state.tasks, task.Fresh state)
    · intro state event holds condition
      exact ⟨step_consistent event holds.1, step_fresh event holds.1 holds.2 condition⟩
    · intro state event holds _
      cases event with
      | execute => exact fun task head => holds.2 task (List.mem_of_mem_head? head)
      | _ => trivial
    · exact ⟨initial_consistent, none_queued⟩
    · exact idle
  · intro drained sends
    exact admits_idle_of_fresh events initial_consistent drained sends

def wsSampleJson : ArduinoJson where
  deserializeJson _ := (.invalidInput, .null)
  serializeJson _ := text "[\"message\",\"t\",\"1\"]"

/-- A response is queued, the socket closes, the task runs: the proxy it captured
has been deleted. -/
theorem ws_send_after_disconnect :
    ¬Admits (step wsSampleJson) SendsFresh initial
      [.connect 1, .response ⟨0, 1⟩ (.array [.literal "message", .literal "t", .literal "1"]),
        .disconnect 1, .execute] := by
  intro sends
  have last := sends.2.2.2.1 ⟨⟨0, 1⟩, text "[\"message\",\"t\",\"1\"]"⟩ rfl
  have gone := last.live
  simp [step, onConnect, onResponse, onDisconnect, find, initial] at gone

end Serial2Redis
