import Serial2Redis.WsProxy

/-!
# What ws2redis keeps and hands on

A socket has one Redis connection for as long as it is open. What a socket says goes out
on that connection, and the responses are sent in the order they came, each once.
-/

namespace Serial2Redis

open GuardedRun

namespace WsServer

variable {lib : ArduinoJson} {server : WsServer}

/-- The sends that a Redis response queues. -/
def answeredBy (lib : ArduinoJson) (server : WsServer) : WsEvent → List SendTask
  | .response proxy json =>
      if proxy ∈ server.heap then [⟨proxy, lib.serializeJson json⟩] else []
  | _ => []

def executedBy (server : WsServer) : WsEvent → List SendTask
  | .execute => server.tasks.head?.toList
  | _ => []

/-- The sockets, the proxies and the entries of the map stand for each other one by one. -/
structure Paired (server : WsServer) : Prop where
  distinct : server.sockets.Nodup
  owned : server.heap.map WsProxy.ws = server.sockets
  entered : server.cons = server.heap.map fun proxy => (proxy.ws, proxy)

/-- What comes in on an open socket is requested once, on the one proxy of that socket. -/
def RoutesOwn (lib : ArduinoJson) (server : WsServer) : WsEvent → Prop
  | .data con data => con ∈ server.sockets →
      ∃ proxy ∈ server.heap, (∀ other ∈ server.heap, other.ws = con ↔ other = proxy) ∧
        server.onData lib con data = [(proxy, (lib.deserializeJson data).2)]
  | _ => True

theorem step_queued (server : WsServer) (event : WsEvent) :
    server.tasks ++ answeredBy lib server event =
      executedBy server event ++ (server.step lib event).tasks := by
  cases event with
  | connect con =>
      simp only [step, answeredBy, executedBy, onConnect, List.append_nil, List.nil_append]
      split_ifs <;> rfl
  | disconnect con =>
      simp only [step, answeredBy, executedBy, onDisconnect, List.append_nil, List.nil_append]
      split_ifs
      · cases server.find con <;> rfl
      · rfl
  | data con data =>
      simp only [step, answeredBy, executedBy, List.append_nil, List.nil_append]
      split_ifs <;> rfl
  | response proxy json =>
      simp only [step, answeredBy, executedBy, onResponse, List.nil_append]
      split_ifs
      · rfl
      · exact List.append_nil _
  | execute =>
      simp only [step, answeredBy, executedBy, List.append_nil]
      cases server.tasks <;> rfl

theorem step_paired (event : WsEvent) (consistent : server.Consistent) (paired : server.Paired) :
    (server.step lib event).Paired := by
  cases event with
  | connect con =>
      by_cases present : con ∈ server.sockets
      · simpa only [step, if_pos present] using paired
      · rw [step_connect consistent present]
        constructor
        · exact List.nodup_cons.mpr ⟨present, paired.distinct⟩
        · exact congrArg (con :: ·) paired.owned
        · exact congrArg (_ :: ·) paired.entered
  | disconnect con =>
      rw [step_disconnect consistent con]
      constructor
      · exact paired.distinct.filter _
      · rw [← paired.owned, List.filter_map]
        rfl
      · rw [paired.entered, List.filter_map]
        rfl
  | data con data =>
      simp only [step]
      split_ifs
      · exact ⟨paired.distinct, paired.owned, paired.entered⟩
      · exact paired
  | response proxy json =>
      simp only [step, onResponse]
      split_ifs
      · exact ⟨paired.distinct, paired.owned, paired.entered⟩
      · exact paired
  | execute => exact ⟨paired.distinct, paired.owned, paired.entered⟩

theorem routes_own (event : WsEvent) (consistent : server.Consistent) (paired : server.Paired) :
    RoutesOwn lib server event := by
  cases event with
  | data con data =>
      intro present
      cases found : server.find con with
      | none =>
          rw [← paired.owned] at present
          rcases List.mem_map.mp present with ⟨proxy, live, rfl⟩
          exact absurd rfl ((find_none_iff _).mp found _ (consistent.listed proxy live))
      | some entry =>
          have inside := List.mem_of_find?_eq_some found
          rw [paired.entered] at inside
          rcases List.mem_map.mp inside with ⟨proxy, live, rfl⟩
          refine ⟨proxy, live, fun other alive => (owner_iff consistent found alive).symm, ?_⟩
          rw [onData, found]
  | _ => trivial

/-- In every run: the sends that ran and those still queued are the responses, in order; a
socket is open exactly while it has a live proxy, and it never has two; whatever comes in
on an open socket is requested once, on its own proxy. -/
theorem ws_bridge_accounting (lib : ArduinoJson) (events : List WsEvent) :
    let final := run (step lib) initial events
    collected (step lib) (answeredBy lib) initial events =
        collected (step lib) executedBy initial events ++ final.tasks ∧
      final.sockets.Nodup ∧ final.heap.map WsProxy.ws = final.sockets ∧
      Admits (step lib) (RoutesOwn lib) initial events := by
  intro final
  have kept : ∀ (server : WsServer) event, server.Consistent ∧ server.Paired →
      (server.step lib event).Consistent ∧ (server.step lib event).Paired :=
    fun server event holds =>
      ⟨step_consistent event holds.1, step_paired event holds.1 holds.2⟩
  have start : initial.Consistent ∧ initial.Paired :=
    ⟨initial_consistent, List.nodup_nil, rfl, rfl⟩
  have paired := (run_invariant (step lib) _ kept initial events start).2
  refine ⟨?_, paired.distinct, paired.owned, ?_⟩
  · exact collected_queue (step lib) (answeredBy lib) executedBy WsServer.tasks step_queued
      initial events
  · exact admits_of_invariant (step lib) (RoutesOwn lib) _ kept
      (fun server event holds => routes_own event holds.1 holds.2) initial events start

end WsServer

end Serial2Redis
