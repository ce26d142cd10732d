import Mathlib.Logic.Function.Basic
import Serial2Redis.Basic
import Serial2Redis.Library.GuardedRun

/-!
# The UDP transport of espUdp

`UdpFrame.cpp`: a socket is made at every `true` that `online` emits and closed at every
`false`, whatever was there before, while a thread of its own waits for datagrams. The WiFi
station emits on each of its events. A socket that `bind` gave no port is given one of its own
by the first `sendto` through it, and takes what comes for that.
-/

namespace Serial2Redis

open GuardedRun

/-- The space that `recvfrom` is given in `_rxdBuffer`. -/
def rxdSpace : Nat := 127

/-- The socket layer is seen from the frame: `opened` are the sockets it has made and that
are still open, `receiving` the one among them that the port is bound to, `ephemeral` those
that have a port of their own and `mailbox` the datagrams that each of them keeps, `foreign`
what the frame closed that was not its own. `waiting` is the socket in the call of `recvfrom`
that the receiver's thread is in. -/
structure UdpFrame where
  socket : Int
  online : Bool
  opened : List Int
  receiving : Option Int
  ephemeral : List Int
  mailbox : Int → List Bytes
  waiting : Option Int
  foreign : List Int

/-- `answer` is what `socket` returns, if it is called; `named` is whether `sendto` comes as
far as giving a port to a socket that has none; `receive` is one step of the receiver's
thread, `datagram` one that comes for the port of a socket. -/
inductive UdpFrameEvent where
  | online (on : Bool) (answer : Int)
  | txdFrame (bs : Bytes) (named : Bool)
  | datagram (fd : Int) (bs : Bytes)
  | receive

namespace UdpFrame

/-- `udpFrame` is a global variable, so `_socket` is 0 at first. -/
def create : UdpFrame where
  socket := 0
  online := false
  opened := []
  receiving := none
  ephemeral := []
  mailbox _ := []
  waiting := none
  foreign := []

/-- `bind` fails while another socket has the port. -/
def createSocket (frame : UdpFrame) (answer : Int) : UdpFrame :=
  if answer < 0 then { frame with socket := answer }
  else
    { frame with
      socket := answer
      opened := answer :: frame.opened
      receiving := frame.receiving.or (some answer) }

/-- What a socket keeps is gone with it, and a call that waits on it returns. -/
def closeSocket (frame : UdpFrame) : UdpFrame :=
  if frame.socket = -1 then frame
  else if frame.socket ∈ frame.opened then
    { frame with
      opened := frame.opened.erase frame.socket
      receiving := if frame.receiving = some frame.socket then none else frame.receiving
      ephemeral := frame.ephemeral.filter (· ≠ frame.socket)
      mailbox := Function.update frame.mailbox frame.socket []
      waiting := if frame.waiting = some frame.socket then none else frame.waiting }
  else { frame with foreign := frame.socket :: frame.foreign }

def HasPort (frame : UdpFrame) (fd : Int) : Prop :=
  frame.receiving = some fd ∨ fd ∈ frame.ephemeral

instance (frame : UdpFrame) (fd : Int) : Decidable (frame.HasPort fd) :=
  inferInstanceAs (Decidable (_ ∨ _))

/-- `sendto`, as far as it changes the socket that it goes through. -/
def sendData (frame : UdpFrame) (named : Bool) : UdpFrame :=
  if frame.online ∧ named ∧ frame.socket ∈ frame.opened ∧ ¬frame.HasPort frame.socket then
    { frame with ephemeral := frame.socket :: frame.ephemeral }
  else frame

/-- `recvfrom` is called for as long as `online` holds, and fails at once without a socket. -/
def callRecvfrom (frame : UdpFrame) : UdpFrame :=
  { frame with
    waiting := if frame.online ∧ frame.socket ∈ frame.opened then some frame.socket else none }

/-- The timer of `start` calls `waitForData`, or the call in its loop returns. -/
def receive (frame : UdpFrame) : UdpFrame :=
  match frame.waiting with
  | none => frame.callRecvfrom
  | some fd =>
      match frame.mailbox fd with
      | [] => frame
      | _ :: rest =>
          { frame with mailbox := Function.update frame.mailbox fd rest }.callRecvfrom

def step (frame : UdpFrame) : UdpFrameEvent → UdpFrame
  | .online true answer => { frame with online := true }.createSocket answer
  | .online false _ => { frame with online := false }.closeSocket
  | .txdFrame _ named => frame.sendData named
  | .datagram fd bs =>
      if frame.HasPort fd then
        { frame with mailbox := Function.update frame.mailbox fd (frame.mailbox fd ++ [bs]) }
      else frame
  | .receive => frame.receive

/-- What `sendData` gives to `sendto`: nothing while the link is down. -/
def sent (frame : UdpFrame) : UdpFrameEvent → List (Int × Bytes)
  | .txdFrame bs _ => if frame.online then [(frame.socket, bs)] else []
  | _ => []

/-- The datagram of a socket that `recvfrom` returns. -/
def returned (fd : Int) (frame : UdpFrame) : UdpFrameEvent → List Bytes
  | .receive => if frame.waiting = some fd then (frame.mailbox fd).take 1 else []
  | _ => []

/-- What `waitForData` hands on. -/
def delivered (frame : UdpFrame) (event : UdpFrameEvent) : List Bytes :=
  match frame.waiting with
  | none => []
  | some fd => (frame.returned fd event).map (·.take rxdSpace)

/-- The datagrams that come for the port of a socket. -/
def arrived (fd : Int) (frame : UdpFrame) : UdpFrameEvent → List Bytes
  | .datagram dest bs => if dest = fd ∧ frame.HasPort fd then [bs] else []
  | _ => []

/-- The datagrams that a socket no longer keeps: they are returned, or gone with it. -/
def left (fd : Int) (frame : UdpFrame) : UdpFrameEvent → List Bytes
  | .online false _ =>
      if frame.socket ≠ -1 ∧ frame.socket ∈ frame.opened ∧ frame.socket = fd then frame.mailbox fd
      else []
  | event => frame.returned fd event

/-- What is sent while a socket is open is sent through it. -/
def SendsOwn (frame : UdpFrame) (event : UdpFrameEvent) : Prop :=
  ∀ call ∈ sent frame event, frame.opened = [] ∨ frame.opened = [call.1]

/-- There is no open socket, or the one that is open is known and has the port. -/
def Intact (frame : UdpFrame) : Prop :=
  (frame.foreign = [] ∧ frame.ephemeral = []) ∧
    (frame.opened = [] ∧ frame.receiving = none ∨
      frame.opened = [frame.socket] ∧ frame.receiving = some frame.socket ∧ 0 ≤ frame.socket)

/-- A `true` comes while no socket is open, a `false` while one is or after none could be
made. -/
def Alternates (frame : UdpFrame) : UdpFrameEvent → Prop
  | .online true _ => frame.opened = []
  | .online false _ => frame.opened ≠ [] ∨ frame.socket = -1
  | _ => True

/-- `socket` returns -1 or a descriptor that is not in use. -/
def Fresh (frame : UdpFrame) : UdpFrameEvent → Prop
  | .online true answer => answer = -1 ∨ 0 ≤ answer ∧ answer ∉ frame.opened
  | _ => True

/-- The port is bound to a socket that nobody knows any more. -/
structure Lost (lost : Int) (frame : UdpFrame) : Prop where
  held : lost ∈ frame.opened
  bound : frame.receiving = some lost
  unknown : frame.socket ≠ lost
  valid : 0 ≤ lost

/-- Only the socket that has the port keeps datagrams. -/
structure Alone (lost : Int) (frame : UdpFrame) : Prop where
  unnamed : frame.ephemeral = []
  empty : ∀ fd, fd ≠ lost → frame.mailbox fd = []

variable {frame : UdpFrame}

/-- The thread calls, waits on, or takes the first datagram and calls again. -/
theorem receive_cases (frame : UdpFrame) :
    (frame.waiting = none ∧ frame.receive = frame.callRecvfrom) ∨
    (∃ fd, frame.waiting = some fd ∧ frame.mailbox fd = [] ∧ frame.receive = frame) ∨
    ∃ fd first rest, frame.waiting = some fd ∧ frame.mailbox fd = first :: rest ∧
      frame.receive =
        { frame with mailbox := Function.update frame.mailbox fd rest }.callRecvfrom := by
  unfold receive
  cases waiting : frame.waiting with
  | none => exact .inl ⟨rfl, rfl⟩
  | some fd =>
      cases kept : frame.mailbox fd with
      | nil => exact .inr (.inl ⟨fd, rfl, kept, by simp only [kept]⟩)
      | cons first rest => exact .inr (.inr ⟨fd, first, rest, rfl, kept, by simp only [kept]⟩)

/-- Only `online` touches the sockets. -/
theorem sockets_kept (frame : UdpFrame) (event : UdpFrameEvent)
    (other : ∀ on answer, event ≠ .online on answer) :
    (frame.step event).socket = frame.socket ∧ (frame.step event).opened = frame.opened ∧
      (frame.step event).receiving = frame.receiving ∧
      (frame.step event).foreign = frame.foreign := by
  cases event with
  | online on answer => exact absurd rfl (other on answer)
  | txdFrame bs named =>
      rw [step, sendData]
      split <;> exact ⟨rfl, rfl, rfl, rfl⟩
  | datagram fd bs =>
      rw [step]
      split <;> exact ⟨rfl, rfl, rfl, rfl⟩
  | receive =>
      rw [step]
      obtain ⟨_, called⟩ | ⟨_, _, _, same⟩ | ⟨_, _, _, _, _, called⟩ := receive_cases frame
      · rw [called]
        exact ⟨rfl, rfl, rfl, rfl⟩
      · rw [same]
        exact ⟨rfl, rfl, rfl, rfl⟩
      · rw [called]
        exact ⟨rfl, rfl, rfl, rfl⟩

/-- Only `online` and the thread itself end the call of `recvfrom`. -/
theorem waiting_kept (event : UdpFrameEvent) (other : ∀ on answer, event ≠ .online on answer)
    (outside : event ≠ .receive) : (frame.step event).waiting = frame.waiting := by
  cases event with
  | online on answer => exact absurd rfl (other on answer)
  | txdFrame bs named =>
      rw [step, sendData]
      split <;> rfl
  | datagram fd bs =>
      rw [step]
      split <;> rfl
  | receive => exact absurd rfl outside

/-- Only `sendto` gives a port of its own to a socket, and only to one that has none. -/
theorem ephemeral_kept (frame : UdpFrame) (event : UdpFrameEvent)
    (other : ∀ on answer, event ≠ .online on answer)
    (named : ∀ bs, event = .txdFrame bs true → frame.socket ∈ frame.opened →
      frame.HasPort frame.socket) :
    (frame.step event).ephemeral = frame.ephemeral := by
  cases event with
  | online on answer => exact absurd rfl (other on answer)
  | txdFrame bs given =>
      rw [step, sendData, if_neg]
      rintro ⟨_, rfl, held, without⟩
      exact without (named bs rfl held)
  | datagram fd bs =>
      rw [step]
      split <;> rfl
  | receive =>
      rw [step]
      obtain ⟨_, called⟩ | ⟨_, _, _, same⟩ | ⟨_, _, _, _, _, called⟩ := receive_cases frame
      · rw [called]
        rfl
      · rw [same]
      · rw [called]
        rfl

theorem intact_kept (event : UdpFrameEvent) (other : ∀ on answer, event ≠ .online on answer)
    (intact : frame.Intact) : (frame.step event).Intact := by
  have ports : (frame.step event).ephemeral = frame.ephemeral := by
    apply ephemeral_kept frame event other
    intro _ _ held
    rcases intact with ⟨_, ⟨closed, _⟩ | ⟨_, bound, _⟩⟩
    · rw [closed] at held
      cases held
    · exact .inl bound
  rcases sockets_kept frame event other with ⟨socket, opened, receiving, foreign⟩
  rwa [Intact, socket, opened, receiving, foreign, ports]

theorem lost_kept {lost : Int} (event : UdpFrameEvent)
    (other : ∀ on answer, event ≠ .online on answer) (deaf : Lost lost frame) :
    Lost lost (frame.step event) := by
  rcases sockets_kept frame event other with ⟨socket, opened, receiving, _⟩
  exact ⟨opened ▸ deaf.held, receiving.trans deaf.bound, socket ▸ deaf.unknown, deaf.valid⟩

theorem create_intact : create.Intact := ⟨⟨rfl, rfl⟩, .inl ⟨rfl, rfl⟩⟩

theorem open_socket_intact (answer : Int) (intact : frame.Intact) :
    (frame.step (.online true answer)).Intact ↔ frame.opened = [] := by
  rcases and_or_left.mp intact with ⟨own, closed, unbound⟩ | ⟨own, opened, bound, valid⟩
  · apply iff_of_true _ closed
    simp only [step, createSocket]
    split_ifs with failed
    · exact ⟨own, .inl ⟨closed, unbound⟩⟩
    · exact ⟨own, .inr ⟨by rw [closed], by rw [unbound]; rfl, Int.not_lt.mp failed⟩⟩
  · apply iff_of_false
    · simp only [step, createSocket]
      split_ifs with failed
      · rintro ⟨_, ⟨none, _⟩ | ⟨one, _⟩⟩
        · rw [opened] at none
          cases none
        · rw [opened] at one
          injection one with same
          simp only at same
          omega
      · rintro ⟨_, ⟨none, _⟩ | ⟨one, _⟩⟩
        · cases none
        · rw [opened] at one
          cases one
    · rw [opened]
      exact List.cons_ne_nil _ _

theorem close_socket_intact (answer : Int) (intact : frame.Intact) :
    (frame.step (.online false answer)).Intact ↔ frame.opened ≠ [] ∨ frame.socket = -1 := by
  rcases and_or_left.mp intact with ⟨own, closed, unbound⟩ | ⟨own, opened, bound, valid⟩
  · rw [closed]
    by_cases failed : frame.socket = -1
    · apply iff_of_true _ (.inr failed)
      rw [step, closeSocket, if_pos failed]
      exact ⟨own, .inl ⟨closed, unbound⟩⟩
    · apply iff_of_false
      · have unknown : frame.socket ∉ frame.opened := by simp [closed]
        rw [step, closeSocket, if_neg failed, if_neg unknown]
        rintro ⟨⟨none, _⟩, _⟩
        cases none
      · rintro (filled | failure)
        · exact filled rfl
        · exact failed failure
  · have real : frame.socket ≠ -1 := by omega
    apply iff_of_true
    · simp only [step, closeSocket, if_neg real, opened, List.mem_singleton, if_true, bound,
        List.erase_cons_head, own.2, List.filter_nil]
      exact ⟨⟨own.1, rfl⟩, .inl ⟨rfl, rfl⟩⟩
    · left
      rw [opened]
      exact List.cons_ne_nil _ _

theorem step_intact_iff (event : UdpFrameEvent) (intact : frame.Intact) :
    (frame.step event).Intact ↔ Alternates frame event := by
  cases event with
  | online on answer =>
      cases on with
      | true => exact open_socket_intact answer intact
      | false => exact close_socket_intact answer intact
  | txdFrame | datagram | receive =>
      exact iff_of_true (intact_kept _ (fun _ _ => nofun) intact) trivial

theorem sends_own (event : UdpFrameEvent) (intact : frame.Intact) : SendsOwn frame event := by
  intro call member
  cases event with
  | txdFrame bs =>
      rw [sent] at member
      split at member
      · rw [List.mem_singleton.mp member]
        exact intact.2.imp And.left And.left
      · cases member
  | online | datagram | receive => cases member

/-- A socket made beside an open one: the port stays with the old one. -/
theorem renewal_lost (answer : Int) (intact : frame.Intact) (busy : frame.opened ≠ [])
    (fresh : Fresh frame (.online true answer)) :
    Lost frame.socket (frame.step (.online true answer)) := by
  rcases intact with ⟨_, ⟨closed, _⟩ | ⟨opened, bound, valid⟩⟩
  · exact absurd closed busy
  · have other : answer ≠ frame.socket := by
      rcases fresh with failed | ⟨_, unused⟩
      · omega
      · rw [opened, List.mem_singleton] at unused
        exact unused
    simp only [step, createSocket]
    split_ifs with failed
    · exact ⟨by rw [opened]; exact List.mem_cons_self, bound, other, valid⟩
    · refine ⟨?_, by rw [bound]; rfl, other, valid⟩
      rw [opened]
      exact List.mem_cons_of_mem _ List.mem_cons_self

theorem step_lost {lost : Int} (event : UdpFrameEvent) (deaf : Lost lost frame)
    (fresh : Fresh frame event) : Lost lost (frame.step event) := by
  cases event with
  | online on answer =>
      rcases deaf with ⟨held, bound, unknown, valid⟩
      cases on with
      | true =>
          have other : answer ≠ lost := by
            rintro rfl
            rcases fresh with failed | ⟨_, unused⟩
            · omega
            · exact unused held
          simp only [step, createSocket]
          split_ifs
          · exact ⟨held, bound, other, valid⟩
          · exact ⟨List.mem_cons_of_mem _ held, by rw [bound]; rfl, other, valid⟩
      | false =>
          have other : ¬frame.receiving = some frame.socket := by
            rw [bound, Option.some.injEq]
            exact Ne.symm unknown
          simp only [step, closeSocket, if_neg other]
          split_ifs
          · exact ⟨held, bound, unknown, valid⟩
          · exact ⟨(List.mem_erase_of_ne (Ne.symm unknown)).mpr held, bound, unknown, valid⟩
          · exact ⟨(List.mem_erase_of_ne (Ne.symm unknown)).mpr held, bound, unknown, valid⟩
          · exact ⟨held, bound, unknown, valid⟩
  | txdFrame | datagram | receive => exact lost_kept _ (fun _ _ => nofun) deaf

/-- What the thread can still take from a lost socket: the call it was in may return once
more. -/
def remaining (lost : Int) (frame : UdpFrame) : Nat := if frame.waiting = some lost then 1 else 0

theorem call_elsewhere {lost : Int} (unknown : frame.socket ≠ lost) :
    frame.callRecvfrom.remaining lost = 0 := by
  apply if_neg
  rw [callRecvfrom]
  split_ifs
  · exact fun waiting => unknown (Option.some.inj waiting)
  · exact nofun

theorem remaining_receive {lost : Int} (unknown : frame.socket ≠ lost) :
    (returned lost frame .receive).length + (frame.step .receive).remaining lost ≤
      frame.remaining lost := by
  rw [returned, step]
  obtain ⟨idle, called⟩ | ⟨fd, waiting, empty, same⟩ | ⟨fd, first, rest, waiting, kept, called⟩ :=
    receive_cases frame
  · rw [called, call_elsewhere unknown, if_neg (by simp [idle])]
    exact Nat.zero_le _
  · rw [same]
    split_ifs with own
    · rw [show fd = lost from Option.some.inj (waiting.symm.trans own)] at empty
      rw [empty]
      exact Nat.le_of_eq (Nat.zero_add _)
    · exact Nat.le_of_eq (Nat.zero_add _)
  · have after : ({ frame with mailbox := Function.update frame.mailbox fd rest }
        : UdpFrame).callRecvfrom.remaining lost = 0 := call_elsewhere unknown
    rw [called, after, remaining]
    split_ifs with own
    · exact (List.length_take_le _ _)
    · exact Nat.zero_le _

theorem remaining_lost {lost : Int} (event : UdpFrameEvent) (deaf : Lost lost frame) :
    (returned lost frame event).length + (frame.step event).remaining lost ≤
      frame.remaining lost := by
  cases event with
  | online on answer =>
      cases on with
      | true =>
          have same : (frame.step (.online true answer)).waiting = frame.waiting := by
            simp only [step, createSocket]
            split_ifs <;> rfl
          rw [remaining, remaining, same]
          exact Nat.le_of_eq (Nat.zero_add _)
      | false =>
          have fewer : (frame.step (.online false answer)).waiting = some lost →
              frame.waiting = some lost := by
            rw [step, closeSocket]
            split
            · exact id
            · split
              · intro waiting
                exact (ite_eq_iff.mp waiting).elim (fun none => nomatch none.2) And.right
              · exact id
          rw [remaining, remaining]
          split_ifs with later now
          · exact le_rfl
          · exact absurd (fewer later) now
          · exact Nat.zero_le _
          · exact le_rfl
  | txdFrame | datagram =>
      rw [remaining, remaining, waiting_kept]
      · exact Nat.le_of_eq (Nat.zero_add _)
      · exact fun _ _ => nofun
      · exact nofun
  | receive => exact remaining_receive deaf.unknown

/-- Where only the lost socket keeps datagrams, only its datagrams are handed on. -/
theorem delivered_alone {lost : Int} (event : UdpFrameEvent) (alone : Alone lost frame) :
    (delivered frame event).length = (returned lost frame event).length := by
  rw [delivered]
  cases waiting : frame.waiting with
  | none => cases event <;> simp [returned, waiting]
  | some fd =>
      by_cases own : fd = lost
      · simp [own]
      · have empty := alone.empty fd own
        cases event <;> simp [returned, waiting, own, empty]

theorem step_alone {lost : Int} (event : UdpFrameEvent) (unsent : ∀ bs, event ≠ .txdFrame bs true)
    (deaf : Lost lost frame) (alone : Alone lost frame) : Alone lost (frame.step event) := by
  cases event with
  | online on answer =>
      cases on with
      | true =>
          simp only [step, createSocket]
          split_ifs <;> exact ⟨alone.unnamed, alone.empty⟩
      | false =>
          simp only [step, closeSocket]
          split
          · exact ⟨alone.unnamed, alone.empty⟩
          · split
            · refine ⟨by simp [alone.unnamed], ?_⟩
              intro fd other
              by_cases own : fd = frame.socket
              · rw [own]
                exact Function.update_self _ _ _
              · exact (Function.update_of_ne own _ _).trans (alone.empty fd other)
            · exact ⟨alone.unnamed, alone.empty⟩
  | txdFrame bs named =>
      rw [step, sendData, if_neg]
      · exact alone
      · rintro ⟨_, rfl, _⟩
        exact unsent bs rfl
  | datagram dest bs =>
      rw [step]
      split
      · rename_i port
        have own : dest = lost := by
          rcases port with bound | named
          · exact Option.some.inj (bound.symm.trans deaf.bound)
          · rw [alone.unnamed] at named
            cases named
        refine ⟨alone.unnamed, fun fd other => ?_⟩
        exact (Function.update_of_ne (own ▸ other) _ _).trans (alone.empty fd other)
      · exact alone
  | receive =>
      rw [step]
      obtain ⟨_, called⟩ | ⟨_, _, _, same⟩ | ⟨fd, first, rest, waiting, kept, called⟩ :=
        receive_cases frame
      · rw [called]
        exact ⟨alone.unnamed, alone.empty⟩
      · rwa [same]
      · have own : fd = lost := by
          by_contra other
          rw [alone.empty fd other] at kept
          cases kept
        rw [called]
        refine ⟨alone.unnamed, fun socket other => ?_⟩
        exact (Function.update_of_ne (own ▸ other) _ _).trans (alone.empty socket other)

/-- What a socket keeps is a queue. -/
theorem mailbox_queued (fd : Int) (frame : UdpFrame) (event : UdpFrameEvent) :
    frame.mailbox fd ++ arrived fd frame event =
      left fd frame event ++ (frame.step event).mailbox fd := by
  cases event with
  | online on answer =>
      refine (List.append_nil _).trans ?_
      cases on with
      | true =>
          rw [step, createSocket]
          split <;> rfl
      | false =>
          simp only [step, closeSocket, left]
          by_cases none : frame.socket = -1
          · simp [none]
          · by_cases known : frame.socket ∈ frame.opened
            · by_cases own : frame.socket = fd
              · subst own
                simp [none, known]
              · simp [none, known, own, Function.update_of_ne (Ne.symm own)]
            · simp [none, known]
  | txdFrame bs named =>
      refine (List.append_nil _).trans ?_
      rw [step, sendData]
      split <;> rfl
  | datagram dest bs =>
      simp only [step, arrived, left, returned, List.nil_append]
      by_cases own : dest = fd
      · subst own
        split_ifs <;> simp_all
      · split_ifs <;> simp_all [Function.update_of_ne (Ne.symm own)]
  | receive =>
      refine (List.append_nil _).trans ?_
      simp only [left, returned, step]
      obtain ⟨idle, called⟩ | ⟨waiter, waiting, empty, same⟩ |
        ⟨waiter, first, rest, waiting, kept, called⟩ := receive_cases frame
      · rw [called, if_neg (by simp [idle])]
        rfl
      · rw [same]
        split_ifs with own
        · rw [show fd = waiter from Option.some.inj (own.symm.trans waiting), empty]
          rfl
        · rfl
      · rw [called]
        by_cases own : waiter = fd
        · subst own
          rw [if_pos waiting, kept]
          exact congrArg (first :: ·) (Function.update_self waiter rest frame.mailbox).symm
        · rw [if_neg (by simp [waiting, own])]
          exact (Function.update_of_ne (Ne.symm own) rest frame.mailbox).symm

/-- Only a socket that has a port keeps datagrams. -/
def KeepsPorts (frame : UdpFrame) : Prop := ∀ fd, frame.mailbox fd ≠ [] → frame.HasPort fd

theorem step_keeps_ports (event : UdpFrameEvent) (keeps : frame.KeepsPorts) :
    (frame.step event).KeepsPorts := by
  cases event with
  | online on answer =>
      cases on with
      | true =>
          rw [step, createSocket]
          split
          · exact keeps
          · intro fd filled
            apply (keeps fd filled).imp_left
            intro bound
            exact (congrArg (Option.or · (some answer)) bound).trans rfl
      | false =>
          rw [step, closeSocket]
          split
          · exact keeps
          · split
            · intro fd filled
              have other : fd ≠ frame.socket := by
                rintro rfl
                exact filled (Function.update_self _ _ _)
              have before : frame.mailbox fd ≠ [] := fun empty =>
                filled ((Function.update_of_ne other _ _).trans empty)
              rcases keeps fd before with bound | named
              · refine .inl ?_
                have elsewhere : ¬frame.receiving = some frame.socket := by
                  rw [bound, Option.some.injEq]
                  exact other
                exact (if_neg elsewhere).trans bound
              · exact .inr (List.mem_filter.mpr ⟨named, by simpa using other⟩)
            · exact keeps
  | txdFrame bs named =>
      rw [step, sendData]
      split
      · exact fun fd filled => (keeps fd filled).imp_right (List.mem_cons_of_mem _)
      · exact keeps
  | datagram dest bs =>
      rw [step]
      split
      · rename_i port
        intro fd filled
        by_cases own : fd = dest
        · rw [own]
          exact port
        · exact keeps fd fun empty => filled ((Function.update_of_ne own _ _).trans empty)
      · exact keeps
  | receive =>
      rw [step]
      obtain ⟨_, called⟩ | ⟨_, _, _, same⟩ | ⟨waiter, first, rest, _, kept, called⟩ :=
        receive_cases frame
      · rw [called]
        exact keeps
      · rwa [same]
      · rw [called]
        intro fd filled
        by_cases own : fd = waiter
        · rw [own]
          exact keeps waiter (by rw [kept]; exact List.cons_ne_nil _ _)
        · exact keeps fd fun empty => filled ((Function.update_of_ne own _ _).trans empty)

theorem intact_alone (intact : frame.Intact) (busy : frame.opened ≠ []) (keeps : frame.KeepsPorts) :
    Alone frame.socket frame := by
  rcases intact with ⟨⟨_, unnamed⟩, ⟨closed, _⟩ | ⟨_, bound, _⟩⟩
  · exact absurd closed busy
  · refine ⟨unnamed, fun fd other => ?_⟩
    by_contra filled
    rcases keeps fd filled with port | named
    · exact other (Option.some.inj (port.symm.trans bound))
    · rw [unnamed] at named
      cases named

/-- The thread waits on an open socket only. -/
def WaitsOpen (frame : UdpFrame) : Prop := ∀ fd, frame.waiting = some fd → fd ∈ frame.opened

theorem call_waits_open (frame : UdpFrame) : frame.callRecvfrom.WaitsOpen := by
  intro fd waiting
  simp only [callRecvfrom] at waiting ⊢
  split_ifs at waiting with both
  rw [← Option.some.inj waiting]
  exact both.2

theorem step_waits_open (event : UdpFrameEvent) (waits : frame.WaitsOpen) :
    (frame.step event).WaitsOpen := by
  cases event with
  | online on answer =>
      cases on with
      | true =>
          intro fd waiting
          simp only [step, createSocket] at waiting ⊢
          split_ifs at waiting ⊢
          · exact waits fd waiting
          · exact List.mem_cons_of_mem _ (waits fd waiting)
      | false =>
          intro fd waiting
          by_cases none : frame.socket = -1
          · simp only [step, closeSocket, if_pos none] at waiting ⊢
            exact waits fd waiting
          · by_cases known : frame.socket ∈ frame.opened
            · by_cases own : frame.waiting = some frame.socket
              · simp [step, closeSocket, none, known, own] at waiting
              · simp only [step, closeSocket, if_neg none, if_pos known, if_neg own] at waiting ⊢
                have other : fd ≠ frame.socket := fun same => own (same ▸ waiting)
                exact (List.mem_erase_of_ne other).mpr (waits fd waiting)
            · simp only [step, closeSocket, if_neg none, if_neg known] at waiting ⊢
              exact waits fd waiting
  | txdFrame bs named =>
      rw [step, sendData]
      split <;> exact waits
  | datagram fd bs =>
      rw [step]
      split <;> exact waits
  | receive =>
      rw [step]
      obtain ⟨_, called⟩ | ⟨_, _, _, same⟩ | ⟨_, _, _, _, _, called⟩ := receive_cases frame
      · rw [called]
        exact call_waits_open frame
      · rwa [same]
      · rw [called]
        exact call_waits_open _

/-- The thread waits on the only socket. -/
structure Receiving (frame : UdpFrame) : Prop where
  online : frame.online = true
  opened : frame.opened = [frame.socket]
  waiting : frame.waiting = some frame.socket

theorem call_receiving (online : frame.online = true) (opened : frame.opened = [frame.socket]) :
    frame.callRecvfrom.Receiving := by
  refine ⟨online, opened, if_pos ⟨online, ?_⟩⟩
  rw [opened]
  exact List.mem_singleton_self _

theorem receiving_returns (turns : Nat) (frame : UdpFrame) (receiving : frame.Receiving)
    (enough : (frame.mailbox frame.socket).length ≤ turns) :
    collected step delivered frame (List.replicate turns .receive) =
      (frame.mailbox frame.socket).map (·.take rxdSpace) := by
  induction turns generalizing frame with
  | zero =>
      rw [List.eq_nil_of_length_eq_zero (Nat.le_zero.mp enough)]
      rfl
  | succ turns induction =>
      have taken : delivered frame .receive =
          ((frame.mailbox frame.socket).take 1).map (·.take rxdSpace) := by
        rw [delivered, receiving.waiting]
        exact congrArg _ (if_pos receiving.waiting)
      rw [List.replicate_succ, collected, taken, step]
      obtain ⟨idle, _⟩ | ⟨fd, waiting, empty, same⟩ | ⟨fd, first, rest, waiting, kept, called⟩ :=
        receive_cases frame
      · rw [receiving.waiting] at idle
        cases idle
      · have own : fd = frame.socket := Option.some.inj (waiting.symm.trans receiving.waiting)
        rw [own] at empty
        rw [same, induction frame receiving (by rw [empty]; exact Nat.zero_le _), empty]
        rfl
      · have own : fd = frame.socket := Option.some.inj (waiting.symm.trans receiving.waiting)
        subst own
        rw [kept, List.length_cons] at enough
        have later : ({ frame with mailbox := Function.update frame.mailbox frame.socket rest }
            : UdpFrame).callRecvfrom.Receiving := call_receiving receiving.online receiving.opened
        have left : ({ frame with mailbox := Function.update frame.mailbox frame.socket rest }
            : UdpFrame).callRecvfrom.mailbox frame.socket = rest := Function.update_self _ _ _
        have fewer : rest.length ≤ turns := Nat.le_of_succ_le_succ enough
        have turn := induction _ later (left.symm ▸ fewer)
        rw [called, turn, kept]
        exact congrArg (fun kept => first.take rxdSpace :: kept.map (·.take rxdSpace)) left

/-- While nothing else happens the receiver takes all that the socket keeps. -/
theorem receives_all (frame : UdpFrame) (online : frame.online = true)
    (opened : frame.opened = [frame.socket]) (waits : frame.WaitsOpen) :
    collected step delivered frame
        (List.replicate ((frame.mailbox frame.socket).length + 1) .receive) =
      (frame.mailbox frame.socket).map (·.take rxdSpace) := by
  cases waiting : frame.waiting with
  | none =>
      have silent : delivered frame .receive = [] := by
        rw [delivered, waiting]
      have called : frame.receive = frame.callRecvfrom := by
        rw [receive, waiting]
      rw [List.replicate_succ, collected, silent, step, called]
      exact receiving_returns _ _ (call_receiving online opened) le_rfl
  | some fd =>
      have own : fd = frame.socket := by
        have inside := waits fd waiting
        rwa [opened, List.mem_singleton] at inside
      exact receiving_returns _ _ ⟨online, opened, own ▸ waiting⟩ (Nat.le_succ _)

/-- From a second `true` on, one datagram more at most comes from the socket that keeps the
port, and none from another one before something is sent. -/
theorem renewal_deaf (answer : Int) (later : List UdpFrameEvent) (intact : frame.Intact)
    (busy : frame.opened ≠ []) (keeps : frame.KeepsPorts)
    (fresh : Admits step Fresh frame (.online true answer :: later)) :
    (run step frame (.online true answer :: later)).receiving = some frame.socket ∧
      (collected step (returned frame.socket) frame (.online true answer :: later)).length ≤ 1 ∧
      ((∀ bs, .txdFrame bs true ∉ later) →
        (collected step delivered frame (.online true answer :: later)).length ≤ 1) := by
  have deaf := renewal_lost answer intact busy fresh.1
  have alone : Alone frame.socket (frame.step (.online true answer)) := by
    have before := intact_alone intact busy keeps
    simp only [step, createSocket]
    split_ifs <;> exact ⟨before.unnamed, before.empty⟩
  have few : (frame.step (.online true answer)).remaining frame.socket ≤ 1 := by
    rw [remaining]
    split <;> decide
  have quiet : delivered frame (.online true answer) = [] := by
    rw [delivered]
    cases frame.waiting <;> rfl
  refine ⟨?_, ?_, ?_⟩
  · exact (admitted_run_invariant step Fresh (Lost frame.socket)
      (fun _ event deaf fresh => step_lost event deaf fresh) _ later deaf fresh.2).bound
  · exact Nat.le_trans (collected_budget step Fresh (Lost frame.socket) (returned frame.socket)
      (remaining frame.socket) (fun _ event deaf fresh => step_lost event deaf fresh)
      (fun _ event deaf _ => remaining_lost event deaf) _ later deaf fresh.2) few
  · intro unsent
    have both := admits_and_forall step Fresh (fun event => ∀ bs, event ≠ .txdFrame bs true)
      (frame.step (.online true answer)) later
      (fun event member bs same => unsent bs (same ▸ member)) fresh.2
    have spent := collected_budget step _
      (fun state => Lost frame.socket state ∧ Alone frame.socket state) delivered
      (remaining frame.socket)
      (fun _ event holds admitted =>
        ⟨step_lost event holds.1 admitted.2, step_alone event admitted.1 holds.1 holds.2⟩)
      (fun _ event holds _ =>
        (delivered_alone event holds.2).symm ▸ remaining_lost event holds.1)
      _ later ⟨deaf, alone⟩ both
    rw [collected, quiet]
    exact Nat.le_trans spent few

/-- Over every run: the frame keeps one socket at most, with the port, and closes only its
own, exactly when what `online` emits alternates. What comes for the port of a socket leaves
it in order; while `online` alternates and the socket is open, all of it is delivered, up to
the space there is, and what is sent goes through that socket. After a second `true` the port
stays with the old socket for good, and one datagram more at most is taken from it, whatever
happens later; until something is sent through the new one, that is all that is delivered. -/
theorem udp_frame_listens (events : List UdpFrameEvent) :
    let final := run step create events
    ((∀ before, before <+: events → (run step create before).Intact) ↔
      Admits step Alternates create events) ∧
    (∀ fd, collected step (arrived fd) create events =
      collected step (left fd) create events ++ final.mailbox fd) ∧
    (Admits step Alternates create events → final.online = true → final.opened ≠ [] →
      collected step delivered final
          (List.replicate ((final.mailbox final.socket).length + 1) .receive) =
        (final.mailbox final.socket).map (·.take rxdSpace)) ∧
    (Admits step Alternates create events → Admits step SendsOwn create events) ∧
    ∀ answer later, final.Intact → final.opened ≠ [] →
      Admits step Fresh final (.online true answer :: later) →
        (run step final (.online true answer :: later)).receiving = some final.socket ∧
        (collected step (returned final.socket) final (.online true answer :: later)).length ≤ 1 ∧
        ((∀ bs, .txdFrame bs true ∉ later) →
          (collected step delivered final (.online true answer :: later)).length ≤ 1) := by
  intro final
  have alternation := reached_iff_admits step Intact Alternates (fun _ => step_intact_iff) create
    events create_intact
  refine ⟨alternation, ?_, ?_, ?_, ?_⟩
  · intro fd
    exact collected_queue step (arrived fd) (left fd) (·.mailbox fd) (mailbox_queued fd) create
      events
  · intro alternates online filled
    have waits := run_invariant step WaitsOpen (fun _ => step_waits_open) create events
      (fun _ waiting => nomatch waiting)
    obtain ⟨_, ⟨closed, _⟩ | ⟨opened, _, _⟩⟩ := alternation.mpr alternates events
      (List.prefix_refl events)
    · exact absurd closed filled
    · exact receives_all final online opened waits
  · exact admits_mono step Alternates SendsOwn Intact
      (fun _ event intact holds => (step_intact_iff event intact).mpr holds)
      (fun _ event intact _ => sends_own event intact) create events create_intact
  · intro answer later intact busy fresh
    have keeps := run_invariant step KeepsPorts (fun _ => step_keeps_ports) create events
      (fun _ filled => absurd rfl filled)
    exact renewal_deaf answer later intact busy keeps fresh

/-- The station gets a second address while the thread waits: one datagram still comes for
the port, the next is never taken, though what comes for the port of the new socket is once
something was sent through it. -/
theorem udp_frame_listens_renewed :
    let later : List UdpFrameEvent :=
      [.datagram 54 (text "[1]"), .receive, .txdFrame (text "[0]") true,
        .datagram 54 (text "[2]"), .datagram 55 (text "[3]"), .receive, .receive]
    let renewed := run step create [.online true 54, .receive]
    (run step renewed (.online true 55 :: later)).receiving = some 54 ∧
      (collected step (returned 54) renewed (.online true 55 :: later)).length ≤ 1 ∧
      collected step delivered renewed (.online true 55 :: later) = [text "[1]", text "[3]"] := by
  intro later renewed
  have parts := (udp_frame_listens [.online true 54, .receive]).2.2.2.2 55 later
    ⟨⟨rfl, rfl⟩, .inr ⟨rfl, rfl, by decide⟩⟩ (List.cons_ne_nil _ _)
    ⟨.inr ⟨by decide, by decide⟩, trivial, trivial, trivial, trivial, trivial, trivial, trivial,
      trivial⟩
  exact ⟨parts.1, parts.2.1, by decide⟩

end UdpFrame

end Serial2Redis
