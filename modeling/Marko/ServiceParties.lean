import Marko.MeshStations
import Marko.PymarkoRequest
import Marko.RequestReplyAtMostOnce
import Marko.RequestReplyFixed

/-! Request and reply between the two libraries: a server and any number of clients, each of them
written in C++ or in Python. Every request has the `msgSize` bytes of the service and every reply
its `replySize`. -/
namespace Interop

open Datagram Interaction Pymarko
open Marko (Message Service)
open Marko.Service (Outcome)

inductive Client where
  | cpp
  | python (socket : UDPSocket) (datasize : ℕ)

/-- A server of either language; the one in Python has a single callback, which always returns a
message. -/
inductive Server where
  | cpp
  | python (socket : UDPSocket) (datasize : ℕ)

/-- A call that raises, and one that receives nothing, leave the caller without a reply. -/
def replied : Except PyError (Option Bytes) → Outcome
  | .ok (some r) => .reply r
  | .ok none => .reply []
  | .error _ => .reply []

def handled : Except PyError Unit → Outcome
  | .ok () => .served true
  | .error _ => .served false

variable (S : Service Address) (D : Marko.SocketDefs)

def Client.request (m : Message) : Client → Prog Address Unit Message Outcome
  | .cpp => Outcome.reply <$> Marko.Request.request (Marko.socketUDP D) S.replySize m S.server
  | .python socket datasize => replied <$> (Request.request socket m S.server datasize).run

def Server.serve : Server → Prog Address Unit Message Outcome
  | .cpp => Outcome.served <$> Marko.Reply.once (Marko.socketUDP D) S.msgSize
  | .python socket datasize =>
      handled <$> Prog.answering some (Reply.loopOnce socket [()] datasize).run

/-- A party in C++ receives exactly the size it was made with. Python needs room for a message in
its packets and for what it receives in `datasize`. -/
def Client.Fits : Client → Prop
  | .cpp => True
  | .python socket datasize => S.msgSize ≤ socket.maxPacketSize ∧ S.replySize ≤ datasize

def Server.Fits : Server → Prop
  | .cpp => True
  | .python socket datasize => S.msgSize ≤ datasize ∧ S.replySize ≤ socket.maxPacketSize

variable {S} {D}

theorem asks_python {socket : UDPSocket} {datasize : ℕ} {m : Message}
    (hlen : m.length ≤ socket.maxPacketSize) (hreply : S.replySize ≤ datasize) :
    S.Asks m (replied <$> (Request.request socket m S.server datasize).run) := by
  obtain ⟨k, hrun, hreceived, htimedOut⟩ := Request.run_receive (K := Unit) (V := Message) datasize
  have hwaits : S.Waits (replied <$> (Request.receive datasize).run) := by
    rw [hrun]
    refine ⟨datasize, fun ans => replied <$> k ans, rfl, hreply, ?_, ?_⟩
    · intro r src _
      dsimp only
      rw [hreceived]
      rfl
    · dsimp only
      rw [htimedOut]
      rfl
  -- a send that fails raises
  rw [Request.run_request socket S.server datasize hlen]
  exact ⟨_, rfl, hwaits, fun _ => .inr rfl⟩

theorem serves_python {socket : UDPSocket} {datasize : ℕ} (hsize : S.msgSize ≤ datasize)
    (hreply : S.replySize ≤ socket.maxPacketSize) : S.Serves (fun src => src)
      (handled <$> Prog.answering some (Reply.loopOnce socket [()] datasize).run) := by
  obtain ⟨k, hrun, hreceived, htimedOut⟩ := run_round (Reply.respond socket) [()] datasize
  rw [Reply.loopOnce, hrun]
  refine ⟨datasize, fun ans => handled <$> Prog.answering some (k ans), rfl, hsize, ?_, true, ?_⟩
  · intro m src hlen
    have hne : m ≠ [] := by
      rintro rfl
      exact absurd hlen (Nat.ne_of_lt S.msgSize_pos)
    obtain ⟨k', hcall, -, hsend⟩ := Reply.run_respond_cons socket m src () []
    dsimp only
    rw [hreceived, if_neg hne, hcall]
    refine ⟨fun r => handled <$> Prog.answering some (k' (some r)), rfl, ?_⟩
    intro r hr
    dsimp only
    rw [hsend r (hr ▸ hreply)]
    refine ⟨_, rfl, ?_⟩
    intro ans
    cases ans with
    | sent count => exact ⟨true, rfl⟩
    | failed e => exact ⟨false, rfl⟩
  · dsimp only
    rw [htimedOut]
    rfl

theorem Client.asks {client : Client} (hfits : client.Fits S) {m : Message}
    (hlen : m.length = S.msgSize) : S.Asks m (client.request S D m) := by
  cases client with
  | cpp => exact S.asks_request D .udp m
  | python socket datasize => exact asks_python (hlen ▸ hfits.1) hfits.2

theorem Server.serves {server : Server} (hfits : server.Fits S) :
    S.Serves (fun src => src) (server.serve S D) := by
  cases server with
  | cpp => exact S.serves_once D .udp
  | python socket datasize => exact serves_python hfits.1 hfits.2

/-- A service and the language of each of its parties, all with room for its messages: none of them
is empty, cut or padded, and the server's callback answers every request. -/
structure Parties extends Service Address where
  clientAt : Address → Client
  serverAt : Server
  client_fits : ∀ i, clients i = true → (clientAt i).Fits toService
  server_fits : serverAt.Fits toService

namespace Parties

variable (F : Parties) (D : Marko.SocketDefs)

/-- The server repeats its round; a client requests any message of the server's size, any time. -/
def deployment : Deployment Address Unit Message Service.Work Outcome where
  body i
    | .serve => if i = F.server then some (F.serverAt.serve F.toService D) else none
    | .ask m =>
        if F.clients i ∧ m.length = F.msgSize then some ((F.clientAt i).request F.toService D m)
        else none
  callback _ _ m := F.callback m

theorem performs : F.toService.Performs (fun src => src) (F.deployment D) where
  ask i m p hp := by
    obtain ⟨⟨hclient, hsize⟩, hp⟩ := Option.ite_none_right_eq_some.mp hp
    exact ⟨hclient, hsize, Option.some.inj hp ▸ Client.asks (F.client_fits i hclient) hsize⟩
  serve i p hp := by
    obtain ⟨hserver, hp⟩ := Option.ite_none_right_eq_some.mp hp
    exact ⟨hserver, Option.some.inj hp ▸ Server.serves F.server_fits⟩
  callback _ := rfl
  dest _ _ := rfl
  open_ := ⟨_, if_pos rfl⟩

variable {F} {D} {P : Policy Address} {c : Config Address Unit Message Service.Work Outcome}
  {i : Address}

/-- Whatever the languages of the parties and whatever the network does, timeouts and refused sends
included: the callback is invoked at most once for each request, and replies answer own requests,
none of them twice. Requests and replies have the sizes of the service, in this theorem as in the
next ones. -/
theorem answers_at_most_once (hc : (network (F.deployment D) P).Reachable c) :
    F.toService.AtMostOnce c.net := by
  obtain ⟨φ, h⟩ := (F.performs D).traced hc
  exact h.atMostOnce

/-! A Python server at address 1 that answers one byte with the same byte, a client in C++ at
address 2 and one in Python at address 3. -/

def echoService : Service Address where
  server := ("host", 1)
  clients i := i = ("host", 2) ∨ i = ("host", 3)
  msgSize := 1
  replySize := 1
  callback m := m
  server_not_client := rfl
  msgSize_pos := Nat.one_pos
  replySize_pos := Nat.one_pos
  length_callback _ h := h

def echoClient (i : Address) : Client :=
  if i = ("host", 2) then .cpp else .python (.init 0) 100

def echoServer : Server := .python (.init 0) 100

theorem echoClient_fits (i : Address) : (echoClient i).Fits echoService := by
  unfold echoClient
  split_ifs
  · trivial
  · exact ⟨by decide, by decide⟩

theorem echoServer_fits : echoServer.Fits echoService := ⟨by decide, by decide⟩

def echoParties : Parties :=
  { echoService with
    clientAt := echoClient
    serverAt := echoServer
    client_fits := fun i _ => echoClient_fits i
    server_fits := echoServer_fits }

def lossyNetwork : Policy Address := { reorder := false, lossy := true, timeouts := fun _ => true }

/-- The first call of the Python client raises, and the second one is answered. -/
def answeredAfterError : List (Label Address Unit Service.Work Outcome) :=
  [.party ("host", 3) (.start (.ask [7])), .party ("host", 3) (.sendFails .connRefused),
    .party ("host", 3) (.finished (.ask [7]) (.reply [])),
    .party ("host", 3) (.start (.ask [9])), .party ("host", 3) (.sent [9] ("host", 1)),
    .party ("host", 1) (.start .serve), .transit (.arrive ("host", 3) ("host", 1) 0),
    .party ("host", 1) (.received ⟨("host", 3), [9], ("host", 3), 1⟩),
    .party ("host", 1) (.invoked () [9]), .party ("host", 1) (.sent [9] ("host", 3)),
    .transit (.arrive ("host", 1) ("host", 3) 0),
    .party ("host", 3) (.received ⟨("host", 1), [9], ("host", 3), 1⟩),
    .party ("host", 3) (.finished (.ask [9]) (.reply [9]))]

theorem answers_at_most_once_after_error : ∃ c,
    (network (echoParties.deployment .failure) lossyNetwork).Reachable c ∧
      c.net.invoked ("host", 1) = [⟨(("host", 3), 1), (), [9]⟩] ∧
      echoService.AtMostOnce c.net := by
  have hrun : ∃ c, (network (echoParties.deployment .failure) lossyNetwork).Reachable c ∧
      c.net.invoked ("host", 1) = [⟨(("host", 3), 1), (), [9]⟩] :=
    ⟨_, ⟨answeredAfterError, rfl⟩, rfl⟩
  obtain ⟨c, hc, hinvoked⟩ := hrun
  exact ⟨c, hc, hinvoked, answers_at_most_once hc⟩

/-- However often a client gives up: all the datagrams from it and to it, under way and queued,
are no more than its calls that returned without a reply, and one. -/
theorem backlog_le (hc : (network (F.deployment D) P).Reachable c) (hi : F.clients i = true) :
    ((c.net.queue F.server).filter fun p => p.src = i).length +
        (c.net.flight (i, F.server)).length + (c.net.flight (F.server, i)).length +
        (c.net.queue i).length ≤ Marko.Service.timeouts (c.net.returned i) + 1 := by
  obtain ⟨φ, h⟩ := (F.performs D).traced hc
  exact h.length_backlog_le hi

/-- The first request of the C++ client is still under way when it sends the second one. -/
def impatient : List (Label Address Unit Service.Work Outcome) :=
  [.party ("host", 2) (.start (.ask [7])), .party ("host", 2) (.sent [7] ("host", 1)),
    .party ("host", 2) .timedOut, .party ("host", 2) (.finished (.ask [7]) (.reply [])),
    .party ("host", 2) (.start (.ask [9])), .party ("host", 2) (.sent [9] ("host", 1))]

theorem backlog_le_impatient : ∃ c,
    (network (echoParties.deployment .failure) lossyNetwork).Reachable c ∧
    c.net.flight (("host", 2), ("host", 1)) =
      [⟨("host", 2), [7], ("host", 2), 0⟩, ⟨("host", 2), [9], ("host", 2), 1⟩] ∧
    (c.net.queue ("host", 2)).length = 0 := by
  have hrun : ∃ c, (network (echoParties.deployment .failure) lossyNetwork).Reachable c ∧
      c.net.flight (("host", 2), ("host", 1)) =
        [⟨("host", 2), [7], ("host", 2), 0⟩, ⟨("host", 2), [9], ("host", 2), 1⟩] ∧
      Marko.Service.timeouts (c.net.returned ("host", 2)) = 1 :=
    ⟨_, ⟨impatient, rfl⟩, rfl, by decide⟩
  obtain ⟨c, hc, hflight, htimeouts⟩ := hrun
  have hle := backlog_le (i := ("host", 2)) hc rfl
  have hserver : echoParties.server = ("host", 1) := rfl
  rw [hserver, hflight, htimeouts] at hle
  simp only [List.length_cons, List.length_nil] at hle
  exact ⟨c, hc, hflight, by omega⟩

/-- Whatever the languages of the parties: on a network that keeps order, losses, refused sends
and timeouts included, a client gets answers to its own requests, in their order. -/
theorem replies_in_order (hfifo : P.reorder = false)
    (hc : (network (F.deployment D) P).Reachable c) (hi : F.clients i = true) :
    ∃ j, F.toService.FollowsRequests (c.net.returned i) j :=
  (F.performs D).follows hfifo hc hi

theorem replies_in_order_after_error : ∃ j, echoService.FollowsRequests
    [⟨.ask [7], .reply [], ("host", 3), 0⟩, ⟨.ask [9], .reply [9], ("host", 3), 1⟩] j := by
  have hrun : ∃ c, (network (echoParties.deployment .failure) lossyNetwork).Reachable c ∧
      c.net.returned ("host", 3) =
        [⟨.ask [7], .reply [], ("host", 3), 0⟩, ⟨.ask [9], .reply [9], ("host", 3), 1⟩] :=
    ⟨_, ⟨answeredAfterError, rfl⟩, rfl⟩
  obtain ⟨c, hc, hreturned⟩ := hrun
  have hfollows := replies_in_order (i := ("host", 3)) rfl hc rfl
  rwa [hreturned] at hfollows

/-- On a network that loses nothing but reorders as it likes, clients that never time out do not
get each other's answers, nor any answer but the one to the request that they wait on. -/
theorem replies_uncrossed (hloss : P.lossy = false)
    (hpatient : ∀ i, F.clients i = true → P.timeouts i = false)
    (hc : (network (F.deployment D) P).Reachable c) : F.toService.Uncrossed c.net :=
  (F.performs D).uncrossed hloss hpatient hc

def reorderingNetwork : Policy Address :=
  { reorder := true, lossy := false, timeouts := fun _ => false }

/-- The C++ client asks first, and the Python client's request overtakes its request. -/
def overtaken : List (Label Address Unit Service.Work Outcome) :=
  [.party ("host", 2) (.start (.ask [7])), .party ("host", 2) (.sent [7] ("host", 1)),
    .party ("host", 3) (.start (.ask [9])), .party ("host", 3) (.sent [9] ("host", 1)),
    .transit (.arrive ("host", 3) ("host", 1) 0), .transit (.arrive ("host", 2) ("host", 1) 0),
    .party ("host", 1) (.start .serve),
    .party ("host", 1) (.received ⟨("host", 3), [9], ("host", 3), 0⟩),
    .party ("host", 1) (.invoked () [9]), .party ("host", 1) (.sent [9] ("host", 3)),
    .party ("host", 1) (.finished .serve (.served true)), .party ("host", 1) (.start .serve),
    .party ("host", 1) (.received ⟨("host", 2), [7], ("host", 2), 0⟩),
    .party ("host", 1) (.invoked () [7])]

theorem replies_uncrossed_overtaken : ∃ c,
    (network (echoParties.deployment .failure) reorderingNetwork).run overtaken
      (network (echoParties.deployment .failure) reorderingNetwork).init = some c ∧
    echoService.Uncrossed c.net := by
  have hrun : ∃ c, (network (echoParties.deployment .failure) reorderingNetwork).run overtaken
      (network (echoParties.deployment .failure) reorderingNetwork).init = some c := ⟨_, rfl⟩
  obtain ⟨c, hc⟩ := hrun
  exact ⟨c, hc, replies_uncrossed (F := echoParties) rfl (fun _ _ => rfl) ⟨overtaken, hc⟩⟩

/-- On a network that loses nothing, where nobody times out, every call returns: a run has at most
eleven steps for each of them, and one more, and while one is open something other than a new call
can happen. -/
theorem requests_return (hloss : P.lossy = false) (htime : ∀ i, P.timeouts i = false)
    {ls : List (Label Address Unit Service.Work Outcome)}
    (hrun : (network (F.deployment D) P).run ls (network (F.deployment D) P).init = some c) :
    (∀ T : Finset Address, (∀ i, F.clients i = true → c.net.started i ≠ [] → i ∈ T) →
      ls.length ≤ 11 * ∑ i ∈ T, (c.net.started i).length + 1) ∧
    ∀ i, F.clients i = true → c.act i ≠ .idle →
      ∃ l c', Marko.Service.asks l = false ∧ step (F.deployment D) P l c = some c' :=
  (F.performs D).returns hloss htime hrun

theorem requests_return_overtaken : overtaken.length ≤ 23 ∧
    ∃ c, (network (echoParties.deployment .failure) reorderingNetwork).Reachable c ∧
      ∃ l c', Marko.Service.asks l = false ∧
        step (echoParties.deployment .failure) reorderingNetwork l c = some c' := by
  have hrun : ∃ c, (network (echoParties.deployment .failure) reorderingNetwork).run overtaken
      (network (echoParties.deployment .failure) reorderingNetwork).init = some c ∧
      c.net.started ("host", 2) = [.ask [7]] ∧ c.net.started ("host", 3) = [.ask [9]] ∧
      ∃ p, c.act ("host", 2) = .busy (.ask [7]) p := ⟨_, rfl, rfl, rfl, _, rfl⟩
  obtain ⟨c, hrun, hcpp, hpython, p, hact⟩ := hrun
  obtain ⟨hbound, hgoes⟩ := requests_return (F := echoParties) rfl (fun _ => rfl) hrun
  have hclients (i : Address) (hi : echoParties.clients i = true) (_ : c.net.started i ≠ []) :
      i ∈ ({("host", 2), ("host", 3)} : Finset Address) := by
    rw [Finset.mem_insert, Finset.mem_singleton]
    exact of_decide_eq_true hi
  have hne : ("host", 2) ≠ (("host", 3) : Address) := by decide
  have hlen := hbound {("host", 2), ("host", 3)} hclients
  rw [Finset.sum_pair hne, hcpp, hpython] at hlen
  have hbusy : c.act ("host", 2) ≠ .idle := by
    rw [hact]
    intro h
    cases h
  exact ⟨hlen, c, ⟨overtaken, hrun⟩, hgoes ("host", 2) rfl hbusy⟩

end Parties

end Interop
