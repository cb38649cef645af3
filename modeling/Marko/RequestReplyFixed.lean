import Marko.DatagramReach
import Marko.RequestReplyReturn

/-! The programs of `request_reply.hpp` in their shapes, on either transport, and a reply socket
that repeats `once(to)`: it serves whoever asks, but sends every answer to the one address that it
is given. -/
namespace Marko

open Datagram Interaction

namespace Service

variable {A : Type} [Zero A] (S : Service A) (D : SocketDefs) (t : Transport)

theorem asks_request (m : Message) :
    S.Asks m (Outcome.reply <$> Request.request (t.socketClass D) S.replySize m S.server) := by
  have hwaits : S.Waits (.call (.recvfrom S.replySize 0) fun ans =>
      .done (.reply (receivedMessage D S.replySize ans))) := by
    refine ⟨S.replySize, _, rfl, le_refl _, ?_, ?_⟩
    · intro r src hlen
      have hexact := receivedMessage_exact D src hlen
      rw [List.take_of_length_le (le_of_eq hlen)] at hexact
      rw [hexact]
    · rw [receivedMessage_failed]
  rw [Request.request_eq]
  exact ⟨_, rfl, hwaits, fun _ => .inl hwaits⟩

omit [Zero A] in
theorem computes_handle (toAddr : RecvAnswer A → A) {m : Message} (hlen : m.length = S.msgSize)
    (src : A) : S.Computes m (toAddr (.received m src))
      (Outcome.served <$> Reply.handle D S.msgSize toAddr (.received m src)) := by
  have hne : m ≠ [] := by
    rintro rfl
    exact absurd hlen (Nat.ne_of_lt S.msgSize_pos)
  have hexact := fillBuffer_exact hlen
  have hhandle := Reply.handle_received D S.msgSize_pos toAddr m src
  rw [List.take_of_length_le (le_of_eq hlen)] at hexact hhandle
  rw [hhandle, if_neg hne, hexact]
  exact ⟨_, rfl, fun r _ => ⟨_, rfl, fun _ => ⟨true, rfl⟩⟩⟩

theorem serves_once :
    S.Serves (fun src => src) (Outcome.served <$> Reply.once (t.socketClass D) S.msgSize) := by
  rw [Reply.once_eq]
  refine ⟨S.msgSize, _, rfl, le_refl _, ?_, false, ?_⟩
  · intro m src hlen
    exact S.computes_handle D receivedFrom hlen src
  · rw [Reply.handle_failed]
    rfl

theorem serves_onceTo (toAddr : A) :
    S.Serves (fun _ => toAddr)
      (Outcome.served <$> Reply.onceTo (t.socketClass D) S.msgSize toAddr) := by
  rw [Reply.onceTo_eq]
  refine ⟨S.msgSize, _, rfl, le_refl _, ?_, false, ?_⟩
  · intro m src hlen
    exact S.computes_handle D (fun _ => toAddr) hlen src
  · rw [Reply.handle_failed]
    rfl

variable {D t}

theorem sendsTo_onceTo (msgSize : ℕ) (toAddr : A) : Prog.SendsTo (fun dst => dst = toAddr)
    (Reply.onceTo (t.socketClass D) msgSize toAddr) := by
  rw [Reply.onceTo_eq]
  intro ans
  unfold Reply.handle
  split_ifs
  · trivial
  · exact fun v => ⟨rfl, fun ans => trivial⟩

theorem sendsTo_request (msgSize : ℕ) (m : Message) (server : A) :
    Prog.SendsTo (fun dst => dst = server)
      (Request.request (K := Unit) (V := Message) (t.socketClass D) msgSize m server) := by
  rw [Request.request_eq]
  exact ⟨rfl, fun ans ans' => trivial⟩

/-- The programs of a server that repeats `once(to)` and of clients that call `request`, whatever
the sizes of their messages and buffers. -/
structure AnswersTo (D : SocketDefs) (t : Transport) (server toAddr : A)
    (E : Deployment A Unit Message Work Outcome) : Prop where
  serve : ∀ i p, E.body i .serve = some p → i = server ∧
    ∃ msgSize, p = Outcome.served <$> Reply.onceTo (t.socketClass D) msgSize toAddr
  ask : ∀ i m p, E.body i (.ask m) = some p →
    ∃ msgSize, p = Outcome.reply <$> Request.request (t.socketClass D) msgSize m server

variable {server toAddr : A} {E : Deployment A Unit Message Work Outcome}

theorem AnswersTo.sendsTo (h : AnswersTo D t server toAddr E) {j : A} {job : Work}
    {p : Prog A Unit Message Outcome} (hp : E.body j job = some p) :
    Prog.SendsTo (fun dst => dst = server ∨ dst = toAddr) p := by
  cases job with
  | serve =>
    obtain ⟨-, msgSize, rfl⟩ := h.serve j p hp
    exact ((sendsTo_onceTo msgSize toAddr).mono fun _ => .inr).map _
  | ask m =>
    obtain ⟨msgSize, rfl⟩ := h.ask j m p hp
    exact ((sendsTo_request msgSize m server).mono fun _ => .inl).map _

variable [DecidableEq A] (D t toAddr)

/-- The server repeats `once(to)`; a client calls `request` with any message of the server's
size. -/
def deploymentTo : Deployment A Unit Message Work Outcome where
  body i
    | .serve =>
        if i = S.server then
          some (Outcome.served <$> Reply.onceTo (t.socketClass D) S.msgSize toAddr)
        else none
    | .ask m =>
        if S.clients i ∧ m.length = S.msgSize then
          some (Outcome.reply <$> Request.request (t.socketClass D) S.replySize m S.server)
        else none
  callback _ _ m := S.callback m

variable {S D t toAddr} {P : Policy A} {i : A} {c : Config A Unit Message Work Outcome}

theorem performs_onceTo (honly : ∀ i, S.clients i = true → i = toAddr) :
    S.Performs (fun _ => toAddr) (S.deploymentTo D t toAddr) where
  ask i m p hp := by
    obtain ⟨⟨hclient, hsize⟩, hp⟩ := Option.ite_none_right_eq_some.mp hp
    exact ⟨hclient, hsize, Option.some.inj hp ▸ S.asks_request D t m⟩
  serve i p hp := by
    obtain ⟨hserver, hp⟩ := Option.ite_none_right_eq_some.mp hp
    exact ⟨hserver, Option.some.inj hp ▸ S.serves_onceTo D t toAddr⟩
  callback _ := rfl
  dest i hi := (honly i hi).symm
  open_ := ⟨_, if_pos rfl⟩

/-- A client that alone talks to a server which sends its answers to that client gets the replies
in the order of its requests, on a network that keeps order. Requests have the size of the server's
buffer, and replies that of the client's. -/
theorem replies_to_follow_requests (honly : ∀ i, S.clients i = true ↔ i = toAddr)
    (hfifo : P.reorder = false) (hc : (network (S.deploymentTo D t toAddr) P).Reachable c) :
    ∃ j, S.FollowsRequests (c.net.returned toAddr) j :=
  (performs_onceTo fun i => (honly i).mp).follows hfifo hc ((honly toAddr).mpr rfl)

/-- A server at address 1 that answers one byte with its successor. -/
def successor : Service ℕ :=
  { echo with
    callback := fun m => m.map (· + 1)
    length_callback := fun _ h => (List.length_map _).trans h }

def impatientNetwork : Policy ℕ := { reorder := false, lossy := true, timeouts := fun i => i ≠ 1 }

def answeredTo : List (Label ℕ Unit Work Outcome) :=
  [.party 2 (.start (.ask [7])), .party 2 (.sent [7] 1), .party 1 (.start .serve),
    .transit (.arrive 2 1 0), .party 1 (.received ⟨2, [7], 2, 0⟩), .party 1 (.invoked () [7]),
    .party 1 (.sent [8] 2), .transit (.arrive 1 2 0), .party 2 (.received ⟨1, [8], 2, 0⟩),
    .party 2 (.finished (.ask [7]) (.reply [8]))]

theorem replies_to_follow_requests_answered :
    ∃ j, successor.FollowsRequests [⟨.ask [7], .reply [8], 2, 0⟩] j := by
  have hrun : ∃ c,
      (network (successor.deploymentTo .failure .unix 2) impatientNetwork).Reachable c ∧
      c.net.returned 2 = [⟨.ask [7], .reply [8], 2, 0⟩] := ⟨_, ⟨answeredTo, rfl⟩, rfl⟩
  obtain ⟨c, hc, hreturned⟩ := hrun
  have honly : ∀ i, successor.clients i = true ↔ i = 2 := fun i => decide_eq_true_iff
  have hfollows := replies_to_follow_requests honly rfl hc
  rwa [hreturned] at hfollows

theorem answersTo_deploymentTo :
    AnswersTo D t S.server toAddr (S.deploymentTo D t toAddr) where
  serve i p hp := by
    obtain ⟨hserver, hp⟩ := Option.ite_none_right_eq_some.mp hp
    exact ⟨hserver, S.msgSize, (Option.some.inj hp).symm⟩
  ask i m p hp := by
    obtain ⟨-, hp⟩ := Option.ite_none_right_eq_some.mp hp
    exact ⟨S.replySize, (Option.some.inj hp).symm⟩

/-- Of a server that sends its answers to one address, a client elsewhere never hears, whatever
the sizes and the callback: on any network nothing comes its way, and its calls return only by
timeout, with nothing. -/
theorem once_to_answers_nobody_else (h : AnswersTo D t server toAddr E)
    (hc : (network E P).Reachable c) (hi : i ≠ server) (hne : i ≠ toAddr) :
    c.net.queue i = [] ∧ (∀ src, c.net.flight (src, i) = []) ∧
      ∀ ret ∈ c.net.returned i, P.timeouts i = true ∧ ret.result = .reply [] := by
  obtain ⟨ls, hrun⟩ := hc
  obtain ⟨htaken, hqueue, hflight⟩ :=
    unreached (fun _ _ _ hp => h.sendsTo hp) (not_or.mpr ⟨hi, hne⟩) hrun
  refine ⟨hqueue, hflight, ?_⟩
  intro ret hret
  obtain ⟨p, hbody, hdeaf⟩ := deaf_returns hrun htaken ret hret
  cases hjob : ret.job with
  | serve =>
    rw [hjob] at hbody
    exact absurd (h.serve i p hbody).1 hi
  | ask m =>
    rw [hjob] at hbody
    obtain ⟨msgSize, rfl⟩ := h.ask i m p hbody
    rw [Request.request_eq] at hdeaf
    obtain ⟨_, htime, hresult⟩ := hdeaf
    have hreply : ret.result = .reply (receivedMessage D msgSize (.failed .again)) := hresult.symm
    rw [receivedMessage_failed] at hreply
    exact ⟨htime, hreply⟩

def successorForTwo : Service ℕ :=
  { successor with
    clients := fun i => i = 2 ∨ i = 3
    server_not_client := rfl }

/-- Client 3 asks, and the answer goes to client 2. -/
def answeredElsewhere : List (Label ℕ Unit Work Outcome) :=
  [.party 3 (.start (.ask [7])), .party 3 (.sent [7] 1), .party 1 (.start .serve),
    .transit (.arrive 3 1 0), .party 1 (.received ⟨3, [7], 3, 0⟩), .party 1 (.invoked () [7]),
    .party 1 (.sent [8] 2), .transit (.arrive 1 2 0), .party 3 .timedOut,
    .party 3 (.finished (.ask [7]) (.reply []))]

theorem once_to_answers_nobody_else_elsewhere : ∃ c,
    (network (successorForTwo.deploymentTo .failure .udp 2) impatientNetwork).Reachable c ∧
      c.net.queue 2 = [⟨1, [8], 3, 0⟩] ∧ c.net.queue 3 = [] := by
  have hrun : ∃ c,
      (network (successorForTwo.deploymentTo .failure .udp 2) impatientNetwork).Reachable c ∧
      c.net.queue 2 = [⟨1, [8], 3, 0⟩] := ⟨_, ⟨answeredElsewhere, rfl⟩, rfl⟩
  obtain ⟨c, hc, hqueue⟩ := hrun
  have hthree := once_to_answers_nobody_else answersTo_deploymentTo hc (i := 3)
    (fun h => by cases h) (fun h => by cases h)
  exact ⟨c, hc, hqueue, hthree.1⟩

end Service

end Marko
