import Marko.MarkoRequestReply
import Marko.DatagramNetwork

/-! Any number of `RequestUDP` clients of one `ReplyUDP` server that repeats `once`, as
parties of a network. The phases below say how far each party is in its program. -/
namespace Marko

open Datagram Interaction

/-- The server answers requests of its message size with replies of the clients' size. -/
structure Service (A : Type) where
  server : A
  clients : A → Bool
  msgSize : ℕ
  replySize : ℕ
  callback : Message → Message
  server_not_client : clients server = false
  msgSize_pos : 0 < msgSize
  replySize_pos : 0 < replySize
  length_callback : ∀ m, m.length = msgSize → (callback m).length = replySize

namespace Service

inductive Work where
  | serve
  | ask (m : Message)
  deriving DecidableEq, Repr

inductive Outcome where
  | served (ok : Bool)
  | reply (r : Message)
  deriving DecidableEq, Repr

variable {A : Type} [DecidableEq A] [Zero A] (S : Service A) (D : SocketDefs)

/-- The server repeats `once()`; a client calls `request` with any message of the server's
size. -/
def deployment : Deployment A Unit Message Work Outcome where
  body i
    | .serve =>
        if i = S.server then some (Outcome.served <$> Reply.once (socketUDP D) S.msgSize) else none
    | .ask m =>
        if S.clients i ∧ m.length = S.msgSize then
          some (Outcome.reply <$> Request.request (socketUDP D) S.replySize m S.server)
        else none
  callback _ _ m := S.callback m

/-- `got m r` holds the reply that `request` is about to return. -/
inductive Phase (A : Type) where
  | idle
  | ready (m : Message)
  | waiting (m : Message)
  | got (m r : Message)
  | listening
  | asking (src : A) (m : Message)
  | answering (src : A) (r : Message)
  | served (ok : Bool)

def activity : Phase A → Activity A Unit Message Work Outcome
  | .idle => .idle
  | .ready m => .busy (.ask m)
      (Outcome.reply <$> Request.request (socketUDP D) S.replySize m S.server)
  | .waiting m => .busy (.ask m) (.call (.recvfrom S.replySize 0) fun ans =>
      .done (.reply (receivedMessage D S.replySize ans)))
  | .got m r => .busy (.ask m) (.done (.reply r))
  | .listening => .busy .serve (Outcome.served <$> Reply.once (socketUDP D) S.msgSize)
  | .asking src m => .busy .serve (Outcome.served <$> Reply.answer m src)
  | .answering src r => .busy .serve (.call (.sendto r src 0) fun _ => .done (.served true))
  | .served ok => .busy .serve (.done (.served ok))

/-- What the server does with a datagram: only an empty one is refused. -/
def accept (p : Packet A) : Phase A :=
  if p.payload = [] then .served false
  else .asking p.src (fillBuffer S.msgSize (p.payload.take S.msgSize))

inductive Move : A → Event A Unit Work Outcome → Phase A → Phase A → Prop where
  | ask {i : A} {m : Message} (hclient : S.clients i = true) (hsize : m.length = S.msgSize) :
      Move i (.start (.ask m)) .idle (.ready m)
  | request {i : A} {m : Message} : Move i (.sent m S.server) (.ready m) (.waiting m)
  | requestFails {i : A} {m : Message} {e : Errno} : Move i (.sendFails e) (.ready m) (.waiting m)
  | reply {i : A} {m : Message} (p : Packet A) : Move i (.received p) (.waiting m)
      (.got m (receivedMessage D S.replySize (.received (p.payload.take S.replySize) p.src)))
  | giveUp {i : A} {m : Message} : Move i .timedOut (.waiting m) (.got m [])
  | finish {i : A} {m r : Message} : Move i (.finished (.ask m) (.reply r)) (.got m r) .idle
  | serve {i : A} (hserver : i = S.server) : Move i (.start .serve) .idle .listening
  | accept {i : A} (p : Packet A) : Move i (.received p) .listening (S.accept p)
  | serveTimesOut {i : A} : Move i .timedOut .listening (.served false)
  | compute {i src : A} {m : Message} :
      Move i (.invoked () m) (.asking src m) (.answering src (S.callback m))
  | answer {i src : A} {r : Message} : Move i (.sent r src) (.answering src r) (.served true)
  | answerFails {i src : A} {r : Message} {e : Errno} :
      Move i (.sendFails e) (.answering src r) (.served true)
  | served {i : A} {ok : Bool} : Move i (.finished .serve (.served ok)) (.served ok) .idle

omit [DecidableEq A] in
theorem once_activity : S.activity D .listening = .busy .serve (.call (.recvfrom S.msgSize 0)
    fun ans => Outcome.served <$> Reply.handle D S.msgSize receivedFrom ans) := rfl

omit [DecidableEq A] in
theorem request_activity (m : Message) : S.activity D (.ready m) =
    .busy (.ask m) (.call (.sendto m S.server 0) fun _ => .call (.recvfrom S.replySize 0)
      fun ans => .done (.reply (receivedMessage D S.replySize ans))) := rfl

omit [DecidableEq A] in
theorem accept_activity (p : Packet A) : S.activity D (S.accept p) =
    .busy .serve (Outcome.served <$> Reply.handle D S.msgSize receivedFrom
      (.received (p.payload.take S.msgSize) p.src)) := by
  rw [Reply.handle_received D S.msgSize_pos]
  unfold accept
  split_ifs <;> rfl

theorem simulates (i : A) (e : Event A Unit Work Outcome) (φ : Phase A)
    (x : Activity A Unit Message Work Outcome)
    (h : (S.activity D φ).next (S.deployment D) i e = some x) :
    ∃ φ', S.Move D i e φ φ' ∧ S.activity D φ' = x := by
  -- in each phase the program stands at one call, and only its answers let it go on
  cases φ with
  | idle =>
    obtain ⟨job, p, rfl, hbody, rfl⟩ := Activity.next_idle h
    cases job with
    | serve =>
      obtain ⟨hserver, hp⟩ := Option.ite_none_right_eq_some.mp hbody
      exact ⟨.listening, .serve hserver, congrArg _ (Option.some.inj hp)⟩
    | ask m =>
      obtain ⟨⟨hclient, hsize⟩, hp⟩ := Option.ite_none_right_eq_some.mp hbody
      exact ⟨.ready m, .ask hclient hsize, congrArg _ (Option.some.inj hp)⟩
  | ready m =>
    rw [request_activity] at h
    rcases Activity.next_sendto h with ⟨rfl, rfl⟩ | ⟨e, rfl, rfl⟩
    · exact ⟨.waiting m, .request, rfl⟩
    · exact ⟨.waiting m, .requestFails, rfl⟩
  | waiting m =>
    rcases Activity.next_recvfrom h with ⟨p, rfl, rfl⟩ | ⟨rfl, rfl⟩
    · exact ⟨_, .reply p, rfl⟩
    · refine ⟨.got m [], .giveUp, ?_⟩
      rw [receivedMessage_failed]
      rfl
  | got m r =>
    obtain ⟨rfl, rfl⟩ := Activity.next_done h
    exact ⟨.idle, .finish, rfl⟩
  | listening =>
    rw [once_activity] at h
    rcases Activity.next_recvfrom h with ⟨p, rfl, rfl⟩ | ⟨rfl, rfl⟩
    · exact ⟨S.accept p, .accept p, S.accept_activity D p⟩
    · refine ⟨.served false, .serveTimesOut, ?_⟩
      rw [Reply.handle_failed]
      rfl
  | asking src m =>
    obtain ⟨rfl, rfl⟩ := Activity.next_callback h
    exact ⟨_, .compute, rfl⟩
  | answering src r =>
    rcases Activity.next_sendto h with ⟨rfl, rfl⟩ | ⟨e, rfl, rfl⟩
    · exact ⟨_, .answer, rfl⟩
    · exact ⟨_, .answerFails, rfl⟩
  | served ok =>
    obtain ⟨rfl, rfl⟩ := Activity.next_done h
    exact ⟨.idle, .served, rfl⟩

def phases : Phases (S.deployment D) where
  Phase := Phase A
  activity _ := S.activity D
  initial := .idle
  Move := S.Move D
  activity_initial _ := rfl
  simulates := S.simulates D

end Service

end Marko
