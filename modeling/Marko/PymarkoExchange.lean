import Marko.DatagramNetwork
import Marko.PymarkoLoops
import Marko.PymarkoRequest

/-! One `Request` and one `Reply` of `pymarko/udpsocket.py` as parties of a network. The
requester makes any sequence of `request` calls to the server, which repeats the round of its
`loop` over any list of callbacks. -/
namespace Pymarko

open Datagram Interaction

/-- Whatever the callbacks return fits into one packet and into the requester's receive. -/
structure Exchange (K : Type) where
  requester : Address
  server : Address
  ne : server ≠ requester
  requestSocket : UDPSocket
  replySocket : UDPSocket
  callbacks : List K
  -- the arguments `datasize` of `Reply.loop` and of `Request.request`
  loopSize : ℕ
  requestSize : ℕ
  answer : K → Bytes → Option Bytes
  answer_fits : ∀ cb data r, answer cb data = some r →
    r.length ≤ replySocket.maxPacketSize ∧ r.length ≤ requestSize

namespace Exchange

inductive Work where
  | request (data : Bytes)
  | serve
  deriving DecidableEq, Repr

inductive Outcome where
  | returned (r : Except PyError (Option Bytes))
  | served (r : Except PyError Unit)
  deriving DecidableEq

variable {K : Type} (F : Exchange K)

def repliesTo (data : Bytes) : List Bytes := F.callbacks.filterMap fun cb => F.answer cb data

/-- A request that the server's receive takes whole and that some callback answers. -/
def Proper (data : Bytes) : Prop :=
  data ≠ [] ∧ data.length ≤ F.loopSize ∧ data.length ≤ F.requestSocket.maxPacketSize ∧
    F.repliesTo data ≠ []

instance (data : Bytes) : Decidable (F.Proper data) :=
  inferInstanceAs (Decidable (_ ∧ _ ∧ _ ∧ _))

/-- The first four phases are the requester's; `calling` and `replying` are the server's loop
over the callbacks with what is left of it. -/
inductive Phase (K : Type) where
  | idle
  | asking (data : Bytes)
  | waiting (data : Bytes)
  | returning (data : Bytes) (r : Except PyError (Option Bytes))
  | listening
  | calling (data : Bytes) (addr : Address) (rest : List K)
  | replying (data : Bytes) (addr : Address) (reply : Bytes) (rest : List K)
  | closing (r : Except PyError Unit)

def respondAll (data : Bytes) (addr : Address) (rest : List K) :
    Prog Address K (Option Bytes) Outcome :=
  Outcome.served <$> (forM rest (Reply.respond F.replySocket data addr) : Py K _ Unit).run

def activity : Phase K → Activity Address K (Option Bytes) Work Outcome
  | .idle => .idle
  | .asking data => .busy (.request data) (.call (.sendto data F.server 0) fun ans =>
      Outcome.returned <$> match Sock.sendResult ans with
        | .ok _ => (Request.receive F.requestSize).run
        | .error e => .done (.error e))
  | .waiting data =>
      .busy (.request data) (Outcome.returned <$> (Request.receive F.requestSize).run)
  | .returning data r => .busy (.request data) (.done (.returned r))
  | .listening => .busy .serve
      (Outcome.served <$> (Reply.loopOnce F.replySocket F.callbacks F.loopSize).run)
  | .calling data addr rest => .busy .serve (F.respondAll data addr rest)
  | .replying data addr reply rest => .busy .serve (.call (.sendto reply addr 0) fun ans =>
      match Sock.sendResult ans with
        | .ok _ => F.respondAll data addr rest
        | .error e => .done (.served (.error e)))
  | .closing r => .busy .serve (.done (.served r))

/-- What the server does with a datagram: the kernel cuts it to `loopSize` bytes. -/
def handle (p : Packet Address) : Phase K :=
  if p.payload.take F.loopSize = [] then .closing (.ok ())
  else .calling (p.payload.take F.loopSize) p.src F.callbacks

def afterCall (data : Bytes) (addr : Address) (cb : K) (rest : List K) : Phase K :=
  match F.answer cb data with
  | some reply => .replying data addr reply rest
  | none => .calling data addr rest

inductive Move : Address → Event Address K Work Outcome → Phase K → Phase K → Prop where
  | ask {data : Bytes} (hproper : F.Proper data) :
      Move F.requester (.start (.request data)) .idle (.asking data)
  | send {i : Address} {data : Bytes} : Move i (.sent data F.server) (.asking data) (.waiting data)
  | sendFails {i : Address} {data : Bytes} (e : Errno) :
      Move i (.sendFails e) (.asking data) (.returning data (.error (Sock.raiseErrno e)))
  | receive {i : Address} {data : Bytes} (p : Packet Address) :
      Move i (.received p) (.waiting data)
        (.returning data (.ok (some (p.payload.take F.requestSize))))
  | timesOut {i : Address} {data : Bytes} :
      Move i .timedOut (.waiting data) (.returning data (.ok none))
  | returned {i : Address} {data : Bytes} {r : Except PyError (Option Bytes)} :
      Move i (.finished (.request data) (.returned r)) (.returning data r) .idle
  | listen : Move F.server (.start .serve) .idle .listening
  | handle {i : Address} (p : Packet Address) : Move i (.received p) .listening (F.handle p)
  | quiet {i : Address} : Move i .timedOut .listening (.closing (.ok ()))
  | call {i : Address} {data : Bytes} {addr : Address} {cb : K} {rest : List K} :
      Move i (.invoked cb data) (.calling data addr (cb :: rest)) (F.afterCall data addr cb rest)
  | reply {i : Address} {data reply : Bytes} {addr : Address} {rest : List K} :
      Move i (.sent reply addr) (.replying data addr reply rest) (.calling data addr rest)
  | replyFails {i : Address} {data reply : Bytes} {addr : Address} {rest : List K} (e : Errno) :
      Move i (.sendFails e) (.replying data addr reply rest)
        (.closing (.error (Sock.raiseErrno e)))
  | called {i : Address} {data : Bytes} {addr : Address} :
      Move i (.finished .serve (.served (.ok ()))) (.calling data addr []) .idle
  | closed {i : Address} {r : Except PyError Unit} :
      Move i (.finished .serve (.served r)) (.closing r) .idle

/-! The programs of the phases, up to their first call. -/

theorem request_activity {data : Bytes} (hproper : F.Proper data) :
    F.activity (.asking data) = .busy (.request data) (Outcome.returned <$>
      (Request.request F.requestSocket data F.server F.requestSize).run) := by
  have hlen : data.length ≤ F.requestSocket.maxPacketSize := hproper.2.2.1
  rw [Request.run_request F.requestSocket F.server F.requestSize hlen]
  rfl

theorem waiting_activity (data : Bytes) : ∃ k,
    F.activity (.waiting data) = .busy (.request data) (.call (.recvfrom F.requestSize 0) k) ∧
      (∀ p : Packet Address,
        F.activity (.returning data (.ok (some (p.payload.take F.requestSize)))) =
          .busy (.request data) (k (.received (p.payload.take F.requestSize) p.src))) ∧
      F.activity (.returning data (.ok none)) =
        .busy (.request data) (k (.failed .again)) := by
  obtain ⟨k, hrun, hreceived, htimedOut⟩ :=
    Request.run_receive (K := K) (V := Option Bytes) F.requestSize
  refine ⟨fun ans => Outcome.returned <$> k ans, ?_, ?_, ?_⟩
  · rw [activity, hrun]
    rfl
  · intro p
    simp only [hreceived]
    rfl
  · simp only [htimedOut]
    rfl

theorem loopOnce_activity : ∃ k,
    F.activity .listening = .busy .serve (.call (.recvfrom F.loopSize 0) k) ∧
      (∀ p, F.activity (F.handle p) =
        .busy .serve (k (.received (p.payload.take F.loopSize) p.src))) ∧
      F.activity (.closing (.ok ())) = .busy .serve (k (.failed .again)) := by
  obtain ⟨k, hrun, hreceived, htimedOut⟩ :=
    run_round (Reply.respond F.replySocket) F.callbacks F.loopSize
  refine ⟨fun ans => Outcome.served <$> k ans, ?_, ?_, ?_⟩
  · rw [activity, Reply.loopOnce, hrun]
    rfl
  · intro p
    simp only [hreceived, handle]
    by_cases hnil : p.payload.take F.loopSize = []
    · rw [if_pos hnil, if_pos hnil]
      rfl
    · rw [if_neg hnil, if_neg hnil]
      rfl
  · simp only [htimedOut]
    rfl

theorem calling_activity (data : Bytes) (addr : Address) (cb : K) (rest : List K) : ∃ k,
    F.activity (.calling data addr (cb :: rest)) = .busy .serve (.call (.callback cb data) k) ∧
      F.activity (F.afterCall data addr cb rest) = .busy .serve (k (F.answer cb data)) := by
  obtain ⟨k, hrun, hnone, hsome⟩ := Reply.run_respond_cons F.replySocket data addr cb rest
  refine ⟨fun v => Outcome.served <$> k v, ?_, ?_⟩
  · rw [activity, respondAll, hrun]
    rfl
  · unfold afterCall
    -- a callback that returns `None` is followed by the next one at once
    cases hanswer : F.answer cb data with
    | none =>
      simp only [hnone]
      rfl
    | some reply =>
      simp only [hsome reply (F.answer_fits cb data reply hanswer).1]
      apply congrArg (Activity.busy Work.serve)
      apply Program.call_congr
      intro ans
      cases ans <;> rfl

variable [DecidableEq K]

def deployment : Deployment Address K (Option Bytes) Work Outcome where
  body i
    -- every request that is proper may be made at any time
    | .request data =>
        if i = F.requester ∧ F.Proper data then
          some (Outcome.returned <$>
            (Request.request F.requestSocket data F.server F.requestSize).run)
        else none
    | .serve =>
        if i = F.server then
          some (Outcome.served <$> (Reply.loopOnce F.replySocket F.callbacks F.loopSize).run)
        else none
  callback _ := F.answer

theorem simulates (i : Address) (e : Event Address K Work Outcome) (φ : Phase K)
    (x : Activity Address K (Option Bytes) Work Outcome)
    (h : (F.activity φ).next F.deployment i e = some x) :
    ∃ φ', F.Move i e φ φ' ∧ F.activity φ' = x := by
  cases φ with
  | idle =>
    obtain ⟨job, p, rfl, hbody, rfl⟩ := Activity.next_idle h
    cases job with
    | request data =>
      obtain ⟨⟨rfl, hproper⟩, hp⟩ := Option.ite_none_right_eq_some.mp hbody
      refine ⟨.asking data, .ask hproper, ?_⟩
      rw [F.request_activity hproper, Option.some.inj hp]
    | serve =>
      obtain ⟨rfl, hp⟩ := Option.ite_none_right_eq_some.mp hbody
      exact ⟨.listening, .listen, congrArg _ (Option.some.inj hp)⟩
  | asking data =>
    rcases Activity.next_sendto h with ⟨rfl, rfl⟩ | ⟨e, rfl, rfl⟩
    · exact ⟨.waiting data, .send, rfl⟩
    · exact ⟨.returning data (.error (Sock.raiseErrno e)), .sendFails e, rfl⟩
  | waiting data =>
    obtain ⟨k, hwaiting, hreceived, htimedOut⟩ := F.waiting_activity data
    rw [hwaiting] at h
    rcases Activity.next_recvfrom h with ⟨p, rfl, rfl⟩ | ⟨rfl, rfl⟩
    · exact ⟨_, .receive p, hreceived p⟩
    · exact ⟨_, .timesOut, htimedOut⟩
  | returning data r =>
    obtain ⟨rfl, rfl⟩ := Activity.next_done h
    exact ⟨.idle, .returned, rfl⟩
  | listening =>
    obtain ⟨k, hlisten, hhandle, hquiet⟩ := F.loopOnce_activity
    rw [hlisten] at h
    rcases Activity.next_recvfrom h with ⟨p, rfl, rfl⟩ | ⟨rfl, rfl⟩
    · exact ⟨F.handle p, .handle p, hhandle p⟩
    · exact ⟨.closing (.ok ()), .quiet, hquiet⟩
  | calling data addr rest =>
    cases rest with
    | nil =>
      obtain ⟨rfl, rfl⟩ := Activity.next_done h
      exact ⟨.idle, .called, rfl⟩
    | cons cb rest =>
      obtain ⟨k, hcalling, hafter⟩ := F.calling_activity data addr cb rest
      rw [hcalling] at h
      obtain ⟨rfl, rfl⟩ := Activity.next_callback h
      exact ⟨F.afterCall data addr cb rest, .call, hafter⟩
  | replying data addr reply rest =>
    rcases Activity.next_sendto h with ⟨rfl, rfl⟩ | ⟨e, rfl, rfl⟩
    · exact ⟨.calling data addr rest, .reply, rfl⟩
    · exact ⟨.closing (.error (Sock.raiseErrno e)), .replyFails e, rfl⟩
  -- a round that read nothing, or whose answer was refused, ends here
  | closing r =>
    obtain ⟨rfl, rfl⟩ := Activity.next_done h
    exact ⟨.idle, .closed, rfl⟩

def phases : Phases F.deployment where
  Phase := Phase K
  activity _ := F.activity
  initial := .idle
  Move := F.Move
  activity_initial _ := rfl
  simulates := F.simulates

end Exchange

end Pymarko
