import Marko.DatagramNetwork
import Marko.PymarkoLoops
import Marko.PymarkoPublisher

/-! One `Publisher` and one registered `Subscriber` of `pymarko/udpsocket.py` as parties of a
network. The publisher makes any sequence of `publish` calls with payloads of any size, and
the subscriber repeats the round of its `loop`. -/
namespace Pymarko

open Datagram Interaction

structure Feed (K : Type) where
  publisher : Address
  subscriber : Address
  ne : subscriber ≠ publisher
  socket : UDPSocket
  callbacks : List K
  datasize : ℕ
  -- the subscriber drops what its callbacks return
  answer : K → Bytes → Option Bytes

namespace Feed

inductive Work where
  | publish (data : Bytes)
  | listen
  deriving DecidableEq, Repr

abbrev Result := Except PyError Unit

variable {K : Type} (F : Feed K)

/-- `sending data rest` and `calling data addr rest` are the loops over fragments and over
callbacks with what is left of them. -/
inductive Phase (K : Type) where
  | idle
  | sending (data : Bytes) (rest : List Bytes)
  | raised (data : Bytes) (e : PyError)
  | listening
  | calling (data : Bytes) (addr : Address) (rest : List K)
  | quiet

def activity (F : Feed K) : Phase K → Activity Address K (Option Bytes) Work Result
  | .idle => .idle
  | .sending data rest =>
      .busy (.publish data) (UDPSocket.sendPieces F.subscriber (F.socket.outcome data) rest)
  | .raised data e => .busy (.publish data) (.done (.error e))
  | .listening => .busy .listen (Subscriber.loopOnce F.callbacks F.datasize).run
  | .calling data addr rest =>
      .busy .listen (forM rest (Subscriber.notify data addr) : Py K _ Unit).run
  | .quiet => .busy .listen (.done (.ok ()))

/-- What the subscriber does with a datagram: the kernel cuts it to `datasize` bytes. -/
def handle (p : Packet Address) : Phase K :=
  if p.payload.take F.datasize = [] then .quiet
  else .calling (p.payload.take F.datasize) p.src F.callbacks

inductive Move : Address → Event Address K Work Result → Phase K → Phase K → Prop where
  | publish (data : Bytes) :
      Move F.publisher (.start (.publish data)) .idle (.sending data (F.socket.pieces data))
  | send {i : Address} {data piece : Bytes} {rest : List Bytes} :
      Move i (.sent piece F.subscriber) (.sending data (piece :: rest)) (.sending data rest)
  | sendFails {i : Address} {data piece : Bytes} {rest : List Bytes} (e : Errno) :
      Move i (.sendFails e) (.sending data (piece :: rest)) (.raised data (Sock.raiseErrno e))
  | published {i : Address} {data : Bytes} :
      Move i (.finished (.publish data) (F.socket.outcome data)) (.sending data []) .idle
  | raised {i : Address} {data : Bytes} {e : PyError} :
      Move i (.finished (.publish data) (.error e)) (.raised data e) .idle
  | listen : Move F.subscriber (.start .listen) .idle .listening
  | handle {i : Address} (p : Packet Address) : Move i (.received p) .listening (F.handle p)
  | timesOut {i : Address} : Move i .timedOut .listening .quiet
  | call {i : Address} {data : Bytes} {addr : Address} {cb : K} {rest : List K} :
      Move i (.invoked cb data) (.calling data addr (cb :: rest)) (.calling data addr rest)
  | called {i : Address} {data : Bytes} {addr : Address} :
      Move i (.finished .listen (.ok ())) (.calling data addr []) .idle
  | quiet {i : Address} : Move i (.finished .listen (.ok ())) .quiet .idle

theorem loopOnce_activity : ∃ k,
    F.activity .listening = .busy .listen (.call (.recvfrom F.datasize 0) k) ∧
      (∀ p, F.activity (F.handle p) =
        .busy .listen (k (.received (p.payload.take F.datasize) p.src))) ∧
      F.activity .quiet = .busy .listen (k (.failed .again)) := by
  obtain ⟨k, hrun, hreceived, htimedOut⟩ :=
    run_round Subscriber.notify F.callbacks F.datasize
  refine ⟨k, congrArg (Activity.busy Work.listen) hrun, ?_, ?_⟩
  · intro p
    rw [hreceived, handle]
    by_cases hnil : p.payload.take F.datasize = []
    · rw [if_pos hnil, if_pos hnil, activity]
    · rw [if_neg hnil, if_neg hnil, activity]
  · rw [htimedOut, activity]

variable [DecidableEq K]

def deployment : Deployment Address K (Option Bytes) Work Result where
  body i
    -- `clientaddr` is the one registered address
    | .publish data =>
        if i = F.publisher then some (Publisher.publish F.socket [F.subscriber] data).run
        else none
    | .listen =>
        if i = F.subscriber then some (Subscriber.loopOnce F.callbacks F.datasize).run else none
  callback _ := F.answer

theorem simulates (i : Address) (e : Event Address K Work Result) (φ : Phase K)
    (x : Activity Address K (Option Bytes) Work Result)
    (h : (F.activity φ).next F.deployment i e = some x) :
    ∃ φ', F.Move i e φ φ' ∧ F.activity φ' = x := by
  cases φ with
  | idle =>
    obtain ⟨job, p, rfl, hbody, rfl⟩ := Activity.next_idle h
    cases job with
    | publish data =>
      obtain ⟨hi, hp⟩ := Option.ite_none_right_eq_some.mp hbody
      subst hi
      refine ⟨.sending data (F.socket.pieces data), .publish data, ?_⟩
      rw [← Option.some.inj hp, Publisher.run_publish_single, activity]
    | listen =>
      obtain ⟨hi, hp⟩ := Option.ite_none_right_eq_some.mp hbody
      subst hi
      exact ⟨.listening, .listen, congrArg _ (Option.some.inj hp)⟩
  | sending data rest =>
    cases rest with
    | nil =>
      obtain ⟨rfl, rfl⟩ := Activity.next_done h
      exact ⟨.idle, .published, rfl⟩
    | cons piece rest =>
      -- a refused send raises out of `publish`
      rcases Activity.next_sendto h with ⟨rfl, rfl⟩ | ⟨e, rfl, rfl⟩
      · exact ⟨.sending data rest, .send, rfl⟩
      · exact ⟨.raised data (Sock.raiseErrno e), .sendFails e, rfl⟩
  | raised data e =>
    obtain ⟨rfl, rfl⟩ := Activity.next_done h
    exact ⟨.idle, .raised, rfl⟩
  | listening =>
    obtain ⟨k, hlisten, hhandle, hquiet⟩ := F.loopOnce_activity
    rw [hlisten] at h
    rcases Activity.next_recvfrom h with ⟨p, rfl, rfl⟩ | ⟨rfl, rfl⟩
    · exact ⟨F.handle p, .handle p, hhandle p⟩
    · exact ⟨.quiet, .timesOut, hquiet⟩
  | calling data addr rest =>
    cases rest with
    | nil =>
      obtain ⟨rfl, rfl⟩ := Activity.next_done h
      exact ⟨.idle, .called, rfl⟩
    | cons cb rest =>
      rw [activity, run_notify_cons] at h
      obtain ⟨rfl, rfl⟩ := Activity.next_callback h
      exact ⟨.calling data addr rest, .call, rfl⟩
  | quiet =>
    obtain ⟨rfl, rfl⟩ := Activity.next_done h
    exact ⟨.idle, .quiet, rfl⟩

def phases : Phases F.deployment where
  Phase := Phase K
  activity _ := F.activity
  initial := .idle
  Move := F.Move
  activity_initial _ := rfl
  simulates := F.simulates

end Feed

end Pymarko
