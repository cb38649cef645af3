import Marko.MarkoPubSub
import Marko.DatagramNetwork

/-! One `PublisherUDP` and its `SubscriberUDP` sockets as parties of a network: the publisher
makes any sequence of `publish` calls and every subscriber repeats `once`. -/
namespace Marko

open Datagram Interaction

structure Feed (A K : Type) where
  publisher : A
  subscribers : List A
  callbacks : A → List K
  dataSize : ℕ
  nodup : subscribers.Nodup
  publisher_notMem : publisher ∉ subscribers
  dataSize_pos : 0 < dataSize

namespace Feed

inductive Work where
  | publish (m : Message)
  | receive
  deriving DecidableEq, Repr

variable {A K : Type} [Zero A] (F : Feed A K) (D : SocketDefs)

/-- A subscriber has its callbacks from calls of `register_cb`. -/
def subscriber (i : A) : Subscriber K :=
  (F.callbacks i).foldl Subscriber.registerCb (.init F.dataSize)

omit [Zero A] in
theorem subscriber_eq (i : A) : F.subscriber i = ⟨F.callbacks i, F.dataSize⟩ := by
  rw [subscriber, Subscriber.foldl_registerCb]
  rfl

/-- `sending m rest` and `calling m rest` are the two loops with what is left of them. -/
inductive Phase (A K : Type) where
  | idle
  | sending (m : Message) (rest : List A)
  | listening
  | calling (m : Message) (rest : List K)
  | quiet

def activity (i : A) : Phase A K → Activity A K Unit Work Unit
  | .idle => .idle
  | .sending m rest => .busy (.publish m)
      (Program.each (S := sig A K Unit) (fun addr => .sendto m addr 0) rest)
  | .listening => .busy .receive ((F.subscriber i).once (socketUDP D))
  | .calling m rest => .busy .receive
      (Program.each (S := sig A K Unit) (fun callback => .callback callback m) rest)
  | .quiet => .busy .receive (.done ())

/-- What a subscriber does with a datagram: an empty one is passed over. -/
def handle (i : A) (p : Packet A) : Phase A K :=
  if p.payload = [] then .quiet
  else .calling (fillBuffer F.dataSize (p.payload.take F.dataSize)) (F.callbacks i)

inductive Move : A → Event A K Work Unit → Phase A K → Phase A K → Prop where
  | publish {i : A} {m : Message} (hi : i = F.publisher) (hsize : m.length = F.dataSize) :
      Move i (.start (.publish m)) .idle (.sending m F.subscribers)
  | send {i dst : A} {m : Message} {rest : List A} :
      Move i (.sent m dst) (.sending m (dst :: rest)) (.sending m rest)
  | sendFails {i dst : A} {m : Message} {rest : List A} {e : Errno} :
      Move i (.sendFails e) (.sending m (dst :: rest)) (.sending m rest)
  | published {i : A} {m : Message} : Move i (.finished (.publish m) ()) (.sending m []) .idle
  | receive {i : A} (hi : i ∈ F.subscribers) : Move i (.start .receive) .idle .listening
  | handle {i : A} (p : Packet A) : Move i (.received p) .listening (F.handle i p)
  | timesOut {i : A} : Move i .timedOut .listening .quiet
  | call {i : A} {m : Message} {cb : K} {rest : List K} :
      Move i (.invoked cb m) (.calling m (cb :: rest)) (.calling m rest)
  | called {i : A} {m : Message} : Move i (.finished .receive ()) (.calling m []) .idle
  | quiet {i : A} : Move i (.finished .receive ()) .quiet .idle

theorem once_activity (i : A) : F.activity D i .listening =
    .busy .receive (.call (.recvfrom F.dataSize 0) fun ans =>
      if (receivedMessage D F.dataSize ans).length = 0 then .done ()
      else Program.each (S := sig A K Unit)
        (fun callback => .callback callback (receivedMessage D F.dataSize ans))
        (F.callbacks i)) := by
  rw [activity, subscriber_eq]
  exact congrArg _ (Subscriber.once_eq D .udp ⟨F.callbacks i, F.dataSize⟩)

theorem handle_activity (i : A) (p : Packet A) : F.activity D i (F.handle i p) =
    .busy .receive (if (receivedMessage D F.dataSize
        (.received (p.payload.take F.dataSize) p.src)).length = 0 then .done ()
      else Program.each (S := sig A K Unit) (fun callback => .callback callback
        (receivedMessage D F.dataSize (.received (p.payload.take F.dataSize) p.src)))
        (F.callbacks i)) := by
  -- a buffer that holds something cuts no datagram down to nothing
  have hnil : p.payload.take F.dataSize = [] ↔ p.payload = [] := by
    simp only [List.take_eq_nil_iff, Nat.ne_of_gt F.dataSize_pos, false_or]
  rw [length_receivedMessage, receivedMessage_received]
  unfold handle
  by_cases hp : p.payload = []
  · rw [if_pos hp, if_pos (if_pos (hnil.mpr hp))]
    rfl
  · rw [if_neg hp, if_neg (mt hnil.mp hp), if_neg (mt hnil.mp hp),
      if_neg (Nat.ne_of_gt F.dataSize_pos)]
    rfl

variable [DecidableEq A] [DecidableEq K]

def deployment : Deployment A K Unit Work Unit where
  body i
    | .publish m =>
        if i = F.publisher ∧ m.length = F.dataSize then
          some (Publisher.publish ⟨F.subscribers⟩ (socketUDP D) m)
        else none
    | .receive => if i ∈ F.subscribers then some ((F.subscriber i).once (socketUDP D)) else none
  callback _ _ _ := ()

theorem simulates (i : A) (e : Event A K Work Unit) (φ : Phase A K)
    (x : Activity A K Unit Work Unit) (h : (F.activity D i φ).next (F.deployment D) i e = some x) :
    ∃ φ', F.Move i e φ φ' ∧ F.activity D i φ' = x := by
  -- in each phase the program stands at one call, and only its answers let it go on
  cases φ with
  | idle =>
    obtain ⟨job, p, rfl, hbody, rfl⟩ := Activity.next_idle h
    cases job with
    | publish m =>
      obtain ⟨⟨hi, hsize⟩, hp⟩ := Option.ite_none_right_eq_some.mp hbody
      have hloop := Publisher.publish_eq (V := Unit) (K := K) D .udp ⟨F.subscribers⟩ m
      refine ⟨.sending m F.subscribers, .publish hi hsize, ?_⟩
      rw [← Option.some.inj hp]
      exact congrArg (Activity.busy _) hloop.symm
    | receive =>
      obtain ⟨hi, hp⟩ := Option.ite_none_right_eq_some.mp hbody
      exact ⟨.listening, .receive hi, congrArg _ (Option.some.inj hp)⟩
  | sending m rest =>
    cases rest with
    | nil =>
      obtain ⟨rfl, rfl⟩ := Activity.next_done h
      exact ⟨.idle, .published, rfl⟩
    | cons dst rest =>
      rcases Activity.next_sendto h with ⟨rfl, rfl⟩ | ⟨e, rfl, rfl⟩
      · exact ⟨.sending m rest, .send, rfl⟩
      · exact ⟨.sending m rest, .sendFails, rfl⟩
  | listening =>
    rw [once_activity] at h
    rcases Activity.next_recvfrom h with ⟨p, rfl, rfl⟩ | ⟨rfl, rfl⟩
    · exact ⟨F.handle i p, .handle p, F.handle_activity D i p⟩
    · refine ⟨.quiet, .timesOut, ?_⟩
      rw [receivedMessage_failed]
      rfl
  | calling m rest =>
    cases rest with
    | nil =>
      obtain ⟨rfl, rfl⟩ := Activity.next_done h
      exact ⟨.idle, .called, rfl⟩
    | cons cb rest =>
      obtain ⟨rfl, rfl⟩ := Activity.next_callback h
      exact ⟨.calling m rest, .call, rfl⟩
  | quiet =>
    obtain ⟨rfl, rfl⟩ := Activity.next_done h
    exact ⟨.idle, .quiet, rfl⟩

def phases : Phases (F.deployment D) where
  Phase := Phase A K
  activity := F.activity D
  initial := .idle
  Move := F.Move
  activity_initial _ := rfl
  simulates := F.simulates D

end Feed

end Marko
