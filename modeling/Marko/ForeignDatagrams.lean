import Marko.MarkoRequestReply
import Marko.PymarkoRequest

/-! A request call whose socket anybody may send to: datagrams with any source reach the
receive queue before the call, between its send and its receive, and while it waits. -/
namespace Marko

open Datagram Interaction

abbrev Arriving (A : Type) := Bytes × A

/-- The requester's receive queue, what arrives before each of its next calls completes, and
the rest of the kernel. -/
structure Inbox (A σ : Type) where
  queue : List (Arriving A)
  coming : List (List (Arriving A))
  kernel : σ

namespace Inbox

variable {A σ : Type}

def arrive (i : Inbox A σ) : Inbox A σ :=
  ⟨i.queue ++ i.coming.headD [], i.coming.tail, i.kernel⟩

def arrivals (i : Inbox A σ) : List (Arriving A) := i.arrive.arrive.queue

/-- The kernel's answer to a receive that finds these datagrams: their head, or a failure
when nothing came within the timeout. -/
def headAnswer (size : ℕ) (ds : List (Arriving A)) : RecvAnswer A :=
  match ds.head? with
  | none => .failed .again
  | some d => .received (d.1.take size) d.2

/-- Sends may succeed or fail as `send` decides; a receive takes the head of the queue. -/
def receiving (send : Bytes → A → σ → SendAnswer × σ) : Handler (sig A Unit Unit) (Inbox A σ)
  | .sendto msg dst _, i =>
    ((send msg dst i.kernel).1, { i.arrive with kernel := (send msg dst i.kernel).2 })
  | .recvfrom size _, i =>
    (headAnswer size i.arrive.queue, { i.arrive with queue := i.arrive.queue.tail })
  | .bind _, i => ((-1 : ℤ), i)
  | .getpeername, i => (none, i)
  | .setsockopt .., i => ((-1 : ℤ), i)
  | .callback _ _, i => ((), i)

/-- Whatever the send is answered, the receive after it sees the arrivals of the call. -/
theorem receive_after_send (send : Bytes → A → σ → SendAnswer × σ) (msg : Bytes) (dst : A)
    (size : ℕ) (i : Inbox A σ) :
    (receiving send (.recvfrom size 0) (receiving send (.sendto msg dst 0) i).2).1 =
      headAnswer size i.arrivals := rfl

end Inbox

section Peer

variable {A : Type} [DecidableEq A]

def FirstFrom (addr : A) (ds : List (Arriving A)) : Prop := ∀ d ∈ ds.head?, d.2 = addr

def fromPeer (addr : A) (ds : List (Arriving A)) : List (Arriving A) :=
  ds.filter fun d => d.2 = addr

theorem head?_fromPeer {addr : A} {ds : List (Arriving A)} (hfirst : FirstFrom addr ds) :
    (fromPeer addr ds).head? = ds.head? := by
  cases ds with
  | nil => rfl
  | cons d ds =>
    -- the filter keeps the head, so it is the head of what is kept
    have hd : d.2 = addr := hfirst d rfl
    simp only [fromPeer, List.filter_cons, hd, decide_true, if_true, List.head?_cons]

end Peer

variable {A σ : Type} (D : SocketDefs)

/-- The peer answered: a non-empty message is what the buffer of `size` bytes holds of a
datagram from `addr`. -/
def AnsweredBy (addr : A) (size : ℕ) (ds : List (Arriving A)) (reply : Message) : Prop :=
  reply ≠ [] → ∃ d ∈ ds, d.2 = addr ∧
    reply = receivedMessage D size (.received (d.1.take size) d.2)

def PyAnsweredBy (addr : Pymarko.Address) (size : ℕ) (ds : List (Arriving Pymarko.Address))
    (reply : Option Bytes) : Prop :=
  ∀ data ∈ reply, data ≠ [] → ∃ d ∈ ds, d.2 = addr ∧ data = d.1.take size

section Calls

variable [Zero A] (send : Bytes → A → σ → SendAnswer × σ)

/-- One call of `Request::request` over UDP, from a state of the requester's socket. -/
def requestReply (size : ℕ) (msg : Message) (addr : A) (i : Inbox A σ) : Message :=
  ((Request.request (socketUDP D) size msg addr).exec (Inbox.receiving send) i).1

theorem requestReply_eq (size : ℕ) (msg : Message) (addr : A) (i : Inbox A σ) :
    requestReply D send size msg addr i =
      receivedMessage D size (Inbox.headAnswer size i.arrivals) := by
  have heq := Request.request_eq (K := Unit) (V := Unit) D .udp size msg addr
  change Request.request (socketUDP D) size msg addr = _ at heq
  rw [requestReply, heq, Program.exec_call, Program.exec_call, Program.exec_done,
    Inbox.receive_after_send]

end Calls

def pyRequestReply (send : Bytes → Pymarko.Address → σ → SendAnswer × σ)
    (socket : Pymarko.UDPSocket) (data : Bytes) (addr : Pymarko.Address) (datasize : ℕ)
    (i : Inbox Pymarko.Address σ) : Except Pymarko.PyError (Option Bytes) :=
  (((Pymarko.Request.request socket data addr datasize :
    Pymarko.Py Unit Unit _).run).exec (Inbox.receiving send) i).1

/-- A Python call that returns at all returns the head of its arrivals, or `None`. -/
theorem pyRequestReply_ok (send : Bytes → Pymarko.Address → σ → SendAnswer × σ)
    (socket : Pymarko.UDPSocket) (data : Bytes) (addr : Pymarko.Address) (datasize : ℕ)
    (i : Inbox Pymarko.Address σ) (reply : Option Bytes)
    (hok : pyRequestReply send socket data addr datasize i = .ok reply) :
    reply = i.arrivals.head?.map fun d => d.1.take datasize := by
  -- no exception was raised, so the send returned and the reply is what `recvfrom` made of the head
  obtain ⟨source, hrecv⟩ := Pymarko.Request.exec_request_ok socket _ data addr datasize i reply hok
  rw [Pymarko.UDPSocket.run_recvfrom, Program.exec_call, Inbox.receive_after_send,
    Inbox.headAnswer] at hrecv
  cases hhead : i.arrivals.head? with
  | none =>
    rw [hhead] at hrecv
    exact (congrArg Prod.fst (Except.ok.inj hrecv)).symm
  | some d =>
    rw [hhead] at hrecv
    exact (congrArg Prod.fst (Except.ok.inj hrecv)).symm

theorem mem_of_head? {ds : List (Arriving A)} {d : Arriving A} (hd : ds.head? = some d) :
    d ∈ ds := List.mem_of_mem_head? (Option.mem_def.mpr hd)

theorem answeredBy_of_firstFrom {addr : A} (size : ℕ) {ds : List (Arriving A)}
    (hfirst : FirstFrom addr ds) :
    AnsweredBy D addr size ds (receivedMessage D size (Inbox.headAnswer size ds)) := by
  intro hne
  cases hhead : ds.head? with
  | none =>
    rw [Inbox.headAnswer, hhead] at hne
    exact absurd (receivedMessage_failed D size .again) hne
  | some d =>
    refine ⟨d, mem_of_head? hhead, hfirst d hhead, ?_⟩
    rw [Inbox.headAnswer, hhead]

theorem pyAnsweredBy_of_firstFrom {addr : Pymarko.Address} (size : ℕ)
    {ds : List (Arriving Pymarko.Address)} (hfirst : FirstFrom addr ds) :
    PyAnsweredBy addr size ds (ds.head?.map fun d => d.1.take size) := by
  intro data hdata _
  obtain ⟨d, hhead, rfl⟩ := Option.map_eq_some_iff.mp hdata
  exact ⟨d, mem_of_head? hhead, hfirst d hhead, rfl⟩

/-- When the peer's datagram is the first in both runs, the runs agree on it as soon as
they agree on what the peer sent. -/
theorem head?_eq_of_fromPeer_eq [DecidableEq A] {addr : A} {ds es : List (Arriving A)}
    (hds : FirstFrom addr ds) (hes : FirstFrom addr es)
    (hsame : fromPeer addr ds = fromPeer addr es) : ds.head? = es.head? := by
  rw [← head?_fromPeer hds, hsame, head?_fromPeer hes]

/-- A request call, in C++ over UDP and in Python, returns the first datagram to reach its
socket, from whatever source. So it is answered by its peer, and its reply depends on no
other sender, in the runs where the peer's datagram comes first. -/
theorem request_returns_first_arrival {T : Type} [Zero A] [DecidableEq A] (D : SocketDefs)
    (send : Bytes → A → σ → SendAnswer × σ) (size : ℕ) (msg : Message) (addr : A)
    (pySend : Bytes → Pymarko.Address → T → SendAnswer × T) (socket : Pymarko.UDPSocket)
    (data : Bytes) (peer : Pymarko.Address) (datasize : ℕ) :
    (∀ i, requestReply D send size msg addr i =
        receivedMessage D size (Inbox.headAnswer size i.arrivals) ∧
      (FirstFrom addr i.arrivals →
        AnsweredBy D addr size i.arrivals (requestReply D send size msg addr i))) ∧
    (∀ i j, FirstFrom addr i.arrivals → FirstFrom addr j.arrivals →
      fromPeer addr i.arrivals = fromPeer addr j.arrivals →
      requestReply D send size msg addr i = requestReply D send size msg addr j) ∧
    (∀ i reply, pyRequestReply pySend socket data peer datasize i = .ok reply →
      reply = (i.arrivals.head?.map fun d => d.1.take datasize) ∧
      (FirstFrom peer i.arrivals → PyAnsweredBy peer datasize i.arrivals reply)) ∧
    (∀ i j reply reply', pyRequestReply pySend socket data peer datasize i = .ok reply →
      pyRequestReply pySend socket data peer datasize j = .ok reply' →
      FirstFrom peer i.arrivals → FirstFrom peer j.arrivals →
      fromPeer peer i.arrivals = fromPeer peer j.arrivals → reply = reply') := by
  refine ⟨?_, ?_, ?_, ?_⟩
  · intro i
    have hreply := requestReply_eq D send size msg addr i
    exact ⟨hreply, fun hfirst => hreply ▸ answeredBy_of_firstFrom D size hfirst⟩
  · intro i j hi hj hsame
    have hhead := head?_eq_of_fromPeer_eq hi hj hsame
    rw [requestReply_eq, requestReply_eq, Inbox.headAnswer, Inbox.headAnswer, hhead]
  · intro i reply hok
    have hreply := pyRequestReply_ok pySend socket data peer datasize i reply hok
    exact ⟨hreply, fun hfirst => hreply ▸ pyAnsweredBy_of_firstFrom datasize hfirst⟩
  · intro i j reply reply' hok hok' hi hj hsame
    rw [pyRequestReply_ok pySend socket data peer datasize i reply hok,
      pyRequestReply_ok pySend socket data peer datasize j reply' hok',
      head?_eq_of_fromPeer_eq hi hj hsame]

/-- Two runs of each call with the peer's answer in the queue; in the second a stranger's
datagram follows it. -/
theorem request_ignores_later_stranger :
    requestReply (A := ℕ) .failure (fun msg _ s => (.sent msg.length, s)) 1 [5] 1
        ⟨[], [[], [([6], 1)]], ()⟩ =
      requestReply (A := ℕ) .failure (fun msg _ s => (.sent msg.length, s)) 1 [5] 1
        ⟨[], [[], [([6], 1), ([9], 2)]], ()⟩ :=
  (request_returns_first_arrival (T := Unit) .failure (fun msg _ s => (.sent msg.length, s)) 1 [5] 1
    (fun msg _ s => (.sent msg.length, s)) ⟨6000, by decide⟩ [5] ("peer", 1) 100).2.1
    ⟨[], [[], [([6], 1)]], ()⟩ ⟨[], [[], [([6], 1), ([9], 2)]], ()⟩
    (fun d hd => by cases hd; rfl) (fun d hd => by cases hd; rfl) rfl

/-- A stranger's datagram that is already queued is returned as the peer's answer, in both
languages. -/
theorem stranger_answers_request :
    ¬ AnsweredBy .failure 1 1 [([9], 2)] (requestReply (A := ℕ) .failure
        (fun msg _ s => (.sent msg.length, s)) 1 [5] 1 ⟨[([9], 2)], [], ()⟩) ∧
    ¬ ∀ reply, pyRequestReply (fun msg _ s => (.sent msg.length, s)) ⟨6000, by decide⟩ [5]
        ("peer", 1) 100 ⟨[([9], ("stranger", 1))], [], ()⟩ = .ok reply →
      PyAnsweredBy ("peer", 1) 100 [([9], ("stranger", 1))] reply := by
  constructor
  · intro h
    obtain ⟨d, hd, hsource, -⟩ := h (List.cons_ne_nil 9 [])
    cases List.mem_singleton.mp hd
    exact absurd hsource (by decide)
  · intro h
    obtain ⟨d, hd, hsource, -⟩ := h (some [9]) rfl [9] rfl (List.cons_ne_nil 9 [])
    cases List.mem_singleton.mp hd
    exact absurd hsource (by decide)

end Marko
