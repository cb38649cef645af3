import Marko.DatagramFanOut
import Marko.MarkoPubSub
import Marko.PymarkoLoops
import Marko.PymarkoPublisher

/-! Publishers and subscribers of both libraries, any number of each, as parties of one
network. -/
namespace Marko.Subscriber

open Datagram Interaction

variable {A K : Type}

/-- The callbacks for one datagram, which is cut to the size of the buffer and padded with zeros
to it. -/
def asks (s : Subscriber K) (d : Bytes) : List (K × Bytes) :=
  if d.take s.dataSize = [] then []
  else s.callbacks.map fun cb => (cb, fillBuffer s.dataSize (d.take s.dataSize))

theorem each_callback (m : Message) (cbs : List K) :
    Program.each (S := sig A K Unit) (fun cb => .callback cb m) cbs =
      callAll () (cbs.map fun cb => (cb, m)) := by
  induction cbs with
  | nil => rfl
  | cons cb cbs ih =>
    apply Program.call_congr
    intro v
    exact ih

theorem hears [Zero A] (D : SocketDefs) (t : Transport) (s : Subscriber K) :
    Hears s.asks (s.once (A := A) (t.socketClass D)) := by
  refine ⟨s.dataSize, _, s.once_eq D t, ?_, (), ?_⟩
  swap
  · rw [receivedMessage_failed]
    rfl
  intro bytes src
  refine ⟨(), ?_⟩
  rw [length_receivedMessage, receivedMessage_received, asks]
  by_cases hnil : bytes.take s.dataSize = []
  · rw [if_pos hnil, if_pos hnil, if_pos rfl, if_pos hnil]
    rfl
  · -- a buffer without room would have taken nothing
    have hsize : s.dataSize ≠ 0 := by
      intro hzero
      rw [hzero, List.take_zero] at hnil
      exact hnil rfl
    rw [if_neg hnil, if_neg hnil, if_neg hnil, if_neg hsize]
    exact each_callback _ _

end Marko.Subscriber

namespace Pymarko.Subscriber

open Datagram Interaction

variable {K : Type}

/-- The callbacks for one datagram, which is cut to `datasize` bytes. -/
def asks (cb : List K) (datasize : ℕ) (d : Bytes) : List (K × Bytes) :=
  if d.take datasize = [] then [] else cb.map fun callback => (callback, d.take datasize)

theorem run_forM_notify (data : Bytes) (addr : Address) (cb : List K) :
    (forM cb (notify data addr) : Py K _ Unit).run =
      callAll (.ok ()) (cb.map fun callback => (callback, data)) := by
  induction cb with
  | nil => rfl
  | cons callback rest ih =>
    rw [run_notify_cons]
    apply Program.call_congr
    intro v
    exact ih

theorem hears (cb : List K) (datasize : ℕ) :
    Hears (asks cb datasize) (loopOnce cb datasize).run := by
  obtain ⟨k, hrun, hreceived, htimedOut⟩ := run_round notify cb datasize
  refine ⟨datasize, k, hrun, ?_, .ok (), htimedOut⟩
  intro bytes src
  refine ⟨.ok (), ?_⟩
  rw [hreceived, asks]
  by_cases hnil : bytes.take datasize = []
  · rw [if_pos hnil, if_pos hnil]
    rfl
  · rw [if_neg hnil, if_neg hnil]
    exact run_forM_notify _ src cb

end Pymarko.Subscriber

namespace Interop

open Datagram Interaction Pymarko

/-- The zeroed socket address. -/
instance : Zero Address := ⟨("0.0.0.0", 0)⟩

inductive Station (K : Type) where
  | cppPublisher (p : Marko.Publisher Address)
  | cppSubscriber (s : Marko.Subscriber K)
  | publisher (socket : UDPSocket) (clientaddr : List Address)
  | subscriber (cb : List K) (datasize : ℕ)

inductive Work where
  | publish (data : Bytes)
  | receive
  deriving DecidableEq, Repr

abbrev Result := Except PyError Unit

variable {K : Type}

def Station.body (D : Marko.SocketDefs) :
    Station K → Work → Option (Prog Address K (Option Bytes) Result)
  | .cppPublisher p, .publish data => some (Except.ok <$> p.publish (Marko.socketUDP D) data)
  | .cppSubscriber s, .receive =>
      some (Except.ok <$> (s.once (Marko.socketUDP D)).answering fun _ => ())
  | .publisher socket clientaddr, .publish data =>
      some (Publisher.publish socket clientaddr data).run
  | .subscriber cb datasize, .receive => some (Subscriber.loopOnce cb datasize).run
  | _, _ => none

/-- The datagrams of one call of `publish`. -/
def Station.plan : Station K → Work → List (Bytes × Address)
  | .cppPublisher p, .publish data => p.clientaddrs.map fun addr => (data, addr)
  | .publisher socket clientaddr, .publish data =>
      -- data that does not fit into a packet goes to the first client only, in pieces
      if data.length ≤ socket.maxPacketSize then clientaddr.map fun addr => (data, addr)
      else (clientaddr.take 1).flatMap fun addr => (socket.pieces data).map fun m => (m, addr)
  | _, _ => []

def Station.view : Station K → Bytes → List (K × Bytes)
  | .cppSubscriber s => s.asks
  | .subscriber cb datasize => Subscriber.asks cb datasize
  | _ => fun _ => []

theorem each_sendto (data : Bytes) (addrs : List Address) :
    Program.each (S := sig Address K (Option Bytes)) (fun addr => .sendto data addr 0) addrs =
      sendAll (fun _ => none) () (addrs.map fun addr => (data, addr)) := by
  induction addrs with
  | nil => rfl
  | cons addr addrs ih =>
    apply Program.call_congr
    intro ans
    cases ans <;> exact ih

def stops (e : Errno) : Option Result := some (.error (Sock.raiseErrno e))

theorem run_publish_fits (socket : UDPSocket) (clientaddr : List Address) {data : Bytes}
    (hlen : data.length ≤ socket.maxPacketSize) :
    (Publisher.publish socket clientaddr data : Py K (Option Bytes) Unit).run =
      sendAll stops (.ok ()) (clientaddr.map fun addr => (data, addr)) := by
  induction clientaddr with
  | nil => rfl
  | cons addr rest ih =>
    have hpieces : socket.pieces data = [data] := if_neg (Nat.not_lt.mpr hlen)
    have houtcome : socket.outcome data = .ok () := if_neg (Nat.not_lt.mpr hlen)
    rw [Publisher.run_publish_cons, UDPSocket.run_sendto_statement, hpieces, houtcome]
    apply Program.call_congr
    intro ans
    cases ans with
    | sent count => exact ih
    | failed e => rfl

theorem sendPieces_error (addr : Address) (e : PyError) (pieces : List Bytes)
    (next : Result → Prog Address K (Option Bytes) Result)
    (hnext : ∀ e, next (.error e) = .done (.error e)) :
    UDPSocket.sendPieces addr (.error e) pieces >>= next =
      sendAll stops (.error e) (pieces.map fun m => (m, addr)) := by
  induction pieces with
  | nil => exact hnext e
  | cons m pieces ih =>
    apply Program.call_congr
    intro ans
    cases ans with
    | sent count => exact ih
    | failed err => exact hnext (Sock.raiseErrno err)

theorem run_publish_oversize (socket : UDPSocket) (addr : Address) (rest : List Address)
    {data : Bytes} (hlen : ¬ data.length ≤ socket.maxPacketSize) :
    (Publisher.publish socket (addr :: rest) data : Py K (Option Bytes) Unit).run =
      sendAll stops (socket.outcome data) ((socket.pieces data).map fun m => (m, addr)) := by
  have houtcome : socket.outcome data = .error (.nameError "name 'buffer' is not defined") :=
    if_pos (Nat.lt_of_not_le hlen)
  rw [Publisher.run_publish_cons, UDPSocket.run_sendto_statement, houtcome]
  exact sendPieces_error addr _ _ _ fun _ => rfl

/-- What each program of a station does: a publisher sends its plan, a subscriber calls what it
hears. -/
theorem Station.shape (D : Marko.SocketDefs) (s : Station K) (job : Work)
    (p : Prog Address K (Option Bytes) Result) (hp : s.body D job = some p) :
    (∃ stops result, p = sendAll stops result (s.plan job)) ∨
      (s.plan job = [] ∧ Hears s.view p) := by
  cases s with
  | cppPublisher q =>
    cases job with
    | publish data =>
      have hloop := Marko.Publisher.publish_eq (K := K) (V := Option Bytes) D .udp q data
      refine .inl ⟨fun _ => none, .ok (), ?_⟩
      rw [← Option.some.inj hp]
      have hsends := hloop.trans (each_sendto data q.clientaddrs)
      exact (congrArg (Except.ok <$> ·) hsends).trans (map_sendAll ..)
    | receive => cases hp
  | cppSubscriber q =>
    cases job with
    | publish data => cases hp
    | receive =>
      exact .inr ⟨rfl, Option.some.inj hp ▸ ((q.hears D .udp).answering _).map Except.ok⟩
  | publisher socket clientaddr =>
    cases job with
    | publish data =>
      left
      rw [← Option.some.inj hp, plan]
      split_ifs with hlen
      · exact ⟨stops, .ok (), run_publish_fits socket clientaddr hlen⟩
      · cases clientaddr with
        | nil => exact ⟨stops, .ok (), rfl⟩
        | cons addr rest =>
          refine ⟨stops, socket.outcome data, ?_⟩
          -- the first call of `sendto` raises, so no client after it is sent anything
          rw [run_publish_oversize socket addr rest hlen, List.take_succ_cons, List.take_zero,
            List.flatMap_singleton]
    | receive => cases hp
  | subscriber cb datasize =>
    cases job with
    | publish data => cases hp
    | receive => exact .inr ⟨rfl, Option.some.inj hp ▸ Subscriber.hears cb datasize⟩

/-- Which station is at which address, and what its callbacks return. -/
structure Mesh (K : Type) where
  station : Address → Option (Station K)
  callback : Address → K → Bytes → Option Bytes

namespace Mesh

variable (M : Mesh K)

def plan (i : Address) (job : Work) : List (Bytes × Address) :=
  (M.station i).elim [] fun s => s.plan job

def view (i : Address) (d : Bytes) : List (K × Bytes) := (M.station i).elim [] fun s => s.view d

theorem view_of_station {M : Mesh K} {i : Address} {s : Station K} (hs : M.station i = some s) :
    M.view i = s.view := by
  funext d
  rw [view, hs, Option.elim_some]

def deployment (D : Marko.SocketDefs) : Deployment Address K (Option Bytes) Work Result where
  body i job := (M.station i).bind fun s => s.body D job
  callback := M.callback

def fanOut (D : Marko.SocketDefs) : FanOut (M.deployment D) where
  plan := M.plan
  view := M.view
  shape i job p hp := by
    obtain ⟨s, hs, hbody⟩ := Option.bind_eq_some_iff.mp hp
    have hplan : M.plan i job = s.plan job := by
      rw [plan, hs, Option.elim_some]
    rw [hplan, view_of_station hs]
    exact s.shape D job p hbody

end Mesh

end Interop
