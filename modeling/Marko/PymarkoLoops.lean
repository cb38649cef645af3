import Marko.PymarkoUDPSocket

/-! The receive loops of `Subscriber` and `Reply` of `pymarko/udpsocket.py`, one round at a
time, over the list that `self.cb` names. A callback may return a message. -/
namespace Pymarko

open Datagram Interaction

variable {K : Type}

def invoke (callback : K) (data : Bytes) : Py K (Option Bytes) (Option Bytes) :=
  ExceptT.lift (Sys.callback callback data)

/-- A round of either loop: data that is not empty goes to every callback on the list. -/
def round (handle : Bytes → Address → K → Py K (Option Bytes) Unit) (cb : List K)
    (datasize : ℕ) : Py K (Option Bytes) Unit := do
  match ← UDPSocket.recvfrom datasize with
  | (some data, some addr) =>
    if data.length = 0 then pure () else forM cb (handle data addr)
  | _ => pure ()

namespace Subscriber

def notify (data : Bytes) (_addr : Address) (callback : K) : Py K (Option Bytes) Unit := do
  let _ ← invoke callback data
  pure ()

def loopOnce (cb : List K) (datasize : ℕ) : Py K (Option Bytes) Unit := round notify cb datasize

end Subscriber

namespace Reply

/-- What the callback returns, if anything, is sent to where the data came from. -/
def respond (socket : UDPSocket) (data : Bytes) (addr : Address) (callback : K) :
    Py K (Option Bytes) Unit := do
  match ← invoke callback data with
  | some reply =>
    let _ ← socket.sendto reply addr
    pure ()
  | none => pure ()

def loopOnce (socket : UDPSocket) (cb : List K) (datasize : ℕ) : Py K (Option Bytes) Unit :=
  round (respond socket) cb datasize

end Reply

def heard (datasize : ℕ) : Arrival Address → Option (Bytes × Address)
  | .datagram payload src =>
    if payload.take datasize = [] then none else some (payload.take datasize, src)
  | .timeout => none

abbrev roundKernel (reply : K → Bytes → Option Bytes) :
    Handler (sig Address K (Option Bytes)) (List (Arrival Address) × Unit) :=
  arriving reply acceptAll

theorem callbacks_flatMap {α : Type} (calls : α → List (Call Address K)) (xs : List α) :
    callbacks (xs.flatMap calls) = xs.flatMap fun x => callbacks (calls x) := by
  induction xs with
  | nil => rfl
  | cons x xs ih => rw [List.flatMap_cons, callbacks_append, ih, List.flatMap_cons]

/-- The receive of a round, and what the round goes on with after each answer. -/
theorem run_round (handle : Bytes → Address → K → Py K (Option Bytes) Unit) (cb : List K)
    (datasize : ℕ) :
    ∃ k, (round handle cb datasize).run = .call (.recvfrom datasize 0) k ∧
    (∀ data addr, k (.received data addr) =
      if data = [] then .done (.ok ()) else (forM cb (handle data addr) : Py K _ Unit).run) ∧
    k (.failed .again) = .done (.ok ()) := by
  refine ⟨fun ans => (ExceptT.mk (UDPSocket.handleRecv ans) >>= fun
    | (some data, some addr) => if data.length = 0 then pure () else forM cb (handle data addr)
    | _ => pure ()).run, ?_, ?_, rfl⟩
  · rw [round, ExceptT.run_bind, UDPSocket.run_recvfrom, Program.call_bind]
    rfl
  -- an empty datagram and a timeout end the round at once
  · intro data addr
    cases data with
    | nil => rfl
    | cons b data => rfl

theorem run_notify_cons (data : Bytes) (addr : Address) (callback : K) (rest : List K) :
    (forM (callback :: rest) (Subscriber.notify data addr) : Py K _ Unit).run =
      .call (.callback callback data) fun _ =>
        (forM rest (Subscriber.notify data addr) : Py K _ Unit).run := rfl

/-- One callback of the loop over them: its reply, when there is one that fits into a packet,
is one datagram before the loop goes on. -/
theorem Reply.run_respond_cons (socket : UDPSocket) (data : Bytes) (addr : Address) (callback : K)
    (rest : List K) : ∃ k,
    (forM (callback :: rest) (Reply.respond socket data addr) : Py K _ Unit).run =
      .call (.callback callback data) k ∧
    k none = (forM rest (Reply.respond socket data addr) : Py K _ Unit).run ∧
    ∀ r, r.length ≤ socket.maxPacketSize → k (some r) = .call (.sendto r addr 0) fun ans =>
      match Sock.sendResult ans with
      | .ok _ => (forM rest (Reply.respond socket data addr) : Py K _ Unit).run
      | .error e => .done (.error e) := by
  refine ⟨fun v => ((match v with
    | some r => do let _ ← socket.sendto r addr; pure ()
    | none => pure () : Py K (Option Bytes) Unit) >>= fun _ =>
      (forM rest (Reply.respond socket data addr) : Py K _ Unit)).run, ?_, rfl, ?_⟩
  · rw [List.forM_cons, ExceptT.run_bind]
    apply Program.call_congr
    intro v
    cases v <;> rfl
  -- a reply that fits is a single send
  · intro r hlen
    simp only [bind_assoc]
    rw [ExceptT.run_bind, socket.run_sendto_small addr hlen, Program.call_bind]
    apply Program.call_congr
    intro ans
    cases ans <;> rfl

section Rounds

variable (reply : K → Bytes → Option Bytes)
  (handle : Bytes → Address → K → Py K (Option Bytes) Unit)
  (cb : List K) {datasize : ℕ} {a : Arrival Address} {data : Bytes} {addr : Address}

theorem round_quiet (ha : heard datasize a = none) :
    (((round handle cb datasize).run).exec (roundKernel reply) ([a], ())).1 = .ok () ∧
      callbacks (((round handle cb datasize).run).trace (roundKernel reply) ([a], ())) = [] := by
  rw [round, UDPSocket.exec_recvfrom_bind, UDPSocket.trace_recvfrom_bind]
  -- nothing came, or an empty datagram, or `datasize` is zero
  cases a with
  | timeout => exact ⟨rfl, rfl⟩
  | datagram payload src =>
    have hnil : payload.take datasize = [] := by
      by_contra hne
      rw [heard, if_neg hne] at ha
      cases ha
    simp only [UDPSocket.received, hnil]
    exact ⟨rfl, rfl⟩

theorem round_heard (ha : heard datasize a = some (data, addr)) :
    (((round handle cb datasize).run).exec (roundKernel reply) ([a], ())).1 =
        (((forM cb (handle data addr) : Py K _ Unit).run).exec (roundKernel reply) ([], ())).1 ∧
      callbacks (((round handle cb datasize).run).trace (roundKernel reply) ([a], ())) =
        callbacks (((forM cb (handle data addr) : Py K _ Unit).run).trace (roundKernel reply)
          ([], ())) := by
  rw [round, UDPSocket.exec_recvfrom_bind, UDPSocket.trace_recvfrom_bind, callbacks_recvfrom]
  cases a with
  | timeout => cases ha
  | datagram payload src =>
    by_cases hnil : payload.take datasize = []
    · rw [heard, if_pos hnil] at ha
      cases ha
    · rw [heard, if_neg hnil] at ha
      obtain ⟨rfl, rfl⟩ := Prod.mk.inj (Option.some.inj ha)
      have hlen : (payload.take datasize).length ≠ 0 := mt List.length_eq_zero_iff.mp hnil
      simp only [UDPSocket.received, if_neg hlen]
      exact ⟨trivial, trivial⟩

/-- A round of a subscriber that finds data runs every callback on the list. -/
theorem subscriber_round (ha : heard datasize a = some (data, addr)) :
    (((Subscriber.loopOnce cb datasize).run).exec (roundKernel reply) ([a], ())).1 = .ok () ∧
      callbacks (((Subscriber.loopOnce cb datasize).run).trace (roundKernel reply) ([a], ())) =
        cb.map fun callback => (callback, data) := by
  obtain ⟨hexec, htrace⟩ := round_heard reply Subscriber.notify cb ha
  have hnotify : ∀ callback ∈ cb, ∀ s, ∃ s',
      ((Subscriber.notify data addr callback).run).exec (roundKernel reply) s = (.ok (), s') ∧
      ((Subscriber.notify data addr callback).run).trace (roundKernel reply) s =
        [.callback callback data] := fun _ _ s => ⟨s, rfl, rfl⟩
  obtain ⟨s', hloop, hcalls⟩ :=
    forM_ok (fun callback => [.callback callback data]) cb hnotify ([], ())
  rw [Subscriber.loopOnce, hexec, htrace, hloop, hcalls, callbacks_flatMap]
  exact ⟨rfl, List.map_eq_flatMap.symm⟩

def ReplyFits (reply : K → Bytes → Option Bytes) (limit : ℕ) (data : Bytes) (callback : K) :
    Prop :=
  ∀ r, reply callback data = some r → r.length ≤ limit

variable (socket : UDPSocket)

theorem run_respond (callback : K) : (Reply.respond socket data addr callback).run =
    .call (.callback callback data) fun
      | some r => (do let _ ← socket.sendto r addr; pure () : Py K (Option Bytes) Unit).run
      | none => .done (.ok ()) := by
  apply Program.call_congr
  intro v
  cases v <;> rfl

theorem respond_round (addr : Address) {callback : K}
    (hfits : ReplyFits reply socket.maxPacketSize data callback)
    (s : List (Arrival Address) × Unit) :
    ∃ s', ((Reply.respond socket data addr callback).run).exec (roundKernel reply) s =
        (.ok (), s') ∧
      ((Reply.respond socket data addr callback).run).trace (roundKernel reply) s =
        .callback callback data :: ((reply callback data).map fun r =>
          (Call.sendto r addr 0 : Call Address K)).toList := by
  simp only [run_respond, Program.exec_call, Program.trace_call, roundKernel, arriving]
  cases hr : reply callback data with
  | none => exact ⟨s, rfl, rfl⟩
  | some r =>
    obtain ⟨s', hexec, htrace⟩ := socket.sendto_statement (h := roundKernel reply)
      (fun _ _ _ _ => rfl) addr (hfits r hr) s
    exact ⟨s', hexec, congrArg _ htrace⟩

theorem respond_returns_iff (callback : K) (s : List (Arrival Address) × Unit) :
    (((Reply.respond socket data addr callback).run).exec (roundKernel reply) s).1 = .ok () ↔
      ReplyFits reply socket.maxPacketSize data callback := by
  constructor
  · intro hok r hr
    by_contra hlen
    rw [run_respond, Program.exec_call] at hok
    simp only [roundKernel, arriving, hr] at hok
    exact socket.sendto_statement_raises _ addr (Nat.lt_of_not_le hlen) s hok
  · intro hfits
    obtain ⟨s', hexec, -⟩ := respond_round reply socket addr hfits s
    exact congrArg Prod.fst hexec

/-- A round of a reply object that finds data returns exactly when every reply fits, and then
it has run every callback on the list. -/
theorem reply_round (ha : heard datasize a = some (data, addr)) :
    (((Reply.loopOnce socket cb datasize).run).exec (roundKernel reply) ([a], ())).1 = .ok () ↔
      ∀ callback ∈ cb, ReplyFits reply socket.maxPacketSize data callback := by
  rw [Reply.loopOnce, (round_heard reply _ cb ha).1]
  exact forM_returns_iff _ cb (fun callback s => respond_returns_iff reply socket callback s) _

theorem reply_round_callbacks (ha : heard datasize a = some (data, addr))
    (hfits : ∀ callback ∈ cb, ReplyFits reply socket.maxPacketSize data callback) :
    callbacks (((Reply.loopOnce socket cb datasize).run).trace (roundKernel reply) ([a], ())) =
      cb.map fun callback => (callback, data) := by
  obtain ⟨s', -, hcalls⟩ := forM_ok _ cb
    (fun callback hcb s => respond_round reply socket addr (hfits callback hcb) s) ([], ())
  -- a callback may be followed by the send of its reply, which is no callback
  have hcall : ∀ callback, callbacks (.callback callback data ::
      ((reply callback data).map fun r => (Call.sendto r addr 0 : Call Address K)).toList) =
        [(callback, data)] := by
    intro callback
    cases reply callback data <;> rfl
  rw [Reply.loopOnce, (round_heard reply _ cb ha).2, hcalls, callbacks_flatMap,
    List.map_eq_flatMap]
  simp only [hcall]

end Rounds

end Pymarko
