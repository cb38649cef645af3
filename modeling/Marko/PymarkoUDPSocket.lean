import Mathlib.Data.List.Basic
import Marko.DatagramArrivals

/-! `UDPSocket` of `pymarko/udpsocket.py`. A Python function is a program that may end with
an exception; `self.sock` is the interpreter's socket object over the kernel's calls. -/
namespace Pymarko

open Datagram Interaction

abbrev Address := String × ℕ

inductive PyError where
  | nameError (text : String)
  | valueError (text : String)
  | unicodeDecodeError
  | socketTimeout
  | connectionRefusedError (text : String)
  | osError (e : Errno)
  deriving DecidableEq, Repr

abbrev Py (K V α : Type) := ExceptT PyError (Program (sig Address K V)) α

variable {K V σ : Type}

section Loops

/-! A `for` loop over a Python list, when one round of it is known. -/

variable {α : Type} {h : Handler (sig Address K V) σ} {body : α → Py K V Unit}

/-- When every round returns, so does the loop, and it makes the calls of all rounds. -/
theorem forM_ok (calls : α → List (Call Address K)) (xs : List α)
    (hbody : ∀ x ∈ xs, ∀ s, ∃ s', ((body x).run).exec h s = (.ok (), s') ∧
      ((body x).run).trace h s = calls x) (s : σ) :
    ∃ s', ((forM xs body : Py K V Unit).run).exec h s = (.ok (), s') ∧
      ((forM xs body : Py K V Unit).run).trace h s = xs.flatMap calls := by
  -- each round starts in the state in which the one before has left the kernel
  induction xs generalizing s with
  | nil => exact ⟨s, rfl, rfl⟩
  | cons x xs ih =>
    obtain ⟨s', hexec, htrace⟩ := hbody x List.mem_cons_self s
    obtain ⟨s'', hexecs, htraces⟩ := ih (fun y hy => hbody y (List.mem_cons_of_mem x hy)) s'
    refine ⟨s'', ?_, ?_⟩
    · rw [List.forM_cons, ExceptT.run_bind, Program.exec_bind, hexec]
      exact hexecs
    · rw [List.forM_cons, ExceptT.run_bind, Program.trace_bind, htrace, hexec, List.flatMap_cons]
      exact congrArg (calls x ++ ·) htraces

theorem forM_returns_iff (returns : α → Prop) (xs : List α)
    (hbody : ∀ x s, (((body x).run).exec h s).1 = .ok () ↔ returns x) (s : σ) :
    (((forM xs body : Py K V Unit).run).exec h s).1 = .ok () ↔ ∀ x ∈ xs, returns x := by
  induction xs generalizing s with
  | nil => simp [ExceptT.run_pure]
  | cons x xs ih =>
    rw [List.forM_cons, ExceptT.run_bind, Program.exec_bind, List.forall_mem_cons, ← hbody x s]
    -- the first round that raises ends the loop
    cases hx : (((body x).run).exec h s).1 with
    | ok u => simpa [hx] using ih _
    | error e => simp

end Loops

namespace Sock

def raiseErrno : Errno → PyError
  | .again => .socketTimeout
  | .connRefused => .connectionRefusedError "[Errno 111] Connection refused"
  | e => .osError e

def sendResult : SendAnswer → Except PyError ℕ
  | .sent count => .ok count
  | .failed e => .error (raiseErrno e)

def recvResult : RecvAnswer Address → Except PyError (Bytes × Address)
  | .received data address => .ok (data, address)
  | .failed e => .error (raiseErrno e)

/-- The socket object's own methods. -/
def sendto (data : Bytes) (address : Address) : Py K V ℕ :=
  ExceptT.mk (sendResult <$> Sys.sendto data address 0)

def recvfrom (size : ℕ) : Py K V (Bytes × Address) :=
  ExceptT.mk (recvResult <$> Sys.recvfrom size 0)

/-- An unconnected socket has no peer: the call fails with `ENOTCONN`. -/
def getpeername : Py K V Address := do
  match ← ExceptT.lift Sys.getpeername with
  | some address => pure address
  | none => throw (.osError (.other 107))

end Sock

def maxPacketSize : ℕ := 6000

/-- The one attribute that the methods read, `self.MAX_PACKET_SIZE`. -/
structure UDPSocket where
  maxPacketSize : ℕ
  pos : 0 < maxPacketSize

namespace UDPSocket

/-- The constructor ignores its own `maxpktsize`. -/
def init (_maxpktsize : ℕ) : UDPSocket := ⟨Pymarko.maxPacketSize, by decide⟩

/-- `data[start:stop]` for `0 <= start <= stop`. -/
def slice (data : Bytes) (start stop : ℕ) : Bytes := (data.drop start).take (stop - start)

def recvfrom (size : ℕ) : Py K V (Option Bytes × Option Address) := do
  try
    let r ← Sock.recvfrom size
    pure (some r.1, some r.2)
  catch
    | .socketTimeout => pure (none, none)
    | .connectionRefusedError _ =>
      let peer ← Sock.getpeername
      throw (.connectionRefusedError s!"*** ConnectionRefusedError {peer.1}:{peer.2} ***")
    | e => throw e

/-- The tail of a long message is sliced from `buffer`, a name that is bound nowhere. -/
def sendto (self : UDPSocket) (data : Bytes) (address : Address) : Py K V ℕ := do
  let dlen := data.length
  if dlen > self.maxPacketSize then
    let split := self.maxPacketSize
    let num := dlen / split
    -- the full fragments leave before the slip shows
    forM (List.range num) fun i => do
      let _ ← Sock.sendto (slice data (i * split) (i * split + split)) address
      pure ()
    throw (.nameError "name 'buffer' is not defined")
  else
    let _ ← Sock.sendto data address
    pure dlen

theorem run_sendto_small (self : UDPSocket) {data : Bytes} (address : Address)
    (hlen : data.length ≤ self.maxPacketSize) :
    (self.sendto data address : Py K V ℕ).run =
      .call (.sendto data address 0) fun ans =>
        .done ((Sock.sendResult ans).map fun _ => data.length) := by
  have hnot : ¬ data.length > self.maxPacketSize := Nat.not_lt.mpr hlen
  simp only [sendto, hnot, if_false]
  apply Program.call_congr
  intro ans
  cases ans <;> rfl

/-- Whatever the kernel answers, a message over the limit ends in an exception. -/
theorem sendto_oversize_raises (self : UDPSocket) (h : Handler (sig Address K V) σ)
    {data : Bytes} (address : Address) (hlen : self.maxPacketSize < data.length) (s : σ) :
    ∃ e, (((self.sendto data address : Py K V ℕ).run).exec h s).1 = .error e := by
  simp only [sendto, gt_iff_lt, hlen, if_true, ExceptT.run_bind, Program.exec_bind]
  split
  · exact ⟨_, rfl⟩
  · exact ⟨_, rfl⟩

/-- The `try` statement of `recvfrom`, answer by answer. -/
def handleRecv : RecvAnswer Address → Program (sig Address K V)
    (Except PyError (Option Bytes × Option Address))
  | .received data address => .done (.ok (some data, some address))
  | .failed .again => .done (.ok (none, none))
  -- the handler of the exception asks for the peer, which may fail in turn
  | .failed .connRefused => .call .getpeername fun
    | some peer => .done (.error (.connectionRefusedError
        s!"*** ConnectionRefusedError {peer.1}:{peer.2} ***"))
    | none => .done (.error (.osError (.other 107)))
  | .failed (.other code) => .done (.error (.osError (.other code)))

theorem run_recvfrom (size : ℕ) :
    (recvfrom size : Py K V _).run = .call (.recvfrom size 0) handleRecv := by
  apply Program.call_congr
  intro ans
  cases ans with
  | received data address => rfl
  | failed e =>
    cases e with
    | again => rfl
    | other code => rfl
    | connRefused =>
      apply Program.call_congr
      intro peer
      cases peer <;> rfl

def received (size : ℕ) : Arrival Address → Option Bytes × Option Address
  | .datagram payload src => (some (payload.take size), some src)
  | .timeout => (none, none)

section Arrivals

variable {α : Type} (cb : K → Bytes → V) (send : Bytes → Address → σ → SendAnswer × σ)
  (size : ℕ) (f : Option Bytes × Option Address → Py K V α) (a : Arrival Address)
  (rest : List (Arrival Address)) (s : σ)

theorem exec_recvfrom_bind :
    ((recvfrom size >>= f).run).exec (arriving cb send) (a :: rest, s) =
      ((f (received size a)).run).exec (arriving cb send) (rest, s) := by
  cases a <;> rfl

theorem trace_recvfrom_bind :
    ((recvfrom size >>= f).run).trace (arriving cb send) (a :: rest, s) =
      .recvfrom size 0 :: ((f (received size a)).run).trace (arriving cb send) (rest, s) := by
  cases a <;> rfl

end Arrivals

def SendsSucceed (h : Handler (sig Address K V) σ) : Prop :=
  ∀ msg dst flags s, (h (.sendto msg dst flags) s).1 = .sent msg.length

theorem run_send_unit (msg : Bytes) (address : Address) :
    (do let _ ← Sock.sendto msg address; pure () : Py K V Unit).run =
      .call (.sendto msg address 0) fun ans =>
        .done ((Sock.sendResult ans).map fun _ => ()) := by
  apply Program.call_congr
  intro ans
  cases ans <;> rfl

/-- The datagrams of one message, as far as `sendto` gets when the kernel accepts them. -/
def pieces (self : UDPSocket) (data : Bytes) : List Bytes :=
  if data.length > self.maxPacketSize then
    (List.range (data.length / self.maxPacketSize)).map fun i =>
      slice data (i * self.maxPacketSize) (i * self.maxPacketSize + self.maxPacketSize)
  else [data]

def outcome (self : UDPSocket) (data : Bytes) : Except PyError Unit :=
  if data.length > self.maxPacketSize then .error (.nameError "name 'buffer' is not defined")
  else .ok ()

/-- One datagram after another, until the kernel refuses one. -/
def sendPieces (address : Address) (result : Except PyError Unit) :
    List Bytes → Program (sig Address K V) (Except PyError Unit)
  | [] => .done result
  | piece :: rest => .call (.sendto piece address 0) fun ans =>
      match Sock.sendResult ans with
      | .ok _ => sendPieces address result rest
      | .error e => .done (.error e)

theorem run_send_loop {α : Type} (address : Address) (e : PyError) (piece : α → Bytes)
    (xs : List α) :
    (do
      forM xs fun x => do
        let _ ← Sock.sendto (piece x) address
        pure ()
      throw e : Py K V Unit).run = sendPieces address (.error e) (xs.map piece) := by
  -- a refused fragment raises at once, and the exception after the loop is not reached
  induction xs with
  | nil => rfl
  | cons x xs ih =>
    rw [List.forM_cons, bind_assoc, ExceptT.run_bind, run_send_unit, Program.call_bind,
      List.map_cons, sendPieces]
    apply Program.call_congr
    intro ans
    cases ans with
    | sent count => exact ih
    | failed e => rfl

/-- The statement `sendto(data, addr)`, whatever the kernel answers. -/
theorem run_sendto_statement (self : UDPSocket) (data : Bytes) (address : Address) :
    (do let _ ← self.sendto data address; pure () : Py K V Unit).run =
      sendPieces address (self.outcome data) (self.pieces data) := by
  -- one datagram, or the fragments and then the exception
  by_cases hlen : data.length ≤ self.maxPacketSize
  · have hnot : ¬ data.length > self.maxPacketSize := Nat.not_lt.mpr hlen
    rw [ExceptT.run_bind, run_sendto_small self address hlen, Program.call_bind, pieces,
      outcome, if_neg hnot, if_neg hnot]
    apply Program.call_congr
    intro ans
    cases ans <;> rfl
  · have hlong : data.length > self.maxPacketSize := Nat.lt_of_not_le hlen
    rw [pieces, outcome, if_pos hlong, if_pos hlong, ← run_send_loop]
    simp only [sendto, if_pos hlong, bind_assoc]
    rfl

theorem send_loop {α : Type} {h : Handler (sig Address K V) σ} (hsend : SendsSucceed h)
    (xs : List α) (piece : α → Bytes) (address : α → Address) (s : σ) :
    ∃ s', ((forM xs fun x => do let _ ← Sock.sendto (piece x) (address x); pure () :
        Py K V Unit).run).exec h s = (.ok (), s') ∧
      ((forM xs fun x => do let _ ← Sock.sendto (piece x) (address x); pure () :
        Py K V Unit).run).trace h s = xs.map fun x => .sendto (piece x) (address x) 0 := by
  have hround : ∀ x ∈ xs, ∀ s, ∃ s', ((do let _ ← Sock.sendto (piece x) (address x); pure () :
      Py K V Unit).run).exec h s = (.ok (), s') ∧
      ((do let _ ← Sock.sendto (piece x) (address x); pure () : Py K V Unit).run).trace h s =
        [.sendto (piece x) (address x) 0] := by
    intro x _ s
    have hans := hsend (piece x) (address x) 0 s
    rw [run_send_unit, Program.exec_call, Program.trace_call, hans]
    exact ⟨_, rfl, rfl⟩
  obtain ⟨s', hexec, htrace⟩ :=
    forM_ok (fun x => [.sendto (piece x) (address x) 0]) xs hround s
  refine ⟨s', hexec, ?_⟩
  rw [htrace]
  exact List.map_eq_flatMap.symm

/-- A message over the limit loses its tail: the full fragments are sent, then the name of
the buffer to take the rest from is not found. -/
theorem sendto_oversize (self : UDPSocket) {h : Handler (sig Address K V) σ}
    (hsend : SendsSucceed h) {data : Bytes} (address : Address)
    (hlen : self.maxPacketSize < data.length) (s : σ) :
    (((self.sendto data address : Py K V ℕ).run).exec h s).1 =
        .error (.nameError "name 'buffer' is not defined") ∧
      sends (((self.sendto data address : Py K V ℕ).run).trace h s) =
        (List.range (data.length / self.maxPacketSize)).map fun i =>
          (slice data (i * self.maxPacketSize) (i * self.maxPacketSize + self.maxPacketSize),
            address) := by
  obtain ⟨s', hexec, htrace⟩ := send_loop hsend (List.range (data.length / self.maxPacketSize))
    (fun i => slice data (i * self.maxPacketSize) (i * self.maxPacketSize + self.maxPacketSize))
    (fun _ => address) s
  constructor
  · simp only [sendto, gt_iff_lt, hlen, if_true, ExceptT.run_bind, Program.exec_bind, hexec,
      ExceptT.run_throw, Program.pure_eq, Program.exec_done]
  · simp only [sendto, gt_iff_lt, hlen, if_true, ExceptT.run_bind, Program.trace_bind, hexec,
      htrace, ExceptT.run_throw, Program.pure_eq, Program.trace_done, List.append_nil]
    exact sends_map_sendto _ _ _ _

/-! A statement `self.socket.sendto(data, addr)` whose number nobody reads. -/

theorem sendto_statement (self : UDPSocket) {h : Handler (sig Address K V) σ}
    (hsend : SendsSucceed h) {data : Bytes} (address : Address)
    (hlen : data.length ≤ self.maxPacketSize) (s : σ) :
    ∃ s', ((do let _ ← self.sendto data address; pure () : Py K V Unit).run).exec h s =
        (.ok (), s') ∧
      ((do let _ ← self.sendto data address; pure () : Py K V Unit).run).trace h s =
        [.sendto data address 0] := by
  have hans := hsend data address 0 s
  simp only [ExceptT.run_bind, run_sendto_small self address hlen, Program.call_bind,
    Program.exec_call, Program.trace_call, hans]
  exact ⟨_, rfl, rfl⟩

theorem sendto_statement_raises (self : UDPSocket) (h : Handler (sig Address K V) σ)
    {data : Bytes} (address : Address) (hlen : self.maxPacketSize < data.length) (s : σ) :
    (((do let _ ← self.sendto data address; pure () : Py K V Unit).run).exec h s).1 ≠ .ok () := by
  obtain ⟨e, he⟩ := sendto_oversize_raises (K := K) (V := V) self h address hlen s
  simp [he, Except.map]

/-- What a fragmented send owes its caller, from the number it returned (or the exception)
and the datagrams it put on the wire. -/
structure SentWhole (limit : ℕ) (data : Bytes) (address : Address)
    (result : Except PyError ℕ) (sent : List (Bytes × Address)) : Prop where
  returned : result = .ok (sent.map fun m => m.1.length).sum
  addressed : ∀ m ∈ sent, m.2 = address
  bounded : ∀ m ∈ sent, m.1.length ≤ limit
  whole : (sent.map Prod.fst).flatten = data
  nonempty : data ≠ [] → ∀ m ∈ sent, m.1 ≠ []

/-- When the kernel accepts every datagram, a message is sent whole exactly when it fits
into one packet. -/
theorem sendto_whole_iff (self : UDPSocket) (h : Handler (sig Address K V) σ)
    (hsend : SendsSucceed h) (data : Bytes) (address : Address) (s : σ) :
    SentWhole self.maxPacketSize data address
      (((self.sendto data address : Py K V ℕ).run).exec h s).1
      (sends (((self.sendto data address : Py K V ℕ).run).trace h s)) ↔
      data.length ≤ self.maxPacketSize := by
  constructor
  · intro hwhole
    by_contra hlen
    -- the exception comes after the full fragments, and nothing is returned
    have hraised := (sendto_oversize self hsend address (Nat.lt_of_not_le hlen) s).1
    rw [hwhole.returned] at hraised
    cases hraised
  · intro hlen
    have hans := hsend data address 0 s
    rw [run_sendto_small self address hlen, Program.exec_call, Program.trace_call, hans]
    have hone (m : Bytes × Address) (hm : m ∈ [(data, address)]) : m = (data, address) :=
      List.mem_singleton.mp hm
    constructor
    · rfl
    · exact fun m hm => congrArg Prod.snd (hone m hm)
    · exact fun m hm => (hone m hm).symm ▸ hlen
    · exact List.append_nil data
    · exact fun hne m hm => (hone m hm).symm ▸ hne

/-- A kernel that accepts everything, and a socket with three-byte packets. -/
def openKernel : Handler (sig Address Unit Unit) Unit
  | .sendto msg _ _, s => (.sent msg.length, s)
  | .recvfrom _ _, s => (.failed .again, s)
  | .bind _, s => ((0 : ℤ), s)
  | .getpeername, s => (none, s)
  | .setsockopt .., s => ((0 : ℤ), s)
  | .callback _ _, s => ((), s)

theorem sendto_whole_three_bytes :
    SentWhole 3 [1, 2, 3] ("host", 9) (((sendto ⟨3, by decide⟩ [1, 2, 3] ("host", 9) :
        Py Unit Unit ℕ).run).exec openKernel ()).1
      (sends (((sendto ⟨3, by decide⟩ [1, 2, 3] ("host", 9) :
        Py Unit Unit ℕ).run).trace openKernel ())) :=
  (sendto_whole_iff ⟨3, by decide⟩ openKernel (fun _ _ _ _ => rfl) [1, 2, 3] ("host", 9)
    ()).mpr (by decide)

/-- Four bytes in three-byte packets: the first packet leaves, and then the call raises. -/
theorem sendto_drops_tail :
    ¬ SentWhole 3 [1, 2, 3, 4] ("host", 9) (((sendto ⟨3, by decide⟩ [1, 2, 3, 4] ("host", 9) :
        Py Unit Unit ℕ).run).exec openKernel ()).1
      (sends (((sendto ⟨3, by decide⟩ [1, 2, 3, 4] ("host", 9) :
        Py Unit Unit ℕ).run).trace openKernel ())) := by
  intro hwhole
  have hraised : Except.error (PyError.nameError "name 'buffer' is not defined") = .ok 3 :=
    hwhole.returned
  cases hraised

end UDPSocket

end Pymarko
