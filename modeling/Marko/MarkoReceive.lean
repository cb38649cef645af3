import Marko.DatagramArrivals
import Marko.MarkoSocket

/-! What the receive functions of both socket classes make of an arriving datagram. -/
namespace Marko

open Datagram Interaction

variable {A K V σ : Type} [Zero A] (D : SocketDefs)

/-- The receive calls a user can make. `SocketUDP::recvfrom` may be given a null address,
`SocketUnix::recvfrom` receives only into a record. -/
inductive Receiving (A : Type) where
  | udpRecvfrom (fromAddr : Option A)
  | udpRecv
  | unixRecvfrom (fromAddr : A)
  | unixRecv
  deriving DecidableEq, Repr

def Receiving.message (msgSize : ℕ) (flags : ℤ) : Receiving A → Prog A K V Message
  | .udpRecvfrom fromAddr => do
    let r ← SocketUDP.recvfrom D msgSize fromAddr flags
    pure r.1
  | .udpRecv => SocketUDP.recv D msgSize flags
  | .unixRecvfrom fromAddr => do
    let r ← SocketUnix.recvfrom D msgSize (some fromAddr) flags
    pure r.1
  | .unixRecv => SocketUnix.recv D msgSize flags

theorem Receiving.message_eq (r : Receiving A) (msgSize : ℕ) (flags : ℤ) :
    r.message (K := K) (V := V) D msgSize flags =
      .call (.recvfrom msgSize flags) fun ans => .done (receivedMessage D msgSize ans) := by
  -- the address record is filled beside the message
  cases r with
  | udpRecvfrom fromAddr => cases fromAddr <;> rfl
  | udpRecv => rfl
  | unixRecvfrom fromAddr => rfl
  | unixRecv => rfl

section Buffer

/-- The buffer is what was written to it only when that fills it. -/
theorem fillBuffer_eq_iff {msgSize : ℕ} {written : Bytes} :
    fillBuffer msgSize written = written ↔ msgSize ≤ written.length := by
  constructor
  · intro h
    have hlen : (fillBuffer msgSize written).length = written.length := congrArg List.length h
    rw [length_fillBuffer] at hlen
    omega
  · intro h
    have hrest : (List.replicate msgSize (0 : UInt8)).drop written.length = [] := by
      apply List.drop_eq_nil_of_le
      rwa [List.length_replicate]
    rw [fillBuffer, hrest, List.append_nil]

/-- Two datagrams fill the buffer alike when the longer one is the shorter one with zeros. -/
theorem fillBuffer_eq_fillBuffer_iff {msgSize : ℕ} {p q : Bytes} (hpq : p.length < q.length)
    (hq : q.length < msgSize) :
    fillBuffer msgSize p = fillBuffer msgSize q ↔
      q = p ++ List.replicate (q.length - p.length) 0 := by
  -- the zeros behind the shorter one, up to the length of the longer one and beyond
  have hrest : msgSize - p.length = (q.length - p.length) + (msgSize - q.length) := by omega
  unfold fillBuffer
  rw [List.drop_replicate, List.drop_replicate, hrest, List.replicate_add, ← List.append_assoc]
  constructor
  · intro h
    exact (List.append_cancel_right h).symm
  · intro h
    rw [← h]

end Buffer

section Arrival

variable (cb : K → Bytes → V) (send : Bytes → A → σ → SendAnswer × σ)

def Receiving.meets (r : Receiving A) (msgSize : ℕ) (flags : ℤ) (p : Bytes) (src : A)
    (rest : List (Arrival A)) (s : σ) : Message :=
  ((r.message D msgSize flags).exec (arriving cb send) (.datagram p src :: rest, s)).1

def reported (msgSize : ℕ) (flags : ℤ) (p : Bytes) (src : A) (rest : List (Arrival A))
    (s : σ) : ℤ :=
  (arriving cb send (.recvfrom msgSize flags) (.datagram p src :: rest, s)).1.num

theorem Receiving.meets_eq (r : Receiving A) (msgSize : ℕ) (flags : ℤ) {p : Bytes} (src : A)
    (rest : List (Arrival A)) (s : σ) (hp : p ≠ []) :
    r.meets D cb send msgSize flags p src rest s = fillBuffer msgSize (p.take msgSize) := by
  unfold Receiving.meets
  rw [Receiving.message_eq, Program.exec_call, Program.exec_done]
  show receivedMessage D msgSize (.received (p.take msgSize) src) = _
  rw [receivedMessage_received]
  split_ifs with htake
  · -- nothing but an empty buffer takes nothing of a datagram
    have hzero : msgSize = 0 := (List.take_eq_nil_iff.mp htake).resolve_right hp
    rw [hzero]
    rfl
  · rfl

/-- The call returns the bytes of `p` that fit into `msgSize`, and no other byte. -/
def Receiving.IsExact (r : Receiving A) (msgSize : ℕ) (flags : ℤ) (p : Bytes) (src : A)
    (rest : List (Arrival A)) (s : σ) : Prop :=
  r.meets D cb send msgSize flags p src rest s = p.take (min p.length msgSize) ∧
    ((r.meets D cb send msgSize flags p src rest s).length : ℤ) =
      reported cb send msgSize flags p src rest s

variable (r : Receiving A) (msgSize : ℕ) (flags : ℤ) {p : Bytes} (src : A)
variable (rest : List (Arrival A)) (s : σ)

theorem isExact_iff (hp : p ≠ []) :
    r.IsExact D cb send msgSize flags p src rest s ↔ msgSize ≤ p.length := by
  have htake : p.take (min p.length msgSize) = p.take msgSize := by
    rw [Nat.min_comm, ← List.take_eq_take_min]
  have hreported : reported cb send msgSize flags p src rest s = (p.take msgSize).length := rfl
  -- the kernel never writes more than the buffer holds
  have hfills : msgSize ≤ (p.take msgSize).length ↔ msgSize ≤ p.length := by
    rw [List.length_take]
    omega
  unfold Receiving.IsExact
  rw [Receiving.meets_eq D cb send r msgSize flags src rest s hp, hreported, htake,
    fillBuffer_eq_iff, hfills]
  constructor
  · exact And.left
  · intro h
    refine ⟨h, ?_⟩
    rw [fillBuffer_eq_iff.mpr (hfills.mpr h)]

theorem meets_ne_iff {q : Bytes} (hp : p ≠ []) (hpq : p.length < q.length)
    (hq : q.length < msgSize) :
    r.meets D cb send msgSize flags p src rest s ≠ r.meets D cb send msgSize flags q src rest s ↔
      q ≠ p ++ List.replicate (q.length - p.length) 0 := by
  have hqne : q ≠ [] := by
    apply List.ne_nil_of_length_pos
    omega
  -- both are shorter than the buffer, so nothing of them is cut
  have htakep : p.take msgSize = p := List.take_of_length_le (by omega)
  have htakeq : q.take msgSize = q := List.take_of_length_le (by omega)
  rw [Receiving.meets_eq D cb send r msgSize flags src rest s hp,
    Receiving.meets_eq D cb send r msgSize flags src rest s hqne, htakep, htakeq]
  exact not_congr (fillBuffer_eq_fillBuffer_iff hpq hq)

end Arrival

/-- Receiving returns exactly what arrived if and only if the datagram fills the buffer, and
shorter datagrams of different lengths are told apart unless they differ by trailing zeros. -/
theorem received_exactly_iff (D : SocketDefs) (cb : K → Bytes → V)
    (send : Bytes → A → σ → SendAnswer × σ) (r : Receiving A) (msgSize : ℕ) (flags : ℤ)
    (p : Bytes) (hp : p ≠ []) (src : A) (rest : List (Arrival A)) (s : σ) :
    (r.IsExact D cb send msgSize flags p src rest s ↔ msgSize ≤ p.length) ∧
      ∀ q : Bytes, p.length < q.length → q.length < msgSize →
        (r.meets D cb send msgSize flags p src rest s ≠
            r.meets D cb send msgSize flags q src rest s ↔
          q ≠ p ++ List.replicate (q.length - p.length) 0) :=
  ⟨isExact_iff D cb send r msgSize flags src rest s hp, fun _ hpq hq =>
    meets_ne_iff D cb send r msgSize flags src rest s hp hpq hq⟩

/-- Two bytes received into a buffer of two are exact, and into a buffer of four they are told
apart from three bytes that do not end in zero. -/
theorem received_exactly_two_bytes :
    (Receiving.udpRecv (A := ℕ)).IsExact .failure (fun _ : Unit => id) acceptAll 2 0 [1, 2] 7
        [] () ∧
      (Receiving.udpRecv (A := ℕ)).meets .failure (fun _ : Unit => id) acceptAll 4 0 [1, 2] 7
          [] () ≠
        (Receiving.udpRecv (A := ℕ)).meets .failure (fun _ : Unit => id) acceptAll 4 0
          [1, 2, 3] 7 [] () :=
  ⟨(received_exactly_iff .failure (fun _ : Unit => id) acceptAll Receiving.udpRecv 2 0 [1, 2]
      (by decide) 7 [] ()).1.mpr (by decide),
    ((received_exactly_iff .failure (fun _ : Unit => id) acceptAll Receiving.udpRecv 4 0 [1, 2]
      (by decide) 7 [] ()).2 [1, 2, 3] (by decide) (by decide)).mpr (by decide)⟩

/-- One byte received into a buffer of four comes back with three zeros behind it. -/
theorem short_datagram_is_padded :
    ¬ (Receiving.unixRecv (A := ℕ)).IsExact .failure (fun _ : Unit => id) acceptAll 4 0 [9] 7
      [] () := by
  intro h
  -- the message has the four bytes of the buffer
  have hmessage : [9, 0, 0, 0] = ([9] : Bytes) := h.1
  exact absurd hmessage (by decide)

end Marko
