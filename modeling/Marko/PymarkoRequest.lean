import Marko.PymarkoUDPSocket

/-! `Request` of `pymarko/udpsocket.py`. -/
namespace Pymarko

open Datagram Interaction

variable {K V σ : Type}

namespace Request

/-- Send the data and return whatever the next receive yields; its address is dropped. -/
def request (socket : UDPSocket) (data : Bytes) (addr : Address) (datasize : ℕ) :
    Py K V (Option Bytes) := do
  let _ ← socket.sendto data addr
  let r ← UDPSocket.recvfrom datasize
  pure r.1

/-- The second half of `request`, once the data is sent. -/
def receive (datasize : ℕ) : Py K V (Option Bytes) := do
  let r ← UDPSocket.recvfrom datasize
  pure r.1

theorem run_receive (datasize : ℕ) : ∃ k,
    (receive datasize : Py K V _).run = .call (.recvfrom datasize 0) k ∧
      (∀ data addr, k (.received data addr) = .done (.ok (some data))) ∧
      k (.failed .again) = .done (.ok none) := by
  refine ⟨fun ans => (ExceptT.mk (UDPSocket.handleRecv ans) >>= fun r => pure r.1).run, ?_, ?_,
    rfl⟩
  · rw [receive, ExceptT.run_bind, UDPSocket.run_recvfrom, Program.call_bind]
    rfl
  · exact fun _ _ => rfl

/-- Data that fits into one packet is one datagram; only then does the call receive. -/
theorem run_request (socket : UDPSocket) {data : Bytes} (addr : Address) (datasize : ℕ)
    (hlen : data.length ≤ socket.maxPacketSize) :
    (request socket data addr datasize : Py K V _).run =
      .call (.sendto data addr 0) fun ans =>
        match Sock.sendResult ans with
        | .ok _ => (receive datasize).run
        | .error e => .done (.error e) := by
  rw [request, ExceptT.run_bind, UDPSocket.run_sendto_small socket addr hlen, Program.call_bind]
  apply Program.call_congr
  intro ans
  cases ans <;> rfl

theorem exec_request_ok (socket : UDPSocket) (h : Handler (sig Address K V) σ) (data : Bytes)
    (addr : Address) (datasize : ℕ) (s : σ) (reply : Option Bytes)
    (hok : (((request socket data addr datasize : Py K V _).run).exec h s).1 = .ok reply) :
    ∃ source, (((UDPSocket.recvfrom datasize : Py K V _).run).exec h
      (h (.sendto data addr 0) s).2).1 = .ok (reply, source) := by
  -- data that is too long raises, and so does a send that fails
  by_cases hlen : data.length ≤ socket.maxPacketSize
  · simp only [request, ExceptT.run_bind, UDPSocket.run_sendto_small socket addr hlen,
      Program.call_bind, Program.exec_call, Program.done_bind] at hok
    cases hans : (h (.sendto data addr 0) s).1 with
    | failed e =>
      rw [hans] at hok
      cases hok
    | sent count =>
      rw [hans] at hok
      simp only [Sock.sendResult, Except.map, Program.exec_bind] at hok
      split at hok
      · rename_i r hr
        have hreply : r.1 = reply := Except.ok.inj hok
        exact ⟨r.2, hr.trans (by rw [← hreply])⟩
      · cases hok
  · obtain ⟨e, he⟩ := UDPSocket.sendto_oversize_raises (K := K) (V := V) socket h addr
      (Nat.lt_of_not_le hlen) s
    simp only [request, ExceptT.run_bind, Program.exec_bind, he, Program.pure_eq,
      Program.exec_done] at hok
    cases hok

end Request

end Pymarko
