import Marko.DatagramArrivals
import Marko.PymarkoText

/-! `Publisher` and `PublisherThread` of `pymarko/udpsocket.py`. The list `clientaddr` is
passed along; what the thread prints is left out. -/
namespace Pymarko

open Datagram Interaction

variable {K V σ : Type}

/-- `xs.remove(x)`: the first occurrence goes. -/
def listRemove {α : Type} [DecidableEq α] (xs : List α) (x : α) : Except PyError (List α) :=
  if x ∈ xs then .ok (xs.erase x) else .error (.valueError "list.remove(x): x not in list")

namespace Publisher

def publish (socket : UDPSocket) (clientaddr : List Address) (data : Bytes) : Py K V Unit :=
  forM clientaddr fun addr => do
    -- a send that raises takes the loop with it
    let _ ← socket.sendto data addr
    pure ()

/-- The loop goes on after a send that returned, and ends with one that raised. -/
theorem run_publish_cons (socket : UDPSocket) (addr : Address) (rest : List Address)
    (data : Bytes) :
    (publish socket (addr :: rest) data : Py K V Unit).run =
      (do let _ ← socket.sendto data addr; pure () : Py K V Unit).run >>= fun r =>
        match r with
        | .ok _ => (publish socket rest data : Py K V Unit).run
        | .error e => .done (.error e) := by
  unfold publish
  rw [List.forM_cons, ExceptT.run_bind]
  apply bind_congr
  intro r
  cases r <;> rfl

theorem run_publish_single (socket : UDPSocket) (address : Address) (data : Bytes) :
    (publish socket [address] data : Py K V Unit).run =
      UDPSocket.sendPieces address (socket.outcome data) (socket.pieces data) := by
  rw [← UDPSocket.run_sendto_statement, publish, List.forM_cons, List.forM_nil, bind_pure_unit]

theorem publish_fits (socket : UDPSocket) {h : Handler (sig Address K V) σ}
    (hsend : UDPSocket.SendsSucceed h) (clientaddr : List Address) {data : Bytes}
    (hlen : data.length ≤ socket.maxPacketSize) (s : σ) :
    (((publish socket clientaddr data : Py K V Unit).run).exec h s).1 = .ok () ∧
      sends (((publish socket clientaddr data : Py K V Unit).run).trace h s) =
        clientaddr.map fun addr => (data, addr) := by
  obtain ⟨s', hexec, htrace⟩ := forM_ok (fun addr => [.sendto data addr 0]) clientaddr
    (fun addr _ => socket.sendto_statement hsend addr hlen) s
  constructor
  · exact congrArg Prod.fst hexec
  · rw [publish, htrace, ← List.map_eq_flatMap, sends_map_sendto]

theorem publish_oversize (socket : UDPSocket) (h : Handler (sig Address K V) σ)
    {clientaddr : List Address} (hne : clientaddr ≠ []) {data : Bytes}
    (hlen : socket.maxPacketSize < data.length) (s : σ) :
    (((publish socket clientaddr data : Py K V Unit).run).exec h s).1 ≠ .ok () := by
  have hround : ∀ addr s,
      (((do let _ ← socket.sendto data addr; pure () : Py K V Unit).run).exec h s).1 = .ok () ↔
        False :=
    fun addr s => iff_false_intro (socket.sendto_statement_raises h addr hlen s)
  rw [publish, ne_eq, forM_returns_iff (fun _ => False) clientaddr hround s]
  obtain ⟨addr, haddr⟩ := List.exists_mem_of_ne_nil clientaddr hne
  exact fun hall => hall addr haddr

end Publisher

namespace PublisherThread

/-- The body of the loop in `__listen`: an empty datagram and one that is not text are passed
over, and so is a shutdown from an address that is not on the list. -/
def heard (clientaddr : List Address) (data : Bytes) (addr : Address) : List Address :=
  if data = [] then clientaddr
  else
    match decodeUtf8 data with
    | .error _ => clientaddr
    | .ok msg =>
      -- there is no test that the address is new
      if msg = "subscribe" then clientaddr ++ [addr]
      else if msg = "shutdown" then
        match listRemove clientaddr addr with
        | .ok clientaddr => clientaddr
        | .error _ => clientaddr
      else clientaddr

/-- One round of the loop. `recvfrom` returns an address whenever it returns data. -/
def listenOnce (clientaddr : List Address) : Py K V (List Address) := do
  match ← UDPSocket.recvfrom 100 with
  | (some data, some addr) => pure (heard clientaddr data addr)
  | _ => pure clientaddr

def listen : ℕ → List Address → Py K V (List Address)
  | 0, clientaddr => pure clientaddr
  | n + 1, clientaddr => do
    let clientaddr ← listenOnce clientaddr
    listen n clientaddr

end PublisherThread

end Pymarko
