import Marko.PymarkoPublisher

/-! Publishing when the operating system refuses some destinations. -/
namespace Pymarko

open Datagram Interaction

variable {K V σ : Type}

namespace Publisher

def verdict (refuses : Address → Option Errno) (msg : Bytes) (dst : Address) : SendAnswer :=
  match refuses dst with
  | none => .sent msg.length
  | some e => .failed e

/-- A kernel that refuses a destination with its error, and accepts every other one. -/
def refusing (refuses : Address → Option Errno) (msg : Bytes) (dst : Address) (s : σ) :
    SendAnswer × σ :=
  (verdict refuses msg dst, s)

def delivered (refuses : Address → Option Errno) (attempts : List (Bytes × Address)) :
    List (Bytes × Address) :=
  attempts.filter fun m => refuses m.2 = none

/-- What publishing owes the clients: one attempt at each, in order, so that whoever can be
reached gets the payload. -/
structure ReachesAll (refuses : Address → Option Errno) (clientaddr : List Address) (data : Bytes)
    (attempts : List (Bytes × Address)) : Prop where
  attempted : attempts = clientaddr.map fun addr => (data, addr)
  reached : ∀ addr ∈ clientaddr, refuses addr = none → (data, addr) ∈ delivered refuses attempts

theorem reachesAll_of_attempted {refuses : Address → Option Errno} {clientaddr : List Address}
    {data : Bytes} {attempts : List (Bytes × Address)}
    (h : attempts = clientaddr.map fun addr => (data, addr)) :
    ReachesAll refuses clientaddr data attempts where
  attempted := h
  reached addr haddr hok := by
    subst h
    apply List.mem_filter.mpr
    exact ⟨List.mem_map_of_mem haddr, decide_eq_true hok⟩

/-- The addresses the loop gets to: it ends at the first refusal. -/
def visited (refuses : Address → Option Errno) : List Address → List Address
  | [] => []
  | addr :: rest => addr :: if refuses addr = none then visited refuses rest else []

/-- Only a refusal of the last address leaves nobody out. -/
theorem visited_eq_self_iff (refuses : Address → Option Errno) (clientaddr : List Address) :
    visited refuses clientaddr = clientaddr ↔
      ∀ addr ∈ clientaddr.dropLast, refuses addr = none := by
  induction clientaddr with
  | nil => simp [visited]
  | cons addr rest ih =>
    rw [visited, List.cons.injEq, and_iff_right rfl]
    cases rest with
    -- the last address is visited whatever it is answered
    | nil => simp [visited]
    | cons next rest =>
      rw [List.dropLast_cons_cons, List.forall_mem_cons, ← ih]
      split_ifs with hok
      · exact (and_iff_right hok).symm
      · apply iff_of_false
        · exact not_false
        · exact fun h => hok h.1

variable (socket : UDPSocket) (cb : K → Bytes → V) (refuses : Address → Option Errno)

theorem run_publish_cons_fits {data : Bytes} (hlen : data.length ≤ socket.maxPacketSize)
    (addr : Address) (rest : List Address) :
    (publish socket (addr :: rest) data : Py K V Unit).run =
      .call (.sendto data addr 0) fun ans =>
        match Sock.sendResult ans with
        | .ok _ => (publish socket rest data : Py K V Unit).run
        | .error e => .done (.error e) := by
  rw [run_publish_cons, ExceptT.run_bind, UDPSocket.run_sendto_small socket addr hlen,
    Program.call_bind, Program.call_bind]
  apply Program.call_congr
  intro ans
  cases ans <;> rfl

theorem sends_publish {data : Bytes} (hlen : data.length ≤ socket.maxPacketSize)
    (clientaddr : List Address) (w : List (Arrival Address) × σ) :
    sends ((publish socket clientaddr data : Py K V Unit).run.trace
      (arriving cb (refusing refuses)) w) =
      (visited refuses clientaddr).map fun addr => (data, addr) := by
  induction clientaddr with
  | nil => rfl
  | cons addr rest ih =>
    rw [run_publish_cons_fits socket hlen, Program.trace_call, visited]
    have hans : arriving (V := V) cb (refusing refuses) (.sendto data addr 0) w =
        (verdict refuses data addr, w) := rfl
    rw [hans]
    unfold verdict
    cases refuses addr with
    -- accepted: the loop goes on with the rest
    | none =>
      rw [if_pos rfl, List.map_cons, ← ih]
      rfl
    -- refused: the exception is the end of the loop
    | some e =>
      rw [if_neg (Option.some_ne_none e)]
      rfl

/-- Publishing reaches everyone exactly when no address but the last is refused: the first
refusal is raised out of the loop. -/
theorem publish_reaches_all_iff {data : Bytes} (hlen : data.length ≤ socket.maxPacketSize)
    (clientaddr : List Address) (w : List (Arrival Address) × σ) :
    ReachesAll refuses clientaddr data (sends ((publish socket clientaddr data :
        Py K V Unit).run.trace (arriving cb (refusing refuses)) w)) ↔
      ∀ addr ∈ clientaddr.dropLast, refuses addr = none := by
  have hinj : Function.Injective fun addr : Address => (data, addr) :=
    fun _ _ h => congrArg Prod.snd h
  -- both sides say that the loop visits the whole list
  rw [sends_publish socket cb refuses hlen, ← visited_eq_self_iff]
  constructor
  · exact fun h => hinj.list_map h.attempted
  · exact fun h => reachesAll_of_attempted (congrArg (List.map _) h)

/-- Three clients of which the last is unreachable. -/
theorem publish_reaches_all_but_last :
    ReachesAll (fun addr => if addr.2 = 3 then some .connRefused else none)
      [("a", 1), ("b", 2), ("c", 3)] [7]
      (sends ((publish ⟨4, by decide⟩ [("a", 1), ("b", 2), ("c", 3)] [7] :
        Py Unit Unit Unit).run.trace (arriving (fun _ _ => ()) (refusing fun addr =>
          if addr.2 = 3 then some .connRefused else none)) ([], ()))) :=
  (publish_reaches_all_iff ⟨4, by decide⟩ (fun _ _ => ())
    (fun addr => if addr.2 = 3 then some .connRefused else none) (by decide)
    [("a", 1), ("b", 2), ("c", 3)] ([], ())).mpr (by decide)

/-- With the unreachable client first, the other one gets nothing. -/
theorem unreachable_client_starves_next :
    ¬ ReachesAll (fun addr => if addr.2 = 3 then some .connRefused else none)
      [("c", 3), ("a", 1)] [7]
      (sends ((publish ⟨4, by decide⟩ [("c", 3), ("a", 1)] [7] :
        Py Unit Unit Unit).run.trace (arriving (fun _ _ => ()) (refusing fun addr =>
          if addr.2 = 3 then some .connRefused else none)) ([], ()))) := by
  intro h
  have hattempts : [(([7] : Bytes), (("c", 3) : Address))] =
      [([7], ("c", 3)), ([7], ("a", 1))] := h.attempted
  exact absurd hattempts (by decide)

end Publisher

end Pymarko
