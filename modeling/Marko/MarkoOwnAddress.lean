import Mathlib.Data.List.Pairwise
import Marko.MarkoPubSub

/-! A publisher's destinations against the address its own socket is bound to, over any
history of `bind`, `connect` and `publish` calls. -/
namespace Marko

open Datagram Interaction

variable {A K V : Type}

structure Outcome where
  reusePort : Bool
  reuseAddr : Bool
  bind : Bool
  deriving DecidableEq, Repr

inductive Operation (A : Type) where
  | bind (addr : A) (kernel : Outcome)
  | connect (addr : A) (kernel : Outcome)
  | publish (data : Message)
  deriving DecidableEq, Repr

namespace Operation

def IsPublish : Operation A → Prop
  | .publish _ => True
  | _ => False

/-- The operation gets as far as a kernel bind that goes through on an unbound socket. -/
def Binds : Operation A → Prop
  | .bind _ kernel => kernel.bind = true
  | .connect _ kernel => (kernel.reusePort = true ∨ kernel.reuseAddr = true) ∧ kernel.bind = true
  | .publish _ => False

instance (op : Operation A) : Decidable op.Binds := by
  cases op <;> unfold Binds <;> infer_instance

end Operation

def addressKernel (o : Outcome) : Handler (sig A K Unit) (Option A)
  | .sendto msg _ _, s => (.sent msg.length, s)
  | .recvfrom _ _, s => (.failed .again, s)
  | .bind addr, none => if o.bind then ((0 : ℤ), some addr) else ((-1 : ℤ), none)
  | .bind _, some here => ((-1 : ℤ), some here)
  | .getpeername, s => (none, s)
  | .setsockopt _ .soReusePort _, s => (if o.reusePort then (0 : ℤ) else -1, s)
  | .setsockopt _ .soReuseAddr _, s => (if o.reuseAddr then (0 : ℤ) else -1, s)
  | .callback _ _, s => ((), s)

def Operation.kernel : Operation A → Outcome
  | .bind _ kernel => kernel
  | .connect _ kernel => kernel
  | .publish _ => ⟨false, false, false⟩

def Publisher.perform (p : Publisher A) (S : SocketClass A K V) :
    Operation A → Prog A K V (Publisher A)
  | .bind addr _ => do
    let r ← p.bind S addr
    pure r.2
  | .connect addr _ => do
    let r ← p.connect S addr
    pure r.2
  | .publish data => do
    p.publish S data
    pure p

/-- Perform a history of operations on a UDP publisher. Each is recorded with the address
its socket was bound to and the sends it made. -/
def session [Zero A] (D : SocketDefs) (p : Publisher A) (here : Option A) :
    List (Operation A) → List (Option A × List (Message × A))
  | [] => []
  | op :: ops =>
    let program := p.perform (K := Unit) (socketUDP D) op
    let out := program.exec (addressKernel op.kernel) here
    (here, sends (program.trace (addressKernel op.kernel) here)) :: session D out.1 out.2 ops

def NeverToSelf (records : List (Option A × List (Message × A))) : Prop :=
  ∀ r ∈ records, ∀ m ∈ r.2, r.1 ≠ some m.2

section Steps

variable [Zero A] (D : SocketDefs) (p : Publisher A) (o : Outcome) (here : Option A)

theorem exec_publish_address (data : Message) :
    ((p.publish (K := Unit) (socketUDP D) data).exec (addressKernel o) here).2 = here := by
  have heq := Publisher.publish_eq (K := Unit) (V := Unit) D .udp p data
  change p.publish (socketUDP D) data = _ at heq
  rw [heq]
  -- a send does not bind
  induction p.clientaddrs with
  | nil => rfl
  | cons addr addrs ih => exact ih

/-- The address of the socket after an operation that names `addr`. -/
def addressAfter (op : Operation A) (addr : A) : Option A :=
  if here = none ∧ op.Binds then some addr else here

theorem exec_bind_address (addr : A) :
    (p.perform (K := Unit) (socketUDP D) (.bind addr o)).exec (addressKernel o) here =
      (p.registerAddr addr, addressAfter here (.bind addr o) addr) := by
  obtain ⟨reusePort, reuseAddr, bind⟩ := o
  cases here <;> cases bind <;> rfl

theorem exec_connect_address (addr : A) :
    (p.perform (K := Unit) (socketUDP D) (.connect addr o)).exec (addressKernel o) here =
      (p.registerAddr addr, addressAfter here (.connect addr o) addr) := by
  obtain ⟨reusePort, reuseAddr, bind⟩ := o
  -- connect asks for the reuse options before it binds, and gives up when both are refused
  cases here <;> cases reusePort <;> cases reuseAddr <;> cases bind <;> rfl

theorem session_cons_bind (addr : A) (ops : List (Operation A)) :
    session D p here (.bind addr o :: ops) =
      (here, []) ::
        session D (p.registerAddr addr) (addressAfter here (.bind addr o) addr) ops := by
  have hsends : sends ((p.perform (K := Unit) (socketUDP D) (.bind addr o)).trace
      (addressKernel o) here) = [] := by
    cases here <;> rfl
  have hexec := exec_bind_address D p o here addr
  simp only [session, Operation.kernel, hsends, hexec]

theorem session_cons_connect (addr : A) (ops : List (Operation A)) :
    session D p here (.connect addr o :: ops) =
      (here, []) ::
        session D (p.registerAddr addr) (addressAfter here (.connect addr o) addr) ops := by
  have hsends : sends ((p.perform (K := Unit) (socketUDP D) (.connect addr o)).trace
      (addressKernel o) here) = [] := by
    obtain ⟨reusePort, reuseAddr, bind⟩ := o
    cases here <;> cases reusePort <;> cases reuseAddr <;> rfl
  have hexec := exec_connect_address D p o here addr
  simp only [session, Operation.kernel, hsends, hexec]

theorem session_cons_publish (data : Message) (ops : List (Operation A)) :
    session D p here (.publish data :: ops) =
      (here, p.clientaddrs.map fun addr => (data, addr)) :: session D p here ops := by
  have hsends := Publisher.sends_publish (K := Unit) D .udp
    (addressKernel (Operation.publish data : Operation A).kernel) here p data
  have haddress := exec_publish_address D p (Operation.publish data : Operation A).kernel here data
  simp only [session, Publisher.perform, Program.exec_bind, Program.trace_bind,
    Program.pure_eq, Program.exec_done, Program.trace_done, List.append_nil]
  rw [haddress]
  exact congrArg (fun sent => (here, sent) :: session D p here ops) hsends

end Steps

def KnowsItself (p : Publisher A) (here : Option A) : Prop :=
  ∀ a, here = some a → a ∈ p.clientaddrs

theorem knowsItself_registerAddr {p : Publisher A} {here : Option A} (hp : KnowsItself p here)
    (op : Operation A) (addr : A) :
    KnowsItself (p.registerAddr addr) (addressAfter here op addr) := by
  intro a ha
  rw [Publisher.registerAddr_clientaddrs, List.mem_append]
  unfold addressAfter at ha
  -- either the address was just bound, and just registered, or it was there before
  split_ifs at ha
  · exact Or.inr (List.mem_singleton.mpr (Option.some.inj ha).symm)
  · exact Or.inl (hp a ha)

def Safe (here : Option A) (ops : List (Operation A)) : Prop :=
  ops.Pairwise (fun op later => op.Binds → ¬ later.IsPublish) ∧
    (here ≠ none → ∀ op ∈ ops, ¬ op.IsPublish)

theorem safe_cons_of_address (here : Option A) (op : Operation A) (addr : A)
    (hop : ¬ op.IsPublish) (ops : List (Operation A)) :
    Safe here (op :: ops) ↔ Safe (addressAfter here op addr) ops := by
  unfold Safe addressAfter
  rw [List.pairwise_cons, List.forall_mem_cons]
  split_ifs with hafter
  · -- from here on the socket is bound, so nothing may be published
    obtain ⟨rfl, hbinds⟩ := hafter
    simp only [hbinds, true_imp_iff, ne_eq, not_true_eq_false, false_imp_iff, and_true,
      reduceCtorEq, not_false_eq_true]
    exact and_comm
  -- the operation binds nothing, or the socket was bound before
  · simp only [hop, not_false_eq_true, true_and]
    constructor
    · exact fun h => ⟨h.1.2, h.2⟩
    · refine fun h => ⟨⟨?_, h.1⟩, h.2⟩
      intro later hlater hbinds
      by_cases hnone : here = none
      · exact absurd ⟨hnone, hbinds⟩ hafter
      · exact h.2 hnone later hlater

theorem safe_cons_publish (here : Option A) (data : Message) (ops : List (Operation A)) :
    Safe here (.publish data :: ops) ↔ here = none ∧ Safe here ops := by
  unfold Safe
  rw [List.pairwise_cons, List.forall_mem_cons]
  have hbinds : ¬ (Operation.publish data : Operation A).Binds := id
  have hpublish : (Operation.publish data : Operation A).IsPublish := trivial
  simp only [hbinds, false_imp_iff, implies_true, true_and, hpublish, not_true_eq_false,
    false_and, imp_false, ne_eq, not_not]
  constructor
  · exact fun h => ⟨h.2, h.1, fun hne => absurd h.2 hne⟩
  · exact fun h => ⟨h.2.1, h.1⟩

theorem neverToSelf_cons (r : Option A × List (Message × A))
    (rs : List (Option A × List (Message × A))) :
    NeverToSelf (r :: rs) ↔ (∀ m ∈ r.2, r.1 ≠ some m.2) ∧ NeverToSelf rs :=
  List.forall_mem_cons

theorem neverToSelf_session_iff [Zero A] (D : SocketDefs) (ops : List (Operation A))
    (p : Publisher A) (here : Option A) (hp : KnowsItself p here) :
    NeverToSelf (session D p here ops) ↔ Safe here ops := by
  -- on the operations; `KnowsItself` is what carries over from one to the next
  induction ops generalizing p here with
  | nil => exact ⟨fun _ => ⟨List.Pairwise.nil, fun _ _ h => absurd h List.not_mem_nil⟩,
      fun _ _ h => absurd h List.not_mem_nil⟩
  | cons op ops ih =>
    cases op with
    | bind addr kernel =>
      rw [session_cons_bind, neverToSelf_cons, ih _ _ (knowsItself_registerAddr hp _ addr),
        safe_cons_of_address _ _ addr id]
      exact and_iff_right fun _ h => absurd h List.not_mem_nil
    | connect addr kernel =>
      rw [session_cons_connect, neverToSelf_cons, ih _ _ (knowsItself_registerAddr hp _ addr),
        safe_cons_of_address _ _ addr id]
      exact and_iff_right fun _ h => absurd h List.not_mem_nil
    | publish data =>
      rw [session_cons_publish, neverToSelf_cons, ih p here hp, safe_cons_publish]
      refine and_congr_left fun _ => ?_
      -- the sends go to the whole list, which holds the socket's own address once it has one
      constructor
      · intro hne
        cases here with
        | none => rfl
        | some a => exact absurd rfl (hne (data, a) (List.mem_map_of_mem (hp a rfl)))
      · rintro rfl m _
        exact (Option.some_ne_none m.2).symm

/-- A UDP publisher sends nothing to the address it is bound to exactly when it does not
publish after a `bind` or `connect` whose kernel bind went through: both calls name the
local address and register it as a destination. -/
theorem publisher_never_to_self_iff [Zero A] (D : SocketDefs) (ops : List (Operation A)) :
    NeverToSelf (session D ⟨[]⟩ none ops) ↔
      ops.Pairwise (fun op later => op.Binds → ¬ later.IsPublish) := by
  rw [neverToSelf_session_iff D ops ⟨[]⟩ none fun a ha => absurd ha.symm (Option.some_ne_none a)]
  exact and_iff_left fun h => absurd rfl h

/-- A publisher bound to port 7 publishes to itself. -/
theorem bound_publisher_sends_to_itself :
    ¬ NeverToSelf (session .failure ⟨[]⟩ none [.bind 7 ⟨true, true, true⟩, .publish [1]]) := by
  intro h
  exact h (some 7, [([1], 7)]) (by decide) ([1], 7) (by decide) rfl

end Marko
