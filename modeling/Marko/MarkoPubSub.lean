import Marko.MarkoSocket

/-! The templates of `pub_sub.hpp`. A subscriber's callbacks are named by `K` and return
nothing; a publisher is the list of addresses that it sends to. -/
namespace Marko

open Datagram Interaction

variable {A K V σ : Type}

structure Subscriber (K : Type) where
  callbacks : List K
  dataSize : ℕ

namespace Subscriber

/-- The constructor. -/
def init (dataSize : ℕ) : Subscriber K := ⟨[], dataSize⟩

def registerCb (s : Subscriber K) (func : K) : Subscriber K :=
  { s with callbacks := s.callbacks ++ [func] }

/-- Receive once and hand a non-empty message to every callback, in registration order. -/
def once (s : Subscriber K) (S : SocketClass A K Unit) : Prog A K Unit Unit := do
  let msg ← S.recv s.dataSize 0
  if msg.length = 0 then pure ()
  else forM s.callbacks fun callback => Sys.callback callback msg

/-- Callbacks stand in the order of their registration. -/
theorem foldl_registerCb (s : Subscriber K) (funcs : List K) :
    funcs.foldl registerCb s = ⟨s.callbacks ++ funcs, s.dataSize⟩ := by
  induction funcs generalizing s with
  | nil => rw [List.append_nil, List.foldl_nil]
  | cons func rest ih =>
    rw [List.foldl_cons, ih, registerCb, List.append_assoc]
    rfl

theorem once_eq [Zero A] (D : SocketDefs) (t : Transport) (s : Subscriber K) :
    s.once (A := A) (t.socketClass D) = .call (.recvfrom s.dataSize 0) fun ans =>
      if (receivedMessage D s.dataSize ans).length = 0 then .done ()
      else Program.each (S := sig A K Unit)
        (fun callback => .callback callback (receivedMessage D s.dataSize ans)) s.callbacks := by
  have hloop (msg : Message) : (forM s.callbacks fun callback => Sys.callback callback msg) =
      Program.each (S := sig A K Unit) (fun callback => .callback callback msg) s.callbacks :=
    Program.forM_eq_each _ _ _ fun _ => rfl
  simp only [← hloop]
  cases t <;> rfl

end Subscriber

structure Publisher (A : Type) where
  clientaddrs : List A
  deriving DecidableEq, Repr

namespace Publisher

def publish (p : Publisher A) (S : SocketClass A K V) (data : Message) : Prog A K V Unit :=
  forM p.clientaddrs fun addr => do
    -- no send stops the loop: the count that it returns is dropped
    let _ ← S.sendto data addr 0
    pure ()

def registerAddr (p : Publisher A) (c : A) : Publisher A :=
  { p with clientaddrs := p.clientaddrs ++ [c] }

/-- The address is registered before the socket is bound, and whatever comes of it. -/
def bind (p : Publisher A) (S : SocketClass A K V) (addr : A) :
    Prog A K V (Bool × Publisher A) := do
  let p := p.registerAddr addr
  let ok ← S.bind addr
  pure (ok, p)

def connect (p : Publisher A) (S : SocketClass A K V) (addr : A) :
    Prog A K V (Bool × Publisher A) := do
  let p := p.registerAddr addr
  let ok ← S.connect addr
  pure (ok, p)

@[simp] theorem registerAddr_clientaddrs (p : Publisher A) (c : A) :
    (p.registerAddr c).clientaddrs = p.clientaddrs ++ [c] := rfl

@[simp] theorem exec_bind_snd (S : SocketClass A K V) (h : Handler (sig A K V) σ) (s : σ)
    (p : Publisher A) (addr : A) :
    ((p.bind S addr).exec h s).1.2 = p.registerAddr addr := by
  simp only [bind, Program.exec_bind, Program.pure_eq, Program.exec_done]

@[simp] theorem exec_connect_snd (S : SocketClass A K V) (h : Handler (sig A K V) σ) (s : σ)
    (p : Publisher A) (addr : A) :
    ((p.connect S addr).exec h s).1.2 = p.registerAddr addr := by
  simp only [connect, Program.exec_bind, Program.pure_eq, Program.exec_done]

theorem publish_eq [Zero A] (D : SocketDefs) (t : Transport) (p : Publisher A) (data : Message) :
    p.publish (K := K) (V := V) (t.socketClass D) data =
      Program.each (S := sig A K V) (fun addr => .sendto data addr 0) p.clientaddrs := by
  apply Program.forM_eq_each
  intro addr
  cases t <;> rfl

theorem sends_publish [Zero A] (D : SocketDefs) (t : Transport) (h : Handler (sig A K V) σ)
    (s : σ) (p : Publisher A) (data : Message) :
    sends ((p.publish (t.socketClass D) data).trace h s) =
      p.clientaddrs.map fun addr => (data, addr) := by
  rw [publish_eq, Program.trace_each, sends_map_sendto]

end Publisher

end Marko
