import Mathlib.Data.List.Nodup
import Mathlib.Data.List.Count
import Mathlib.Data.Prod.Basic
import Marko.MarkoPubSub

/-! Which destinations a publisher has after any history of `bind` and `connect` calls, and
how they relate to what these calls returned and to the socket's own address. -/
namespace Marko

open Datagram Interaction

variable {A K V σ : Type}

inductive Registration (A : Type) where
  | bind (addr : A)
  | connect (addr : A)
  deriving DecidableEq, Repr

def Registration.addr : Registration A → A
  | .bind addr => addr
  | .connect addr => addr

namespace Publisher

def register (p : Publisher A) (S : SocketClass A K V) :
    Registration A → Prog A K V (Bool × Publisher A)
  | .bind addr => p.bind S addr
  | .connect addr => p.connect S addr

def registerAll (p : Publisher A) (S : SocketClass A K V) :
    List (Registration A) → Prog A K V (List Bool × Publisher A)
  | [] => pure ([], p)
  | call :: calls => do
    let first ← p.register S call
    let rest ← first.2.registerAll S calls
    pure (first.1 :: rest.1, rest.2)

theorem exec_register_snd (S : SocketClass A K V) (h : Handler (sig A K V) σ) (s : σ)
    (p : Publisher A) (call : Registration A) :
    ((p.register S call).exec h s).1.2 = p.registerAddr call.addr := by
  cases call with
  | bind addr => exact exec_bind_snd S h s p addr
  | connect addr => exact exec_connect_snd S h s p addr

theorem exec_registerAll_clientaddrs (S : SocketClass A K V) (h : Handler (sig A K V) σ) (s : σ)
    (p : Publisher A) (calls : List (Registration A)) :
    ((p.registerAll S calls).exec h s).1.2.clientaddrs =
      p.clientaddrs ++ calls.map Registration.addr := by
  -- each call starts from the publisher and the kernel that the one before left
  induction calls generalizing p s with
  | nil => exact (List.append_nil _).symm
  | cons call calls ih =>
    simp only [registerAll, Program.exec_bind, Program.pure_eq, Program.exec_done, ih,
      exec_register_snd, registerAddr_clientaddrs, List.map_cons, List.append_assoc,
      List.cons_append, List.nil_append]

theorem exec_registerAll_length (S : SocketClass A K V) (h : Handler (sig A K V) σ) (s : σ)
    (p : Publisher A) (calls : List (Registration A)) :
    ((p.registerAll S calls).exec h s).1.1.length = calls.length := by
  induction calls generalizing p s with
  | nil => rfl
  | cons call calls ih =>
    simp only [registerAll, Program.exec_bind, Program.pure_eq, Program.exec_done,
      List.length_cons, ih]

end Publisher

/-- The destinations that follow the outcome: one send for each distinct address with a
successful call, none for the others. -/
structure FollowsOutcome [DecidableEq A] (calls : List (Registration A)) (results : List Bool)
    (data : Message) (sent : List (Message × A)) : Prop where
  succeeded : ∀ a, (∃ c ∈ calls.zip results, c.1.addr = a ∧ c.2 = true) →
    sent.count (data, a) = 1
  failed : ∀ a, (¬ ∃ c ∈ calls.zip results, c.1.addr = a ∧ c.2 = true) →
    (data, a) ∉ sent

section Outcomes

variable {calls : List (Registration A)} {results : List Bool}

theorem succeeded_of_all_true (hlen : results.length = calls.length)
    (htrue : ∀ r ∈ results, r = true) (c : Registration A) (hc : c ∈ calls) :
    ∃ d ∈ calls.zip results, d.1.addr = c.addr ∧ d.2 = true := by
  rw [← List.map_fst_zip (Nat.le_of_eq hlen.symm)] at hc
  obtain ⟨d, hd, rfl⟩ := List.mem_map.mp hc
  exact ⟨d, hd, rfl, htrue d.2 (List.of_mem_zip hd).2⟩

/-- Where no address is named twice, every call must have succeeded itself. -/
theorem all_true_of_succeeded (hlen : results.length = calls.length)
    (hnodup : (calls.map Registration.addr).Nodup)
    (hone : ∀ c ∈ calls, ∃ d ∈ calls.zip results, d.1.addr = c.addr ∧ d.2 = true) :
    ∀ r ∈ results, r = true := by
  intro r hr
  have haddrs : ((calls.zip results).map fun d => d.1.addr).Nodup := by
    rw [← List.map_fst_zip (Nat.le_of_eq hlen.symm), List.map_map] at hnodup
    exact hnodup
  rw [← List.map_snd_zip (Nat.le_of_eq hlen)] at hr
  obtain ⟨e, he, rfl⟩ := List.mem_map.mp hr
  obtain ⟨d, hd, haddr, htrue⟩ := hone e.1 (List.of_mem_zip he).1
  -- the call behind `e` is the only one with its address, so the successful one is it
  have hsame : d = e := List.inj_on_of_nodup_map haddrs hd he haddr
  rw [← hsame]
  exact htrue

end Outcomes

/-- Sending once for each call follows the outcome only if every call succeeded and no
address was named twice. -/
theorem followsOutcome_iff [DecidableEq A] (calls : List (Registration A)) (results : List Bool)
    (hlen : results.length = calls.length) (data : Message) :
    FollowsOutcome calls results data (calls.map fun c => (data, c.addr)) ↔
      (∀ r ∈ results, r = true) ∧ (calls.map Registration.addr).Nodup := by
  have hmap : (calls.map fun c => (data, c.addr)) =
      (calls.map Registration.addr).map (Prod.mk data) := (List.map_map ..).symm
  have hcount (a : A) : (calls.map fun c => (data, c.addr)).count (data, a) =
      (calls.map Registration.addr).count a := by
    rw [hmap]
    exact List.count_map_of_injective _ _ (Prod.mk_right_injective data) a
  have hmem (a : A) : (data, a) ∈ (calls.map fun c => (data, c.addr)) ↔
      a ∈ calls.map Registration.addr := by
    rw [hmap]
    exact List.mem_map_of_injective (Prod.mk_right_injective data)
  constructor
  · intro h
    have hone (c : Registration A) (hc : c ∈ calls) :
        ∃ d ∈ calls.zip results, d.1.addr = c.addr ∧ d.2 = true := by
      -- a call without success would send where nothing may be sent
      by_contra hnone
      exact h.failed c.addr hnone ((hmem _).mpr (List.mem_map_of_mem hc))
    have hnodup : (calls.map Registration.addr).Nodup := by
      apply List.nodup_iff_count_le_one.mpr
      intro a
      -- an address that is named twice would be sent to twice
      by_cases ha : a ∈ calls.map Registration.addr
      · obtain ⟨c, hc, rfl⟩ := List.mem_map.mp ha
        exact Nat.le_of_eq ((hcount _).symm.trans (h.succeeded _ (hone c hc)))
      · exact (List.count_eq_zero_of_not_mem ha).symm ▸ Nat.zero_le 1
    exact ⟨all_true_of_succeeded hlen hnodup hone, hnodup⟩
  · rintro ⟨htrue, hnodup⟩
    constructor
    · rintro a ⟨d, hd, rfl, -⟩
      rw [hcount]
      exact List.count_eq_one_of_mem hnodup (List.mem_map_of_mem (List.of_mem_zip hd).1)
    · intro a hnone hsent
      obtain ⟨c, hc, rfl⟩ := List.mem_map.mp ((hmem a).mp hsent)
      exact hnone (succeeded_of_all_true hlen htrue c hc)

/-- After any history of `bind` and `connect` calls, under any kernel and over either
transport, publishing hands the data to one send for each call, whatever the call returned.
So the destinations follow the outcome only for calls that all succeed on distinct
addresses. -/
theorem publish_sends_once_per_call [Zero A] [DecidableEq A] (D : SocketDefs)
    (t : Transport) (h : Handler (sig A K V) σ) (s : σ) (calls : List (Registration A))
    (data : Message) :
    let out := ((Publisher.mk []).registerAll (t.socketClass D) calls).exec h s
    let sent := sends ((out.1.2.publish (t.socketClass D) data).trace h out.2)
    sent = calls.map (fun c => (data, c.addr)) ∧
      (FollowsOutcome calls out.1.1 data sent ↔
        (∀ r ∈ out.1.1, r = true) ∧ (calls.map Registration.addr).Nodup) := by
  intro out sent
  -- whatever the calls returned, they have registered their addresses
  have hsent : sent = calls.map (fun c => (data, c.addr)) := by
    have haddrs : out.1.2.clientaddrs = [] ++ calls.map Registration.addr :=
      Publisher.exec_registerAll_clientaddrs (t.socketClass D) h s (Publisher.mk []) calls
    have hpublish : sent = out.1.2.clientaddrs.map fun addr => (data, addr) :=
      Publisher.sends_publish D t h out.2 out.1.2 data
    rw [hpublish, haddrs, List.nil_append, List.map_map]
    rfl
  refine ⟨hsent, ?_⟩
  rw [hsent]
  exact followsOutcome_iff calls _
    (Publisher.exec_registerAll_length (t.socketClass D) h s (Publisher.mk []) calls) data

def refusingKernel : Handler (sig ℕ Unit Unit) Unit
  | .sendto msg _ _, s => (.sent msg.length, s)
  | .recvfrom _ _, s => (.failed .again, s)
  | .bind _, s => ((-1 : ℤ), s)
  | .getpeername, s => (none, s)
  | .setsockopt .., s => ((0 : ℤ), s)
  | .callback _ _, s => ((), s)

/-- A `connect` that returned false has registered its address all the same. -/
theorem failed_connect_registers :
    ¬ FollowsOutcome [.connect 5]
      (((Publisher.mk []).registerAll (socketUDP .failure) [.connect 5]).exec
        refusingKernel ()).1.1 [1]
      (sends (((((Publisher.mk []).registerAll (socketUDP .failure) [.connect 5]).exec
        refusingKernel ()).1.2.publish (socketUDP .failure) [1]).trace refusingKernel ())) := by
  intro h
  refine h.failed 5 ?_ (List.mem_singleton.mpr rfl)
  have hresult : (((Publisher.mk []).registerAll (socketUDP .failure) [.connect 5]).exec
      refusingKernel ()).1.1 = [false] := rfl
  rw [hresult]
  decide

end Marko
