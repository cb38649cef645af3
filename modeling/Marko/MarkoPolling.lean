import Mathlib.Data.Finset.Card
import Marko.DatagramCalls
import Marko.MarkoDescriptor

/-! Polling a socket: what `available` and `availableForWrite` make of the answer of
`select`, for every state in which the kernel can leave the wait. -/
namespace Marko

open Descriptor Interaction Interaction.Program

/-- The descriptors of a process at the moment `select` returns: what is queued for receipt
on each, the free room of its send buffer, and whether the call fails. -/
structure PolledKernel (size : ℕ) where
  queue : Fin size → List Datagram.Bytes
  room : Fin size → ℕ
  failing : Bool

namespace PolledKernel

variable {size : ℕ} (k : PolledKernel size)

/-- On an error the sets stay as they are; otherwise only the ready descriptors below `nfds`
stay in them and are counted. When none became ready this is the timeout. -/
def select (nfds : ℤ) (readfds writefds : FdSet size) : SelectAnswer size :=
  if k.failing then ⟨-1, readfds, writefds⟩
  else
    let readable := readfds.filter fun fd : Fin size => (fd : ℤ) < nfds ∧ k.queue fd ≠ []
    let writable := writefds.filter fun fd : Fin size => (fd : ℤ) < nfds ∧ 0 < k.room fd
    ⟨readable.card + writable.card, readable, writable⟩

def handler : Handler (sig size) (PolledKernel size)
  | .select nfds readfds writefds _, k => (k.select nfds readfds writefds, k)
  | .socket .., k => ((-1 : ℤ), k)
  | .close _, k => ((-1 : ℤ), k)
  | .setRcvTimeo .., k => ((-1 : ℤ), k)
  | .setFionbio .., k => ((-1 : ℤ), k)

def FoundReadable (fd : Fin size) : Prop := k.failing = false ∧ k.queue fd ≠ []

def FoundWritable (fd : Fin size) : Prop := k.failing = false ∧ 0 < k.room fd

def ReceivesAtOnce (fd : Fin size) : Prop := ∃ p rest, k.queue fd = p :: rest

/-- The answer of `available` on an open socket is the one `select` gave. -/
def AvailableAgrees (fd : Fin size) : Prop :=
  ∃ b, ((Socket.mk fd).available.run.exec handler k).1 = some b ∧
    (b = true ↔ k.FoundReadable fd) ∧ (b = true → k.ReceivesAtOnce fd)

def AvailableForWriteAgrees (fd : Fin size) : Prop :=
  ∃ b, ((Socket.mk fd).availableForWrite.run.exec handler k).1 = some b ∧
    (b = true ↔ k.FoundWritable fd)

end PolledKernel

theorem Socket.run_poll {size : ℕ} (fd : Fin size)
    (select : FdSet size → Timeval → Prog size (ℤ × FdSet size)) :
    ((Socket.mk fd).poll select).run = select {fd} ⟨0, 1000⟩ >>= fun ans =>
      .done (if ans.1 > 0 then some false else some (decide (fd ∈ ans.2))) := by
  -- a descriptor of the process is within the set, so `FD_SET` and `FD_ISSET` are defined
  have hset : FdSet.set (fd : ℤ) FdSet.zero = some {fd} := FdSet.set_coe fd FdSet.zero
  unfold Socket.poll
  simp only [hset]
  show (select {fd} ⟨0, 1000⟩ >>= fun a => .done (some a)) >>= _ = _
  rw [bind_assoc]
  apply bind_congr
  intro ans
  rw [done_bind]
  show OptionT.run (if ans.1 > 0 then _ else _) = _
  -- the count of `select` is tested for the error, with the comparison the wrong way
  by_cases herr : ans.1 > 0
  · rw [if_pos herr, if_pos herr]
    rfl
  · rw [if_neg herr, if_neg herr, FdSet.isset_coe]
    cases decide (fd ∈ ans.2) <;> rfl

namespace PolledKernel

variable {size : ℕ} (k : PolledKernel size) (fd : Fin size)

theorem filter_single (ready : Fin size → Prop) [DecidablePred ready] :
    ({fd} : FdSet size).filter (fun i : Fin size => (i : ℤ) < (fd : ℤ) + 1 ∧ ready i) =
      if ready fd then {fd} else ∅ := by
  -- `nfds` is one more than the descriptor
  have hbelow : (fd : ℤ) < (fd : ℤ) + 1 := by omega
  rw [Finset.filter_singleton]
  simp only [hbelow, true_and]

theorem select_read : k.select (fd + 1) {fd} ∅ =
    if k.failing then ⟨-1, {fd}, ∅⟩
    else if k.queue fd ≠ [] then ⟨1, {fd}, ∅⟩ else ⟨0, ∅, ∅⟩ := by
  unfold select
  rw [filter_single fd fun i => k.queue i ≠ [], Finset.filter_empty]
  split_ifs <;> rfl

theorem select_write : k.select (fd + 1) ∅ {fd} =
    if k.failing then ⟨-1, ∅, {fd}⟩
    else if 0 < k.room fd then ⟨1, ∅, {fd}⟩ else ⟨0, ∅, ∅⟩ := by
  unfold select
  rw [filter_single fd fun i => 0 < k.room i, Finset.filter_empty]
  split_ifs <;> rfl

/-- A positive count is taken for the error, so the answer tells whether `select` failed. -/
theorem exec_available :
    ((Socket.mk fd).available.run.exec handler k).1 = some k.failing := by
  unfold Socket.available
  rw [Socket.run_poll, exec_bind]
  have hans : ((do
      let ans ← Sys.select (fd + 1) {fd} ∅ ⟨0, 1000⟩
      pure (ans.num, ans.readfds) : Prog size (ℤ × FdSet size)).exec handler k).1 =
      ((k.select (fd + 1) {fd} ∅).num, (k.select (fd + 1) {fd} ∅).readfds) := rfl
  rw [hans, select_read, exec_done]
  -- a ready socket is counted and a timeout leaves the set empty
  split_ifs <;> simp_all

theorem exec_availableForWrite :
    ((Socket.mk fd).availableForWrite.run.exec handler k).1 = some k.failing := by
  unfold Socket.availableForWrite
  rw [Socket.run_poll, exec_bind]
  have hans : ((do
      let ans ← Sys.select (fd + 1) ∅ {fd} ⟨0, 1000⟩
      pure (ans.num, ans.writefds) : Prog size (ℤ × FdSet size)).exec handler k).1 =
      ((k.select (fd + 1) ∅ {fd}).num, (k.select (fd + 1) ∅ {fd}).writefds) := rfl
  rw [hans, select_write, exec_done]
  split_ifs <;> simp_all

/-- Telling whether `select` failed is telling what it found only when it ran into its timeout. -/
theorem failing_iff_found (ready : Prop) :
    (k.failing = true ↔ k.failing = false ∧ ready) ↔ k.failing = false ∧ ¬ ready := by
  cases k.failing <;> simp

/-- Polling agrees with `select` exactly when `select` timed out: it takes a ready socket for
an error and an error for a ready socket. -/
theorem polling_agrees_iff :
    (k.AvailableAgrees fd ↔ k.failing = false ∧ k.queue fd = []) ∧
      (k.AvailableForWriteAgrees fd ↔ k.failing = false ∧ k.room fd = 0) := by
  constructor
  · rw [AvailableAgrees, exec_available]
    constructor
    -- the answer is whether `select` failed
    · rintro ⟨b, hb, hfound, -⟩
      rw [← Option.some.inj hb] at hfound
      have htimeout := (k.failing_iff_found _).mp hfound
      exact ⟨htimeout.1, not_not.mp htimeout.2⟩
    · rintro ⟨hok, hempty⟩
      refine ⟨false, congrArg some hok, ?_, fun h => absurd h Bool.false_ne_true⟩
      simp [FoundReadable, hempty]
  · rw [AvailableForWriteAgrees, exec_availableForWrite]
    constructor
    · rintro ⟨b, hb, hfound⟩
      rw [← Option.some.inj hb] at hfound
      have htimeout := (k.failing_iff_found _).mp hfound
      exact ⟨htimeout.1, Nat.eq_zero_of_not_pos htimeout.2⟩
    · rintro ⟨hok, hfull⟩
      refine ⟨false, congrArg some hok, ?_⟩
      simp [FoundWritable, hfull]

/-- A datagram is queued on the socket, `select` finds it, and `available` says no. -/
theorem queued_datagram_is_not_available :
    ¬ (PolledKernel.mk (fun _ => [[7]]) (fun _ => 0) false).AvailableAgrees (3 : Fin 4) := by
  rintro ⟨b, hb, hfound, -⟩
  have hno : b = false := by
    have hexec := (PolledKernel.mk (fun _ => [[7]]) (fun _ => 0) false).exec_available (3 : Fin 4)
    rw [hexec] at hb
    exact (Option.some.inj hb).symm
  have hyes : b = true := hfound.mpr ⟨rfl, List.cons_ne_nil _ _⟩
  rw [hno] at hyes
  exact absurd hyes Bool.false_ne_true

end PolledKernel

end Marko
