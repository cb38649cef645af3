import Marko.MarkoOwnership
import Marko.MarkoPolling

/-! Which descriptor numbers polling puts into a set, over any history of socket objects. -/
namespace Marko

open Descriptor Interaction Interaction.Program

section Polling

variable {size : ℕ}

/-- The number that a call searches the sets up to is in them. -/
def SearchInBounds : Call size → Prop
  | .select nfds _ _ _ => 0 ≤ nfds - 1 ∧ nfds - 1 < size
  | _ => True

/-- Whatever the kernel answers, no macro is applied outside the set, and no search goes past
it. A poll that returns at once meets this. -/
def SetInBounds (poll : PartialProg size Bool) : Prop :=
  ∀ (σ : Type) (h : Handler (sig size) σ) (s : σ),
    (poll.run.exec h s).1 ≠ none ∧ ∀ c ∈ poll.run.trace h s, SearchInBounds c

theorem not_setInBounds_poll {s : Socket} (hout : ¬ (0 ≤ s.socketFd ∧ s.socketFd < size))
    (select : FdSet size → Timeval → Prog size (ℤ × FdSet size)) :
    ¬ SetInBounds (s.poll select) := by
  have hset : FdSet.set s.socketFd (FdSet.zero : FdSet size) = none := by
    rw [FdSet.set, FdSet.index, dif_neg hout]
    rfl
  have hrun : (s.poll select).run = .done none := by
    -- `FD_SET` comes first
    unfold Socket.poll
    rw [hset]
    rfl
  intro h
  have hreturns := (h Table (Table.handler none none) Table.empty).1
  rw [hrun] at hreturns
  exact hreturns rfl

theorem setInBounds_poll (fd : Fin size)
    (select : FdSet size → Timeval → Prog size (ℤ × FdSet size))
    (hselect : ∀ (σ : Type) (h : Handler (sig size) σ) (s : σ),
      ∀ c ∈ (select {fd} ⟨0, 1000⟩).trace h s, SearchInBounds c) :
    SetInBounds ((Socket.mk fd).poll select) := by
  intro σ h s
  rw [Socket.run_poll]
  constructor
  · rw [exec_bind, exec_done]
    split_ifs <;> exact Option.some_ne_none _
  · rw [trace_bind, trace_done, List.append_nil]
    exact hselect σ h s

/-- Polling stays in bounds exactly when the object's number does. -/
theorem setInBounds_poll_iff (s : Socket)
    (select : FdSet size → Timeval → Prog size (ℤ × FdSet size))
    (hselect : ∀ (fd : Fin size), s.socketFd = fd → ∀ (σ : Type) (h : Handler (sig size) σ)
      (t : σ), ∀ c ∈ (select {fd} ⟨0, 1000⟩).trace h t, SearchInBounds c) :
    SetInBounds (s.poll select) ↔ 0 ≤ s.socketFd ∧ s.socketFd < size := by
  constructor
  · intro h
    by_contra hout
    exact not_setInBounds_poll hout select h
  · intro hin
    have hlt : s.socketFd.toNat < size := by omega
    have hfd : s.socketFd = ((⟨s.socketFd.toNat, hlt⟩ : Fin size) : ℤ) :=
      (Int.toNat_of_nonneg hin.1).symm
    have hsocket : s = Socket.mk (⟨s.socketFd.toNat, hlt⟩ : Fin size) := congrArg Socket.mk hfd
    have hpoll := setInBounds_poll ⟨s.socketFd.toNat, hlt⟩ select (hselect _ hfd)
    rwa [← hsocket] at hpoll

theorem searchInBounds_succ {fd : Fin size} {n : ℤ} (hn : n = fd) (readfds writefds : FdSet size)
    (timeout : Timeval) : SearchInBounds (.select (n + 1) readfds writefds timeout) := by
  show 0 ≤ n + 1 - 1 ∧ n + 1 - 1 < size
  omega

theorem setInBounds_available_iff (s : Socket) :
    SetInBounds (s.available : PartialProg size Bool) ↔ 0 ≤ s.socketFd ∧ s.socketFd < size := by
  apply setInBounds_poll_iff
  intro fd hfd σ h t c hc
  rw [List.mem_singleton.mp hc]
  exact searchInBounds_succ hfd {fd} ∅ _

theorem setInBounds_availableForWrite_iff (s : Socket) :
    SetInBounds (s.availableForWrite : PartialProg size Bool) ↔
      0 ≤ s.socketFd ∧ s.socketFd < size := by
  apply setInBounds_poll_iff
  intro fd hfd σ h t c hc
  rw [List.mem_singleton.mp hc]
  exact searchInBounds_succ hfd ∅ {fd} _

end Polling

section Frame

variable {size : ℕ} {α β : Type}

/-- The program makes no descriptor and closes none. -/
def KeepsTable (p : Prog size α) : Prop :=
  ∀ (believed choice : Option ℕ) (t : Table), (p.exec (Table.handler believed choice) t).2 = t

theorem keepsTable_done (a : α) : KeepsTable (.done a : Prog size α) := fun _ _ _ => rfl

theorem KeepsTable.bind {p : Prog size α} {f : α → Prog size β} (hp : KeepsTable p)
    (hf : ∀ a, KeepsTable (f a)) : KeepsTable (p >>= f) := by
  intro believed choice t
  rw [exec_bind, hf, hp]

theorem KeepsTable.bindPartial {p : PartialProg size α} {f : α → PartialProg size β}
    (hp : KeepsTable p.run) (hf : ∀ a, KeepsTable (f a).run) : KeepsTable (p >>= f).run := by
  apply hp.bind
  intro value
  cases value with
  | none => exact keepsTable_done none
  | some a => exact hf a

theorem keepsTable_ofOption (value : Option α) :
    KeepsTable (PartialProg.ofOption value : PartialProg size α).run :=
  keepsTable_done value

theorem KeepsTable.lift {p : Prog size α} (hp : KeepsTable p) :
    KeepsTable (OptionT.lift p : PartialProg size α).run :=
  hp.bind fun a => keepsTable_done (some a)

theorem keepsTable_settimeout (s : Socket) (timeoutMsec : Long) :
    KeepsTable (s.settimeout timeoutMsec : PartialProg size Bool).run := by
  apply (keepsTable_ofOption _).bindPartial
  intro tv
  have hset : KeepsTable (Sys.setRcvTimeo s.socketFd tv : Prog size ℤ) := fun _ _ _ => rfl
  exact hset.lift.bindPartial fun err => keepsTable_done _

theorem keepsTable_poll (s : Socket) {select : FdSet size → Timeval → Prog size (ℤ × FdSet size)}
    (hselect : ∀ fds tv, KeepsTable (select fds tv)) : KeepsTable (s.poll select).run := by
  apply (keepsTable_ofOption _).bindPartial
  intro fds
  apply (hselect fds _).lift.bindPartial
  rintro ⟨err, fds⟩
  dsimp only
  split_ifs
  · exact keepsTable_done (some false)
  · apply (keepsTable_ofOption _).bindPartial
    intro isset
    cases isset <;> exact keepsTable_done _

/-- Besides what makes and closes descriptors, no call on an object changes the table. -/
theorem public_calls_keep_table (s : Socket) (timeoutMsec : Long) (val : Bool) :
    KeepsTable (s.settimeout timeoutMsec : PartialProg size Bool).run ∧
      KeepsTable (s.setnonblocking val : Prog size Bool) ∧
      KeepsTable (s.available : PartialProg size Bool).run ∧
      KeepsTable (s.availableForWrite : PartialProg size Bool).run :=
  ⟨keepsTable_settimeout s timeoutMsec, fun _ _ _ => rfl,
    keepsTable_poll s fun _ _ _ _ _ => rfl, keepsTable_poll s fun _ _ _ _ _ => rfl⟩

end Frame

/-- What a program can do with socket objects. `other` stands for the public members that read
the descriptor number and assign nothing. -/
inductive PublicCall where
  | lifecycle (l : Lifecycle)
  | available (o : ℕ)
  | availableForWrite (o : ℕ)
  | other (o : ℕ)
  deriving DecidableEq, Repr

namespace SocketProcess

variable (D : SocketDefs) (size : ℕ)

/-- Polling leaves the objects as they are. -/
def use : PublicCall → SocketProcess → Option SocketProcess
  | .lifecycle l, p => step D l p
  | .available o, p | .availableForWrite o, p | .other o, p => (p.objects o).map fun _ => p

def users : Machine PublicCall SocketProcess := ⟨init, use D⟩

/-- A polling call indexes the set in bounds, or does not touch it. -/
def PollsInBounds : PublicCall → SocketProcess → Prop
  | .available o, p => ∀ x ∈ p.objects o, SetInBounds (x.socket.available : PartialProg size Bool)
  | .availableForWrite o, p =>
    ∀ x ∈ p.objects o, SetInBounds (x.socket.availableForWrite : PartialProg size Bool)
  | _, _ => True

/-- A polled object has got a descriptor from a successful `socket` call, or from an object that
had, has not closed it, and the descriptor's number is below `FD_SETSIZE`. -/
def PollsSmall : PublicCall → SocketProcess → Prop
  | .available o, p | .availableForWrite o, p =>
    ∀ x ∈ p.objects o, x.serial ≠ none ∧ x.socket.socketFd < size
  | _, _ => True

/-- The invariant of the descriptor field: a number from the kernel where the history has given
the object a descriptor, and `SOCKET_ERR` everywhere else. -/
def Given (v : Option SocketObject) : Prop :=
  ∀ x ∈ v, (x.serial = none ∧ x.socket.socketFd = D.socketErr) ∨
    (x.serial ≠ none ∧ 0 ≤ x.socket.socketFd)

def AllGiven (p : SocketProcess) : Prop := ∀ o, Given D (p.objects o)

section Invariant

variable {D size} {p p' : SocketProcess} {o : ℕ}

theorem AllGiven.put (hp : AllGiven D p) {v : Option SocketObject} (hv : Given D v) (t : Table) :
    AllGiven D (p.put o v t) := by
  intro o'
  by_cases ho : o' = o
  · subst ho
    rwa [put_self]
  · rw [put_of_ne ho]
    exact hp o'

theorem given_init : Given D (some ⟨Socket.init D, none⟩) := by
  intro x hx
  obtain rfl := Option.some.inj hx
  exact .inl ⟨rfl, rfl⟩

theorem AllGiven.performed {l : Lifecycle} (hp : AllGiven D p) (hl : Performs D p l p') :
    AllGiven D p' := by
  cases hl with
  | made o tr choice n ho hn =>
    apply hp.put
    intro x hx
    obtain rfl := Option.some.inj hx
    exact .inr ⟨Option.some_ne_none _, Int.natCast_nonneg n⟩
  | failed o tr choice ho => exact hp.put given_init _
  -- a copy has the number and the descriptor of its source
  | copied o src x ho hsrc =>
    have hx := hp src
    rw [hsrc] at hx
    exact hp.put hx _
  | assigned o src y x ho hsrc =>
    have hx := hp src
    rw [hsrc] at hx
    exact hp.put hx _
  | closed o x ho => exact hp.put given_init _
  | destroyed o x ho => exact hp.put (fun x hx => by cases hx) _

theorem AllGiven.used {l : PublicCall} (hp : AllGiven D p) (hstep : use D l p = some p') :
    AllGiven D p' := by
  cases l with
  | lifecycle l => exact hp.performed (performs_of_step hstep)
  | available | availableForWrite | other =>
    obtain ⟨x, -, rfl⟩ := Option.map_eq_some_iff.mp hstep
    exact hp

theorem inBounds_iff_small {v : Option SocketObject} (hv : Given D v) :
    (∀ x ∈ v, 0 ≤ x.socket.socketFd ∧ x.socket.socketFd < size) ↔
      ∀ x ∈ v, x.serial ≠ none ∧ x.socket.socketFd < size := by
  apply forall_congr'
  intro x
  apply imp_congr_right
  intro hx
  apply and_congr_left'
  rcases hv x hx with ⟨hnone, herr⟩ | ⟨hsome, hnonneg⟩
  -- without a descriptor the number is `SOCKET_ERR`, which is below the set
  · have hneg := D.socketErr_neg
    exact iff_of_false (by omega) (not_not_intro hnone)
  · exact iff_of_true hnonneg hsome

theorem pollsInBounds_iff (l : PublicCall) (hp : AllGiven D p) :
    PollsInBounds size l p ↔ PollsSmall size l p := by
  cases l with
  | lifecycle | other => exact Iff.rfl
  | available o =>
    rw [PollsSmall, ← inBounds_iff_small (hp o), PollsInBounds]
    simp only [setInBounds_available_iff]
  | availableForWrite o =>
    rw [PollsSmall, ← inBounds_iff_small (hp o), PollsInBounds]
    simp only [setInBounds_availableForWrite_iff]

end Invariant

end SocketProcess

/-- Over every history of objects and every behaviour of the kernel, polling indexes its set in
bounds exactly when every polled object holds a descriptor of a number below `FD_SETSIZE`. -/
theorem set_indexed_in_bounds_iff (D : SocketDefs) (size : ℕ) (history : List PublicCall) :
    (SocketProcess.users D).Throughout (SocketProcess.PollsInBounds size) history
        SocketProcess.init ↔
      (SocketProcess.users D).Throughout (SocketProcess.PollsSmall size) history
        SocketProcess.init := by
  apply Machine.throughout_congr (I := SocketProcess.AllGiven D)
  · exact fun l p p' hp hstep => hp.used hstep
  · exact fun l p hp => SocketProcess.pollsInBounds_iff l hp
  · exact fun o x hx => by cases hx

/-- The constructor's `socket` fails, and `available` sets bit -1. -/
theorem failed_socket_is_polled :
    ¬ (SocketProcess.users .failure).Throughout (SocketProcess.PollsInBounds 1024)
      [.lifecycle (.construct 0 .udp none), .available 0] SocketProcess.init := by
  intro h
  obtain ⟨-, hrest⟩ := h _ rfl
  obtain ⟨hpoll, -⟩ := hrest _ rfl
  have hin := (setInBounds_available_iff _).mp (hpoll _ rfl)
  exact absurd hin.1 (by decide)

end Marko
