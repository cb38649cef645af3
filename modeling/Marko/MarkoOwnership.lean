import Marko.DescriptorTable
import Marko.InteractionMachine
import Marko.MarkoDescriptor

/-! Who owns a descriptor, over any history of socket objects: constructed, copied, assigned,
closed and destroyed, while the kernel reuses the numbers of closed descriptors. -/
namespace Marko

open Descriptor Interaction

/-- A live socket object, with the serial number of the descriptor it stands for, which is
what it would close if numbers were not reused. -/
structure SocketObject where
  socket : Socket
  -- no program can read it
  serial : Option ℕ
  deriving DecidableEq, Repr

structure SocketProcess where
  objects : ℕ → Option SocketObject
  table : Table

/-- What a program can do with objects of the derived classes. A copy or an assignment may be
between any two of them, through their base class. -/
inductive Lifecycle where
  | construct (o : ℕ) (t : Transport) (choice : Option ℕ)
  | copyConstruct (o src : ℕ)
  | copyAssign (o src : ℕ)
  | close (o : ℕ)
  | destroy (o : ℕ)
  deriving DecidableEq, Repr

namespace SocketProcess

variable (D : SocketDefs)

def init : SocketProcess := ⟨fun _ => none, Table.empty⟩

/-- The process after its object `o` became `v` (or went away) and its table `t`. -/
def put (p : SocketProcess) (o : ℕ) (v : Option SocketObject) (t : Table) : SocketProcess :=
  ⟨Function.update p.objects o v, t⟩

def newSerial (s : Socket) (t : Table) : Option ℕ :=
  if s.socketFd = D.socketErr then none else some t.made

/-- One operation; constructing takes a name that is free, everything else live objects. -/
def step : Lifecycle → SocketProcess → Option SocketProcess
  | .construct o t choice, p =>
    match p.objects o with
    | some _ => none
    | none =>
      let out := (t.construct D : Prog 0 Socket).exec (Table.handler none choice) p.table
      some (p.put o (some ⟨out.1, newSerial D out.1 p.table⟩) out.2)
  | .copyConstruct o src, p =>
    match p.objects o, p.objects src with
    | none, some x => some (p.put o (some ⟨x.socket.copy, x.serial⟩) p.table)
    | _, _ => none
  | .copyAssign o src, p =>
    match p.objects o, p.objects src with
    | some _, some x => some (p.put o (some ⟨x.socket.copy, x.serial⟩) p.table)
    | _, _ => none
  | .close o, p =>
    match p.objects o with
    | none => none
    | some x =>
      let out := (x.socket.close D : Prog 0 Socket).exec (Table.handler x.serial none) p.table
      some (p.put o (some ⟨out.1, none⟩) out.2)
  | .destroy o, p =>
    match p.objects o with
    | none => none
    | some x =>
      let out := (x.socket.destroy D : Prog 0 Unit).exec (Table.handler x.serial none) p.table
      some (p.put o none out.2)

def machine : Machine Lifecycle SocketProcess := ⟨init, step D⟩

def Holds (p : SocketProcess) (o n : ℕ) : Prop :=
  ∃ x, p.objects o = some x ∧ x.socket.socketFd = n

/-- Every open descriptor is held by exactly one live object, no close ever hit a descriptor
other than the closing object's own, and with all objects gone every descriptor that was ever
made has been closed exactly once. -/
structure Sound (p : SocketProcess) : Prop where
  exclusive : ∀ n, p.table.entry n ≠ none → ∀ o o', p.Holds o n → p.Holds o' n → o = o'
  held : ∀ n, p.table.entry n ≠ none → ∃ o, p.Holds o n
  own : ∀ e ∈ p.table.closings, e.1 = some e.2
  settled : (∀ o, p.objects o = none) → ∀ serial < p.table.made, p.table.closed.count serial = 1

/-- An object that holds no descriptor, or none at all. -/
def Idle (v : Option SocketObject) : Prop := ∀ x, v = some x → x.socket.socketFd = D.socketErr

/-- Copies are made of objects without a descriptor only, and assignments between such objects
or from an object to itself. -/
def CopiesNothing : Lifecycle → SocketProcess → Prop
  | .copyConstruct _ src, p => Idle D (p.objects src)
  | .copyAssign o src, p => o = src ∨ Idle D (p.objects o) ∧ Idle D (p.objects src)
  | _, _ => True

/-- The invariant: objects and open descriptors belong to each other one to one, and every
object's serial number is the one its descriptor has in the table. -/
structure Owned (p : SocketProcess) : Prop where
  ledger : p.table.Ledger
  holding : ∀ o x, p.objects o = some x → x.socket.socketFd = D.socketErr ∨
    ∃ (n serial : ℕ), x.socket.socketFd = n ∧ p.table.entry n = some serial ∧
      x.serial = some serial
  exclusive : ∀ o o' n, p.Holds o n → p.Holds o' n → o = o'
  held : ∀ n, p.table.entry n ≠ none → ∃ o, p.Holds o n
  own : ∀ e ∈ p.table.closings, e.1 = some e.2

section Programs

variable {D}

theorem exec_close_idle {s : Socket} (believed choice : Option ℕ) (t : Table)
    (hs : s.socketFd = D.socketErr) :
    (s.close D : Prog 0 Socket).exec (Table.handler believed choice) t = (Socket.init D, t) := by
  have hinit : s = Socket.init D := congrArg Socket.mk hs
  unfold Socket.close
  rw [if_neg (not_not.mpr hs), hinit]
  rfl

theorem exec_close_open {s : Socket} {n serial : ℕ} (believed choice : Option ℕ) {t : Table}
    (hs : s.socketFd = n) (hn : t.entry n = some serial) :
    (s.close D : Prog 0 Socket).exec (Table.handler believed choice) t =
      (Socket.init D, t.afterClose n believed serial) := by
  -- an open number is not negative, and `SOCKET_ERR` is
  have hne : s.socketFd ≠ D.socketErr := by
    have hneg := D.socketErr_neg
    omega
  have hkernel := Table.close_open n believed hn
  unfold Socket.close
  rw [if_pos hne, hs]
  show (Socket.init D, (Table.close believed n t).2) = _
  rw [hkernel]

theorem exec_close_fst (s : Socket) (h : Handler (sig 0) Table) (t : Table) :
    ((s.close D : Prog 0 Socket).exec h t).1 = Socket.init D := by
  unfold Socket.close
  by_cases herr : s.socketFd = D.socketErr
  · rw [if_neg (not_not.mpr herr)]
    exact congrArg Socket.mk herr
  · rw [if_pos herr]
    rfl

theorem exec_destroy (s : Socket) (h : Handler (sig 0) Table) (t : Table) :
    (s.destroy D : Prog 0 Unit).exec h t = ((), ((s.close D : Prog 0 Socket).exec h t).2) :=
  Program.exec_bind h t (s.close D) fun _ => Program.done ()

theorem exec_close_negative {s : Socket} (believed choice : Option ℕ) (t : Table)
    (hs : s.socketFd < 0) :
    (s.close D : Prog 0 Socket).exec (Table.handler believed choice) t = (Socket.init D, t) := by
  by_cases herr : s.socketFd = D.socketErr
  · exact exec_close_idle believed choice t herr
  · unfold Socket.close
    rw [if_pos herr]
    show (Socket.init D, (Table.close believed s.socketFd t).2) = _
    rw [Table.close, if_pos hs]

/-- A constructor ends with a new descriptor, or with none when `socket` fails. -/
theorem exec_construct (tr : Transport) (believed choice : Option ℕ) (t : Table) :
    (∃ n, t.entry n = none ∧ (tr.construct D : Prog 0 Socket).exec
        (Table.handler believed choice) t = (⟨n⟩, t.afterSocket n)) ∨
      (tr.construct D : Prog 0 Socket).exec (Table.handler believed choice) t =
        (Socket.init D, t) := by
  -- `SocketUDP()` and `SocketUnix()` differ in the address family only
  have hfamily : ∃ family, (tr.construct D : Prog 0 Socket) = Socket.construct D family := by
    cases tr with
    | udp => exact ⟨.afInet, rfl⟩
    | unix => exact ⟨.afUnix, rfl⟩
  obtain ⟨family, hprog⟩ := hfamily
  have hstart : (tr.construct D : Prog 0 Socket).exec (Table.handler believed choice) t =
      (if (Table.socket choice t).1 < 0 then Socket.close D ⟨(Table.socket choice t).1⟩
        else .done ⟨(Table.socket choice t).1⟩ : Prog 0 Socket).exec
          (Table.handler believed choice) (Table.socket choice t).2 := by
    rw [hprog, Socket.construct_eq]
    rfl
  -- a failed `socket` answers -1, and the constructor closes what is not there
  have hfailed (h : Table.socket choice t = (-1, t)) : (tr.construct D : Prog 0 Socket).exec
      (Table.handler believed choice) t = (Socket.init D, t) := by
    rw [hstart, h]
    exact exec_close_negative believed choice t (show (-1 : ℤ) < 0 by decide)
  cases choice with
  | none => exact Or.inr (hfailed rfl)
  | some n =>
    by_cases hn : t.entry n = none
    · refine Or.inl ⟨n, hn, ?_⟩
      have hnonneg : ¬ (n : ℤ) < 0 := by omega
      rw [hstart, Table.socket_unused n hn]
      dsimp only
      rw [if_neg hnonneg, Program.exec_done]
    · exact Or.inr (hfailed (if_neg hn))

end Programs

section Changes

variable {D} {p : SocketProcess} {o : ℕ}

theorem put_self (v : Option SocketObject) (t : Table) : (p.put o v t).objects o = v := by
  simp only [put, Function.update_self]

theorem put_of_ne {o' : ℕ} (hne : o' ≠ o) (v : Option SocketObject) (t : Table) :
    (p.put o v t).objects o' = p.objects o' := by
  simp only [put, Function.update_of_ne hne]

theorem holds_put_self {v : Option SocketObject} {t : Table} {n : ℕ} :
    (p.put o v t).Holds o n ↔ ∃ x, v = some x ∧ x.socket.socketFd = n := by
  rw [Holds, put_self]

theorem holds_put_of_ne {o' : ℕ} (hne : o' ≠ o) {v : Option SocketObject} {t : Table} {n : ℕ} :
    (p.put o v t).Holds o' n ↔ p.Holds o' n := by
  rw [Holds, put_of_ne hne, Holds]

theorem not_holds_put_idle {v : Option SocketObject} {t : Table} (hv : Idle D v) (n : ℕ) :
    ¬ (p.put o v t).Holds o n := by
  rw [holds_put_self]
  rintro ⟨x, hx, hfd⟩
  have herr := hv x hx
  have hneg := D.socketErr_neg
  omega

theorem not_holds_idle (hv : Idle D (p.objects o)) (n : ℕ) : ¬ p.Holds o n := by
  rintro ⟨x, hx, hfd⟩
  have herr := hv x hx
  have hneg := D.socketErr_neg
  omega

theorem idle_of_eq {v : Option SocketObject} {x : SocketObject} (hx : v = some x)
    (h : x.socket.socketFd = D.socketErr) : Idle D v := by
  intro y hy
  rw [hx] at hy
  rwa [← Option.some.inj hy]

theorem idle_none : Idle D none := fun x h => by cases h

theorem idle_init {serial : Option ℕ} : Idle D (some ⟨Socket.init D, serial⟩) :=
  idle_of_eq rfl rfl

end Changes

section Invariant

variable {D} {p : SocketProcess} {o : ℕ}

theorem owned_init : Owned D init where
  ledger := Table.ledger_empty
  holding o x h := by cases h
  exclusive o o' n h := by
    obtain ⟨x, hx, -⟩ := h
    cases hx
  held n h := absurd rfl h
  own e h := by cases h

theorem Owned.open_of_holds (hp : Owned D p) {n : ℕ} (h : p.Holds o n) :
    ∃ serial, p.table.entry n = some serial := by
  obtain ⟨x, hx, hfd⟩ := h
  rcases hp.holding o x hx with herr | ⟨m, serial, hm, hopen, -⟩
  · have hneg := D.socketErr_neg
    omega
  · have hmn : m = n := by omega
    exact ⟨serial, hmn ▸ hopen⟩

theorem Owned.sound (hp : Owned D p) : p.Sound where
  exclusive n _ o o' := hp.exclusive o o' n
  held := hp.held
  own := hp.own
  settled hgone serial h := by
    apply hp.ledger.count_closed _ h
    intro n
    by_contra hopen
    obtain ⟨o, x, hx, -⟩ := hp.held n hopen
    rw [hgone o] at hx
    cases hx

theorem Owned.acquire (hp : Owned D p) (hfree : p.objects o = none) {n : ℕ}
    (hn : p.table.entry n = none) :
    Owned D (p.put o (some ⟨⟨n⟩, some p.table.made⟩) (p.table.afterSocket n)) := by
  -- the number was free, and what an object holds is open
  have hunheld (o' : ℕ) : ¬ p.Holds o' n := by
    intro h
    obtain ⟨serial, hopen⟩ := hp.open_of_holds h
    rw [hn] at hopen
    cases hopen
  have hself (m : ℕ) : (p.put o (some ⟨⟨n⟩, some p.table.made⟩) (p.table.afterSocket n)).Holds o m ↔
      n = m := by
    rw [holds_put_self]
    constructor
    · rintro ⟨x, hx, hfd⟩
      rw [← Option.some.inj hx] at hfd
      exact Int.ofNat.inj hfd
    · rintro rfl
      exact ⟨_, rfl, rfl⟩
  constructor
  · exact hp.ledger.afterSocket n hn
  · intro o' x hx
    by_cases ho : o' = o
    · subst ho
      rw [put_self] at hx
      obtain rfl := Option.some.inj hx
      exact Or.inr ⟨n, p.table.made, rfl, Table.entry_afterSocket_self n, rfl⟩
    · rw [put_of_ne ho] at hx
      rcases hp.holding o' x hx with herr | ⟨m, serial, hm, hopen, hserial⟩
      · exact Or.inl herr
      · have hmn : m ≠ n := fun h => hunheld o' ⟨x, hx, h ▸ hm⟩
        exact Or.inr ⟨m, serial, hm, (Table.entry_afterSocket_of_ne n hmn).trans hopen, hserial⟩
  -- the new object holds `n` alone, and nobody else held `n`
  · intro o₁ o₂ m h₁ h₂
    by_cases ho₁ : o₁ = o <;> by_cases ho₂ : o₂ = o
    · exact ho₁.trans ho₂.symm
    · subst ho₁
      rw [holds_put_of_ne ho₂, ← (hself m).mp h₁] at h₂
      exact absurd h₂ (hunheld o₂)
    · subst ho₂
      rw [holds_put_of_ne ho₁, ← (hself m).mp h₂] at h₁
      exact absurd h₁ (hunheld o₁)
    · exact hp.exclusive o₁ o₂ m ((holds_put_of_ne ho₁).mp h₁) ((holds_put_of_ne ho₂).mp h₂)
  · intro m hm
    by_cases hmn : m = n
    · exact ⟨o, (hself m).mpr hmn.symm⟩
    · have hold : p.table.entry m ≠ none :=
        (Table.entry_afterSocket_of_ne n hmn).symm.trans_ne hm
      obtain ⟨o', ho'⟩ := hp.held m hold
      -- the holder is live, and the name `o` was free
      have hne : o' ≠ o := by
        rintro rfl
        obtain ⟨x, hx, -⟩ := ho'
        rw [hfree] at hx
        cases hx
      exact ⟨o', (holds_put_of_ne hne).mpr ho'⟩
  · exact hp.own

theorem Owned.keep (hp : Owned D p) {v : Option SocketObject} (hbefore : Idle D (p.objects o))
    (hv : Idle D v) : Owned D (p.put o v p.table) := by
  -- neither the old nor the new value of `o` holds a number
  have hholds {o' n : ℕ} : (p.put o v p.table).Holds o' n ↔ p.Holds o' n := by
    by_cases ho : o' = o
    · subst ho
      exact iff_of_false (not_holds_put_idle hv n) (not_holds_idle hbefore n)
    · exact holds_put_of_ne ho
  constructor
  · exact hp.ledger
  · intro o' x hx
    by_cases ho : o' = o
    · subst ho
      rw [put_self] at hx
      exact Or.inl (hv x hx)
    · rw [put_of_ne ho] at hx
      exact hp.holding o' x hx
  · intro o₁ o₂ n h₁ h₂
    exact hp.exclusive o₁ o₂ n (hholds.mp h₁) (hholds.mp h₂)
  · intro n hn
    obtain ⟨o', ho'⟩ := hp.held n hn
    exact ⟨o', hholds.mpr ho'⟩
  · exact hp.own

/-- The only holder of a descriptor closes it. -/
theorem Owned.release (hp : Owned D p) {x : SocketObject} (hx : p.objects o = some x)
    {n serial : ℕ} (hfd : x.socket.socketFd = n) (hn : p.table.entry n = some serial)
    (hserial : x.serial = some serial) {v : Option SocketObject} (hv : Idle D v) :
    Owned D (p.put o v (p.table.afterClose n x.serial serial)) := by
  -- `o` was the only holder of `n`
  have hother {o' : ℕ} (ho : o' ≠ o) {m : ℕ} (h : p.Holds o' m) : m ≠ n := by
    rintro rfl
    exact ho (hp.exclusive o' o m h ⟨x, hx, hfd⟩)
  have hne {o' m : ℕ} (h : (p.put o v (p.table.afterClose n x.serial serial)).Holds o' m) :
      o' ≠ o := by
    rintro rfl
    exact not_holds_put_idle hv m h
  constructor
  · exact hp.ledger.afterClose n x.serial hn
  · intro o' y hy
    by_cases ho : o' = o
    · subst ho
      rw [put_self] at hy
      exact Or.inl (hv y hy)
    · rw [put_of_ne ho] at hy
      rcases hp.holding o' y hy with herr | ⟨m, s, hm, hopen, hs⟩
      · exact Or.inl herr
      · have hmn : m ≠ n := hother ho ⟨y, hy, hm⟩
        have hsame := Table.entry_afterClose_of_ne (t := p.table) n hmn x.serial serial
        exact Or.inr ⟨m, s, hm, hsame.trans hopen, hs⟩
  · intro o₁ o₂ m h₁ h₂
    exact hp.exclusive o₁ o₂ m ((holds_put_of_ne (hne h₁)).mp h₁)
      ((holds_put_of_ne (hne h₂)).mp h₂)
  · intro m hm
    have hmn : m ≠ n := by
      rintro rfl
      exact hm (Table.entry_afterClose_self _ x.serial serial)
    have hold : p.table.entry m ≠ none :=
      (Table.entry_afterClose_of_ne n hmn x.serial serial).symm.trans_ne hm
    obtain ⟨o', ho'⟩ := hp.held m hold
    have ho : o' ≠ o := by
      rintro rfl
      obtain ⟨y, hy, hyfd⟩ := ho'
      rw [hx] at hy
      rw [← Option.some.inj hy, hfd] at hyfd
      exact hmn (Int.ofNat.inj hyfd).symm
    exact ⟨o', (holds_put_of_ne ho).mpr ho'⟩
  · intro e he
    rcases List.mem_append.mp he with hold | hnew
    · exact hp.own e hold
    · rw [List.mem_singleton.mp hnew]
      exact hserial

theorem Owned.closed (hp : Owned D p) {x : SocketObject} (hx : p.objects o = some x)
    {v : Option SocketObject} (hv : Idle D v) :
    Owned D (p.put o v ((x.socket.close D : Prog 0 Socket).exec
      (Table.handler x.serial none) p.table).2) := by
  -- either nothing is held, and the table stays, or the object's own descriptor goes
  rcases hp.holding o x hx with herr | ⟨n, serial, hfd, hn, hserial⟩
  · have hbefore : Idle D (p.objects o) := idle_of_eq hx herr
    rw [exec_close_idle x.serial none p.table herr]
    exact hp.keep hbefore hv
  · rw [exec_close_open x.serial none hfd hn]
    exact hp.release hx hfd hn hserial hv

end Invariant

section Steps

variable {D} {p p' : SocketProcess}

theorem idle_copy {x : SocketObject} (h : x.socket.socketFd = D.socketErr) :
    Idle D (some ⟨x.socket.copy, x.serial⟩) :=
  idle_of_eq rfl h

theorem put_eq_self {o : ℕ} {x : SocketObject} (hx : p.objects o = some x) :
    p.put o (some ⟨x.socket.copy, x.serial⟩) p.table = p := by
  have hcopy : SocketObject.mk x.socket.copy x.serial = x := rfl
  rw [put, hcopy, ← hx, Function.update_eq_self]

/-- What one operation does, the kernel's part of it included. -/
inductive Performs (D : SocketDefs) (p : SocketProcess) : Lifecycle → SocketProcess → Prop
  | made (o : ℕ) (tr : Transport) (choice : Option ℕ) (n : ℕ) (ho : p.objects o = none)
      (hn : p.table.entry n = none) :
      Performs D p (.construct o tr choice)
        (p.put o (some ⟨⟨n⟩, some p.table.made⟩) (p.table.afterSocket n))
  | failed (o : ℕ) (tr : Transport) (choice : Option ℕ) (ho : p.objects o = none) :
      Performs D p (.construct o tr choice) (p.put o (some ⟨Socket.init D, none⟩) p.table)
  | copied (o src : ℕ) (x : SocketObject) (ho : p.objects o = none)
      (hsrc : p.objects src = some x) :
      Performs D p (.copyConstruct o src) (p.put o (some ⟨x.socket.copy, x.serial⟩) p.table)
  | assigned (o src : ℕ) (y x : SocketObject) (ho : p.objects o = some y)
      (hsrc : p.objects src = some x) :
      Performs D p (.copyAssign o src) (p.put o (some ⟨x.socket.copy, x.serial⟩) p.table)
  | closed (o : ℕ) (x : SocketObject) (ho : p.objects o = some x) :
      Performs D p (.close o) (p.put o (some ⟨Socket.init D, none⟩)
        ((x.socket.close D : Prog 0 Socket).exec (Table.handler x.serial none) p.table).2)
  | destroyed (o : ℕ) (x : SocketObject) (ho : p.objects o = some x) :
      Performs D p (.destroy o) (p.put o none
        ((x.socket.close D : Prog 0 Socket).exec (Table.handler x.serial none) p.table).2)

theorem performs_of_step {l : Lifecycle} (hstep : step D l p = some p') :
    Performs D p l p' := by
  cases l with
  | construct o tr choice =>
    cases ho : p.objects o with
    | some x => simp [step, ho] at hstep
    | none =>
      simp only [step, ho, Option.some.injEq] at hstep
      rw [← hstep]
      rcases exec_construct (D := D) tr none choice p.table with ⟨n, hn, hexec⟩ | hexec
      · have hne : (n : ℤ) ≠ D.socketErr := by
          -- a kernel number is never `SOCKET_ERR`
          have hneg := D.socketErr_neg
          omega
        have hserial : newSerial D ⟨n⟩ p.table = some p.table.made := if_neg hne
        rw [hexec, hserial]
        exact .made o tr choice n ho hn
      · have hserial : newSerial D (Socket.init D) p.table = none := if_pos rfl
        rw [hexec, hserial]
        exact .failed o tr choice ho
  | copyConstruct o src =>
    cases ho : p.objects o <;> cases hsrc : p.objects src <;> simp only [step, ho, hsrc] at hstep
    all_goals cases hstep
    exact .copied o src _ ho hsrc
  | copyAssign o src =>
    cases ho : p.objects o <;> cases hsrc : p.objects src <;> simp only [step, ho, hsrc] at hstep
    all_goals cases hstep
    exact .assigned o src _ _ ho hsrc
  | close o =>
    cases ho : p.objects o with
    | none => simp [step, ho] at hstep
    | some x =>
      simp only [step, ho, Option.some.injEq, exec_close_fst] at hstep
      exact hstep ▸ .closed o x ho
  | destroy o =>
    cases ho : p.objects o with
    | none => simp [step, ho] at hstep
    | some x =>
      simp only [step, ho, Option.some.injEq, exec_destroy] at hstep
      exact hstep ▸ .destroyed o x ho

/-- Every operation but the copying of a descriptor keeps the invariant. -/
theorem Owned.performed {l : Lifecycle} (hp : Owned D p) (hl : Performs D p l p')
    (hcopies : CopiesNothing D l p) : Owned D p' := by
  cases hl with
  | made o tr choice n ho hn => exact hp.acquire ho hn
  | failed o tr choice ho => exact hp.keep (ho ▸ idle_none) idle_init
  | copied o src x ho hsrc => exact hp.keep (ho ▸ idle_none) (idle_copy (hcopies x hsrc))
  | assigned o src y x ho hsrc =>
    -- assigning an object to itself changes nothing
    rcases hcopies with rfl | ⟨hidle, hsrcIdle⟩
    · rwa [put_eq_self hsrc]
    · exact hp.keep hidle (idle_copy (hsrcIdle x hsrc))
  | closed o x ho => exact hp.closed ho idle_init
  | destroyed o x ho => exact hp.closed ho idle_none

theorem Owned.copied_idle (hp : Owned D p) {o src : ℕ} {x : SocketObject}
    (hsrc : p.objects src = some x) (hne : src ≠ o)
    (hsound : (p.put o (some ⟨x.socket.copy, x.serial⟩) p.table).Sound) :
    x.socket.socketFd = D.socketErr := by
  rcases hp.holding src x hsrc with herr | ⟨n, serial, hfd, hn, -⟩
  · exact herr
  · have hopen : p.table.entry n ≠ none := by
      rw [hn]
      exact Option.some_ne_none serial
    -- if a descriptor is copied, the copy and the original both hold it
    have hcopy : (p.put o (some ⟨x.socket.copy, x.serial⟩) p.table).Holds o n :=
      holds_put_self.mpr ⟨_, rfl, hfd⟩
    have horiginal : (p.put o (some ⟨x.socket.copy, x.serial⟩) p.table).Holds src n :=
      (holds_put_of_ne hne).mpr ⟨x, hsrc, hfd⟩
    exact absurd (hsound.exclusive n hopen src o horiginal hcopy) hne

theorem Owned.overwritten_idle (hp : Owned D p) {o : ℕ} {y : SocketObject}
    (ho : p.objects o = some y) {v : Option SocketObject} (hv : Idle D v)
    (hsound : (p.put o v p.table).Sound) : y.socket.socketFd = D.socketErr := by
  rcases hp.holding o y ho with herr | ⟨n, serial, hfd, hn, -⟩
  · exact herr
  · have hopen : p.table.entry n ≠ none := by
      rw [hn]
      exact Option.some_ne_none serial
    -- if a descriptor is overwritten, somebody else must have held it before
    obtain ⟨o', ho'⟩ := hsound.held n hopen
    have hne : o' ≠ o := by
      rintro rfl
      exact not_holds_put_idle hv n ho'
    exact absurd (hp.exclusive o' o n ((holds_put_of_ne hne).mp ho') ⟨y, ho, hfd⟩) hne

/-- Copying a descriptor breaks the ownership at once. -/
theorem Owned.copiesNothing {l : Lifecycle} (hp : Owned D p) (hl : Performs D p l p')
    (hsound : p'.Sound) : CopiesNothing D l p := by
  cases hl with
  | made | failed | closed | destroyed => trivial
  | copied o src x ho hsrc =>
    have hne : src ≠ o := by
      rintro rfl
      rw [ho] at hsrc
      cases hsrc
    exact idle_of_eq hsrc (hp.copied_idle hsrc hne hsound)
  | assigned o src y x ho hsrc =>
    by_cases hne : o = src
    · exact Or.inl hne
    -- first the source is seen to be idle, and then the object that is assigned to
    · have hidle := hp.copied_idle hsrc (Ne.symm hne) hsound
      have hover := hp.overwritten_idle ho (idle_copy hidle) hsound
      exact Or.inr ⟨idle_of_eq ho hover, idle_of_eq hsrc hidle⟩

end Steps

end SocketProcess

/-- Over every history of objects and every behaviour of the kernel, descriptors are owned in
every state exactly when no operation copies one. -/
theorem descriptors_owned_iff (D : SocketDefs) (history : List Lifecycle) :
    (SocketProcess.machine D).Always SocketProcess.Sound history SocketProcess.init ↔
      (SocketProcess.machine D).Throughout (SocketProcess.CopiesNothing D) history
        SocketProcess.init := by
  apply Machine.always_iff_throughout (I := SocketProcess.Owned D)
  -- the invariant gives the property, is kept by the operations that copy nothing,
  -- and any other operation breaks the property at once
  · exact fun p hp => hp.sound
  · exact fun l p p' hp hstep => hp.performed (SocketProcess.performs_of_step hstep)
  · exact fun l p p' hp hstep => hp.copiesNothing (SocketProcess.performs_of_step hstep)
  · exact SocketProcess.owned_init

/-- A copy outlives its original, the number is given to a third object, and the copy's
destructor closes the third object's descriptor. -/
def staleCopy : List Lifecycle :=
  [.construct 0 .udp (some 3), .copyConstruct 1 0, .destroy 0, .construct 2 .udp (some 3),
    .destroy 1]

theorem stale_copy_closes_stranger :
    ¬ (SocketProcess.machine .failure).Always SocketProcess.Sound staleCopy
      SocketProcess.init := by
  intro h
  have hrun : ∃ p, (SocketProcess.machine .failure).run staleCopy SocketProcess.init =
      some p ∧ p.table.closings = [(some 0, 0), (some 0, 1)] := ⟨_, rfl, rfl⟩
  obtain ⟨p, hp, hclosings⟩ := hrun
  -- the copy believes in descriptor 0 and closes descriptor 1
  have hown := (h.last hp).own (some 0, 1)
  rw [hclosings] at hown
  exact absurd (hown (by decide)) (by decide)

end Marko
