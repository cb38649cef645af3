import Mathlib.Data.List.Nodup
import Marko.DescriptorTable
import Marko.PymarkoUDPSocket

/-! How a process asks for its own address: `get_host_ip` of `info.hpp` and `get_ip` of `ip.py`.
Both make a socket for the question alone. -/
namespace HostAddress

open Datagram (Errno)
open Descriptor Interaction Pymarko

/-- The kernel's calls and the resolver's. Every one of them may fail. -/
inductive Call where
  | socket (family : AddressFamily) (type : SocketType) (proto : ℤ)
  | connect (fd : ℤ) (dest : Address)
  | getsockname (fd : ℤ)
  | close (fd : ℤ)
  | gethostname
  | gethostbyname (name : String)
  deriving DecidableEq, Repr

abbrev Call.Answer : Call → Type
  | .socket .. => Except Errno ℕ
  | .connect .. => Except Errno Unit
  | .getsockname _ => Except Errno Address
  | .close _ => Except Errno Unit
  | .gethostname => Except Errno String
  | .gethostbyname _ => Except Errno String

abbrev sig : Signature := ⟨Call, Call.Answer⟩

abbrev Prog (α : Type) := Program sig α

def ask (c : Call) : Prog (c.Answer) := Program.ask (S := sig) c

/-- The descriptor that a call of `socket` returns to C++. -/
def fdOf : Except Errno ℕ → ℤ
  | .ok n => n
  | .error _ => -1

/-- `inetSockaddr` is `inet_sockaddr` of `socket_defs.hpp`. -/
def getHostIp (inetSockaddr : String → Address) : Prog String := do
  let sockfd := fdOf (← ask (.socket .afInet .sockDgram 0))
  if sockfd < 0 then pure ""
  else
    let addr := inetSockaddr "udp://9.9.9.9:9999"
    let _ ← ask (.connect sockfd addr)
    match ← ask (.getsockname sockfd) with
    -- the descriptor is still open here
    | .error _ => pure ""
    | .ok addr =>
      let address := addr.1
      let _ ← ask (.close sockfd)
      pure address

/-- A call from Python, which raises when it fails. -/
def raising {α : Type} (p : Prog (Except Errno α)) : ExceptT PyError (Program sig) α :=
  ExceptT.mk (Except.mapError Sock.raiseErrno <$> p)

/-- `n += '.local'`, unless the name has it already. -/
def zeroconf (n : String) : String :=
  if ".local".toList <:+: n.toList then n else n ++ ".local"

/-- The body of the `try` in `get_ip`. -/
def sockname (s : ℕ) : ExceptT PyError (Program sig) String := do
  raising (ask (.connect s ("10.255.255.255", 1)))
  let name ← raising (ask (.getsockname s))
  pure name.1

/-- The body of its `except`. -/
def resolve : ExceptT PyError (Program sig) String := do
  try
    let n ← raising (ask .gethostname)
    raising (ask (.gethostbyname (zeroconf n)))
  catch _ => pure "127.0.0.1"

def getIp : ExceptT PyError (Program sig) String := do
  let s ← raising (ask (.socket .afInet .sockDgram 0))
  try
    sockname s
  catch _ => resolve
  finally
    raising (ask (.close s))

theorem getHostIp_eq (inetSockaddr : String → Address) : getHostIp inetSockaddr =
    .call (.socket .afInet .sockDgram 0) fun ans =>
      if fdOf ans < 0 then .done ""
      else .call (.connect (fdOf ans) (inetSockaddr "udp://9.9.9.9:9999")) fun _ =>
        .call (.getsockname (fdOf ans)) fun
          | .error _ => .done ""
          | .ok addr => .call (.close (fdOf ans)) fun _ => .done addr.1 := by
  apply Program.call_congr
  intro ans
  by_cases hfd : fdOf ans < 0
  · exact (if_pos hfd).trans (if_pos hfd).symm
  · refine (if_neg hfd).trans (Eq.trans ?_ (if_neg hfd).symm)
    apply Program.call_congr
    intro connected
    apply Program.call_congr
    intro name
    cases name <;> rfl

theorem run_resolve : resolve.run =
    .call .gethostname fun
      | .error _ => .done (.ok "127.0.0.1")
      | .ok n => .call (.gethostbyname (zeroconf n)) fun ip =>
          .done (.ok (ip.toOption.getD "127.0.0.1")) := by
  apply Program.call_congr
  intro n
  cases n with
  | error e => rfl
  | ok n =>
    apply Program.call_congr
    intro ip
    cases ip <;> rfl

theorem run_tryCatch_sockname (s : ℕ) : (tryCatch (sockname s) fun _ => resolve).run =
    .call (.connect s ("10.255.255.255", 1)) fun
      | .error _ => resolve.run
      | .ok _ => .call (.getsockname s) fun
          | .error _ => resolve.run
          | .ok name => .done (.ok name.1) := by
  apply Program.call_congr
  intro connected
  cases connected with
  | error e => rfl
  | ok u =>
    apply Program.call_congr
    intro name
    cases name <;> rfl

/-- However the question is settled, the socket made for it is closed. -/
theorem run_getIp : getIp.run =
    .call (.socket .afInet .sockDgram 0) fun
      | .error e => .done (.error (Sock.raiseErrno e))
      | .ok s => (tryCatch (sockname s) fun _ => resolve).run >>= fun ip =>
          .call (.close s) fun closed =>
            .done (closed.mapError Sock.raiseErrno >>= fun _ => ip) := by
  apply Program.call_congr
  intro ans
  cases ans with
  | error e => rfl
  | ok s =>
    refine (Program.run_tryFinally _ _).trans ?_
    apply bind_congr
    intro ip
    apply Program.call_congr
    intro closed
    cases closed <;> rfl

/-- What the kernel and the resolver have in store for one lookup. `number` is the descriptor
that the kernel hands out if it is unused. -/
structure Kernel where
  number : Option ℕ
  errno : Errno
  connect : Except Errno Unit
  sockname : Except Errno Address
  hostname : Except Errno String
  hostbyname : String → Except Errno String

/-- A return value below zero stands for a failure. -/
def Kernel.result (k : Kernel) (r : ℤ) : Except Errno ℕ :=
  if r < 0 then .error k.errno else .ok r.toNat

/-- The caller means to close what has the serial `believed`. -/
def Kernel.handler (k : Kernel) (believed : ℕ) : Handler sig Table
  | .socket .., t => (k.result (Table.socket k.number t).1, (Table.socket k.number t).2)
  | .connect .., t => (k.connect, t)
  | .getsockname _, t => (k.sockname, t)
  | .close fd, t =>
      ((k.result (Table.close (some believed) fd t).1).map fun _ => (),
        (Table.close (some believed) fd t).2)
  | .gethostname, t => (k.hostname, t)
  | .gethostbyname name, t => (k.hostbyname name, t)

def Kernel.resolved (k : Kernel) : String :=
  match k.hostname with
  | .ok n => (k.hostbyname (zeroconf n)).toOption.getD "127.0.0.1"
  | .error _ => "127.0.0.1"

/-- What `get_ip` returns once it has a socket. -/
def Kernel.ip (k : Kernel) : String :=
  match k.connect, k.sockname with
  | .ok _, .ok name => name.1
  | _, _ => k.resolved

section Runs

variable {k : Kernel} {t : Table} {n : ℕ}

/-- The kernel has a descriptor for the lookup. -/
def Kernel.Opens (k : Kernel) (t : Table) (n : ℕ) : Prop := k.number = some n ∧ t.entry n = none

theorem socket_opens (h : k.Opens t n) : Table.socket k.number t = ((n : ℤ), t.afterSocket n) := by
  rw [h.1]
  exact Table.socket_unused n h.2

theorem socket_fails (h : ∀ n, ¬ k.Opens t n) : Table.socket k.number t = (-1, t) := by
  unfold Table.socket
  cases hn : k.number with
  | none => rfl
  | some n => exact if_neg fun hfree => h n ⟨hn, hfree⟩

theorem result_coe (n : ℕ) : k.result n = .ok n := by
  have hnonneg : ¬ (n : ℤ) < 0 := by omega
  rw [Kernel.result, if_neg hnonneg, Int.toNat_natCast]

variable (believed : ℕ)

theorem handler_socket_opens (h : k.Opens t n) (family : AddressFamily) (type : SocketType)
    (proto : ℤ) : k.handler believed (.socket family type proto) t = (.ok n, t.afterSocket n) := by
  show (k.result (Table.socket k.number t).1, (Table.socket k.number t).2) = _
  rw [socket_opens h, result_coe]

theorem handler_socket_fails (h : ∀ n, ¬ k.Opens t n) (family : AddressFamily) (type : SocketType)
    (proto : ℤ) : k.handler believed (.socket family type proto) t = (.error k.errno, t) := by
  show (k.result (Table.socket k.number t).1, (Table.socket k.number t).2) = _
  rw [socket_fails h]
  rfl

theorem handler_connect (fd : ℤ) (dest : Address) :
    k.handler believed (.connect fd dest) t = (k.connect, t) := rfl

theorem handler_getsockname (fd : ℤ) :
    k.handler believed (.getsockname fd) t = (k.sockname, t) := rfl

theorem handler_gethostname : k.handler believed .gethostname t = (k.hostname, t) := rfl

theorem handler_close_opened (n : ℕ) : k.handler believed (.close n) (t.afterSocket n) =
    (.ok (), (t.afterSocket n).afterClose n (some believed) t.made) := by
  show ((k.result (Table.close (some believed) n (t.afterSocket n)).1).map fun _ => (),
    (Table.close (some believed) n (t.afterSocket n)).2) = _
  rw [Table.close_open n (some believed) (Table.entry_afterSocket_self n)]
  rfl

theorem exec_getHostIp_opens (inetSockaddr : String → Address) (h : k.Opens t n) :
    (getHostIp inetSockaddr).exec (k.handler believed) t =
      match k.sockname with
      | .error _ => ("", t.afterSocket n)
      | .ok name => (name.1, (t.afterSocket n).afterClose n (some believed) t.made) := by
  have hnonneg : ¬ fdOf (.ok n) < 0 := Int.not_lt.mpr (Int.natCast_nonneg n)
  rw [getHostIp_eq, Program.exec_call, handler_socket_opens believed h, if_neg hnonneg,
    Program.exec_call, handler_connect, Program.exec_call, handler_getsockname]
  cases k.sockname with
  | error e => rfl
  | ok name =>
    show (name.1, (k.handler believed (.close n) (t.afterSocket n)).2) = _
    rw [handler_close_opened]

theorem exec_getHostIp_fails (inetSockaddr : String → Address) (h : ∀ n, ¬ k.Opens t n) :
    (getHostIp inetSockaddr).exec (k.handler believed) t = ("", t) := by
  rw [getHostIp_eq, Program.exec_call, handler_socket_fails believed h]
  rfl

theorem exec_resolve : resolve.run.exec (k.handler believed) t = (.ok k.resolved, t) := by
  rw [run_resolve, Program.exec_call, handler_gethostname, Kernel.resolved]
  cases k.hostname <;> rfl

theorem exec_tryCatch_sockname (s : ℕ) :
    (tryCatch (sockname s) fun _ => resolve).run.exec (k.handler believed) t = (.ok k.ip, t) := by
  rw [run_tryCatch_sockname, Program.exec_call, handler_connect, Kernel.ip]
  cases k.connect with
  | error e => exact exec_resolve believed
  | ok u =>
    rw [Program.exec_call, handler_getsockname]
    cases k.sockname with
    | error e => exact exec_resolve believed
    | ok name => rfl

theorem exec_getIp_opens (h : k.Opens t n) :
    getIp.run.exec (k.handler believed) t =
      (.ok k.ip, (t.afterSocket n).afterClose n (some believed) t.made) := by
  rw [run_getIp, Program.exec_call, handler_socket_opens believed h, Program.exec_bind,
    exec_tryCatch_sockname, Program.exec_call, handler_close_opened]
  rfl

theorem exec_getIp_fails (h : ∀ n, ¬ k.Opens t n) :
    getIp.run.exec (k.handler believed) t = (.error (Sock.raiseErrno k.errno), t) := by
  rw [run_getIp, Program.exec_call, handler_socket_fails believed h]
  rfl

end Runs

inductive Lookup where
  | cpp (k : Kernel)
  | python (k : Kernel)

def Lookup.kernel : Lookup → Kernel
  | .cpp k => k
  | .python k => k

/-- The descriptor, with its serial number, that a lookup makes and does not close. -/
def Lookup.leak : Lookup → Table → Option (ℕ × ℕ)
  | .cpp k, t =>
    match k.number, k.sockname with
    | some n, .error _ => if t.entry n = none then some (n, t.made) else none
    | _, _ => none
  | .python _, _ => none

def Lookup.run (inetSockaddr : String → Address) : Lookup → Table → Table
  | .cpp k, t => ((getHostIp inetSockaddr).exec (k.handler t.made) t).2
  | .python k, t => (getIp.run.exec (k.handler t.made) t).2

section Lookups

variable (inetSockaddr : String → Address)

def runAll : List Lookup → Table → Table
  | [], t => t
  | l :: ls, t => runAll ls (l.run inetSockaddr t)

def leaks : List Lookup → Table → List (ℕ × ℕ)
  | [], _ => []
  | l :: ls, t => (l.leak t).toList ++ leaks ls (l.run inetSockaddr t)

/-- What one lookup does to the table. -/
theorem Lookup.run_cases (l : Lookup) (t : Table) :
    (l.run inetSockaddr t = t ∧ l.leak t = none) ∨
      (∃ n, t.entry n = none ∧ l.leak t = some (n, t.made) ∧
        l.run inetSockaddr t = t.afterSocket n) ∨
      ∃ n, t.entry n = none ∧ l.leak t = none ∧
        l.run inetSockaddr t = (t.afterSocket n).afterClose n (some t.made) t.made := by
  cases l with
  | cpp k =>
    by_cases hopens : ∃ n, k.Opens t n
    · obtain ⟨n, hn⟩ := hopens
      right
      rw [leak, hn.1, run, exec_getHostIp_opens t.made inetSockaddr hn]
      cases k.sockname with
      -- without a name the function returns before its `close`
      | error e => exact .inl ⟨n, hn.2, if_pos hn.2, rfl⟩
      | ok name => exact .inr ⟨n, hn.2, rfl, rfl⟩
    · have hfails : ∀ n, ¬ k.Opens t n := fun n hn => hopens ⟨n, hn⟩
      left
      rw [leak, run, exec_getHostIp_fails t.made inetSockaddr hfails]
      refine ⟨rfl, ?_⟩
      cases hn : k.number with
      | none => rfl
      | some n =>
        cases k.sockname with
        | error e => exact if_neg fun hfree => hfails n ⟨hn, hfree⟩
        | ok name => rfl
  | python k =>
    by_cases hopens : ∃ n, k.Opens t n
    · obtain ⟨n, hn⟩ := hopens
      right
      right
      refine ⟨n, hn.2, rfl, ?_⟩
      rw [run, exec_getIp_opens t.made hn]
    · left
      refine ⟨?_, rfl⟩
      rw [run, exec_getIp_fails t.made fun n hn => hopens ⟨n, hn⟩]

/-- From `t` to `t'` the descriptors `leaked` were made and left open, and every other one that
was made was closed by whoever made it. -/
structure Leaves (t t' : Table) (leaked : List (ℕ × ℕ)) : Prop where
  ledger : t.Ledger → t'.Ledger
  entries : ∀ n serial, t'.entry n = some serial ↔ t.entry n = some serial ∨ (n, serial) ∈ leaked
  unused : ∀ e ∈ leaked, t.entry e.1 = none
  distinct : (leaked.map Prod.fst).Nodup
  closings : ∃ own, t'.closings = t.closings ++ own ∧ (∀ e ∈ own, e.1 = some e.2) ∧
    t.made + own.length + leaked.length = t'.made

theorem Leaves.refl (t : Table) : Leaves t t [] where
  ledger := id
  entries n serial := by simp
  unused e he := absurd he List.not_mem_nil
  distinct := List.nodup_nil
  closings := ⟨[], (List.append_nil _).symm, fun e he => absurd he List.not_mem_nil, rfl⟩

theorem Leaves.trans {t t' t'' : Table} {xs ys : List (ℕ × ℕ)} (h : Leaves t t' xs)
    (h' : Leaves t' t'' ys) : Leaves t t'' (xs ++ ys) where
  ledger := h'.ledger ∘ h.ledger
  entries n serial := by rw [h'.entries, h.entries, List.mem_append, or_assoc]
  unused e he := by
    rcases List.mem_append.mp he with hx | hy
    · exact h.unused e hx
    -- what was in use before is in use still
    · by_contra hused
      obtain ⟨serial, hserial⟩ := Option.ne_none_iff_exists'.mp hused
      have hstill := (h.entries e.1 serial).mpr (.inl hserial)
      rw [h'.unused e hy] at hstill
      cases hstill
  distinct := by
    rw [List.map_append, List.nodup_append]
    refine ⟨h.distinct, h'.distinct, ?_⟩
    intro n hx m hy heq
    obtain ⟨e, he, rfl⟩ := List.mem_map.mp hx
    obtain ⟨e', he', rfl⟩ := List.mem_map.mp hy
    have hstill := (h.entries e.1 e.2).mpr (.inr he)
    rw [heq, h'.unused e' he'] at hstill
    cases hstill
  closings := by
    obtain ⟨own, hown, hself, hmade⟩ := h.closings
    obtain ⟨own', hown', hself', hmade'⟩ := h'.closings
    refine ⟨own ++ own', by rw [hown', hown, List.append_assoc], ?_, ?_⟩
    · exact List.forall_mem_append.mpr ⟨hself, hself'⟩
    · rw [List.length_append, List.length_append]
      omega

theorem leaves_open {t : Table} {n : ℕ} (hn : t.entry n = none) :
    Leaves t (t.afterSocket n) [(n, t.made)] where
  ledger ht := ht.afterSocket n hn
  entries m serial := by
    rw [List.mem_singleton, Prod.mk.injEq]
    by_cases hm : m = n
    · subst hm
      rw [Table.entry_afterSocket_self, hn]
      simp [eq_comm]
    · simp [Table.entry_afterSocket_of_ne n hm, hm]
  unused e he := by
    rw [List.mem_singleton.mp he]
    exact hn
  distinct := List.nodup_singleton n
  closings := ⟨[], (List.append_nil _).symm, fun e he => absurd he List.not_mem_nil, rfl⟩

theorem leaves_nothing {t : Table} {n : ℕ} (hn : t.entry n = none) :
    Leaves t ((t.afterSocket n).afterClose n (some t.made) t.made) [] where
  ledger ht := (ht.afterSocket n hn).afterClose n _ (Table.entry_afterSocket_self n)
  entries m serial := by
    have hentry : ((t.afterSocket n).afterClose n (some t.made) t.made).entry = t.entry := by
      show Function.update (Function.update t.entry n (some t.made)) n none = t.entry
      rw [Function.update_idem, ← hn, Function.update_eq_self]
    rw [hentry, or_iff_left List.not_mem_nil]
  unused e he := absurd he List.not_mem_nil
  distinct := List.nodup_nil
  closings := ⟨[(some t.made, t.made)], rfl,
    fun e he => by rw [List.mem_singleton.mp he], rfl⟩

theorem Lookup.leaves (l : Lookup) (t : Table) :
    Leaves t (l.run inetSockaddr t) (l.leak t).toList := by
  rcases l.run_cases inetSockaddr t with ⟨hrun, hleak⟩ | ⟨n, hn, hleak, hrun⟩ | ⟨n, hn, hleak, hrun⟩
  · rw [hrun, hleak]
    exact .refl t
  · rw [hrun, hleak]
    exact leaves_open hn
  · rw [hrun, hleak]
    exact leaves_nothing hn

theorem leaves_runAll (ls : List Lookup) (t : Table) :
    Leaves t (runAll inetSockaddr ls t) (leaks inetSockaddr ls t) := by
  induction ls generalizing t with
  | nil => exact .refl t
  | cons l ls ih => exact (l.leaves inetSockaddr t).trans (ih _)

theorem Lookup.number_of_leak {l : Lookup} {t : Table} {e : ℕ × ℕ} (h : l.leak t = some e) :
    l.kernel.number = some e.1 := by
  cases l with
  | cpp k =>
    cases hn : k.number with
    | none =>
      rw [leak, hn] at h
      cases h
    | some n =>
      cases hname : k.sockname with
      | ok name =>
        rw [leak, hn, hname] at h
        cases h
      | error err =>
        rw [leak, hn, hname] at h
        obtain ⟨-, he⟩ := Option.ite_none_right_eq_some.mp h
        rw [← Option.some.inj he]
        exact hn
  | python k => cases h

theorem number_of_mem_leaks {ls : List Lookup} {t : Table} {e : ℕ × ℕ}
    (h : e ∈ leaks inetSockaddr ls t) : ∃ l ∈ ls, l.kernel.number = some e.1 := by
  induction ls generalizing t with
  | nil => exact absurd h List.not_mem_nil
  | cons l ls ih =>
    rcases List.mem_append.mp h with hl | hls
    · exact ⟨l, List.mem_cons_self, l.number_of_leak (Option.mem_toList.mp hl)⟩
    · obtain ⟨l', hl', hn⟩ := ih hls
      exact ⟨l', List.mem_cons_of_mem l hl', hn⟩

/-- The numbers below `limit` that no descriptor has. -/
def free (limit : ℕ) (t : Table) : List ℕ := (List.range limit).filter fun n => t.entry n = none

theorem mem_free {limit n : ℕ} {t : Table} : n ∈ free limit t ↔ n < limit ∧ t.entry n = none := by
  rw [free, List.mem_filter, List.mem_range, decide_eq_true_iff]

theorem nodup_free (limit : ℕ) (t : Table) : (free limit t).Nodup :=
  List.nodup_range.filter _

theorem Leaves.entry_eq_none_iff {t t' : Table} {leaked : List (ℕ × ℕ)} (h : Leaves t t' leaked)
    {n : ℕ} : t'.entry n = none ↔ t.entry n = none ∧ n ∉ leaked.map Prod.fst := by
  have hentries := h.entries n
  constructor
  · intro hnone
    rw [hnone] at hentries
    refine ⟨Option.eq_none_iff_forall_ne_some.mpr fun serial hserial => ?_, fun hmem => ?_⟩
    · cases (hentries serial).mpr (.inl hserial)
    · obtain ⟨e, he, rfl⟩ := List.mem_map.mp hmem
      cases (hentries e.2).mpr (.inr he)
  · rintro ⟨hnone, hmem⟩
    refine Option.eq_none_iff_forall_ne_some.mpr fun serial hserial => ?_
    rcases (hentries serial).mp hserial with hused | hleaked
    · rw [hnone] at hused
      cases hused
    · exact hmem (List.mem_map_of_mem hleaked)

/-- What was free before is free still or left behind. -/
theorem Leaves.perm_free {t t' : Table} {leaked : List (ℕ × ℕ)} (h : Leaves t t' leaked)
    {limit : ℕ} (hlimit : ∀ e ∈ leaked, e.1 < limit) :
    (leaked.map Prod.fst ++ free limit t').Perm (free limit t) := by
  have hdisjoint : ∀ n ∈ leaked.map Prod.fst, ∀ m ∈ free limit t', n ≠ m := by
    rintro n hn m hm rfl
    exact (h.entry_eq_none_iff.mp (mem_free.mp hm).2).2 hn
  have hnodup : (leaked.map Prod.fst ++ free limit t').Nodup :=
    List.nodup_append.mpr ⟨h.distinct, nodup_free limit t', hdisjoint⟩
  rw [List.perm_ext_iff_of_nodup hnodup (nodup_free limit t)]
  intro n
  rw [List.mem_append, mem_free, mem_free, h.entry_eq_none_iff]
  by_cases hn : n ∈ leaked.map Prod.fst
  · obtain ⟨e, he, rfl⟩ := List.mem_map.mp hn
    exact iff_of_true (.inl hn) ⟨hlimit e he, h.unused e he⟩
  · simp only [hn, false_or, not_false_eq_true, and_true]

/-- Over any history of lookups, whatever the kernel and the resolver answer: every descriptor
made for one is closed again by that lookup and nothing else is closed, except that `get_host_ip`
leaves its descriptor open when `getsockname` fails. In a process that may have `limit`
descriptors each one left open is a free number less, and once as many are left open as were free
no lookup of either kind gets one any more. -/
theorem lookups_exhaust {limit : ℕ} {ls : List Lookup} (t : Table)
    (hlimit : ∀ l ∈ ls, ∀ n, l.kernel.number = some n → n < limit) :
    Leaves t (runAll inetSockaddr ls t) (leaks inetSockaddr ls t) ∧
      (leaks inetSockaddr ls t).length + (free limit (runAll inetSockaddr ls t)).length =
        (free limit t).length ∧
      ((leaks inetSockaddr ls t).length = (free limit t).length → ∀ k : Kernel,
        (∀ n, k.number = some n → n < limit) →
        (getHostIp inetSockaddr).exec (k.handler (runAll inetSockaddr ls t).made)
            (runAll inetSockaddr ls t) = ("", runAll inetSockaddr ls t) ∧
          getIp.run.exec (k.handler (runAll inetSockaddr ls t).made) (runAll inetSockaddr ls t) =
            (.error (Sock.raiseErrno k.errno), runAll inetSockaddr ls t)) := by
  have hleaves := leaves_runAll inetSockaddr ls t
  have hlt : ∀ e ∈ leaks inetSockaddr ls t, e.1 < limit := by
    intro e he
    obtain ⟨l, hl, hnumber⟩ := number_of_mem_leaks inetSockaddr he
    exact hlimit l hl e.1 hnumber
  -- a descriptor that was free is free still or was left open
  have hlength : (leaks inetSockaddr ls t).length +
      (free limit (runAll inetSockaddr ls t)).length = (free limit t).length := by
    have hperm := (hleaves.perm_free hlt).length_eq
    rwa [List.length_append, List.length_map] at hperm
  refine ⟨hleaves, hlength, ?_⟩
  intro hall k hk
  have hnothing : free limit (runAll inetSockaddr ls t) = [] := by
    apply List.eq_nil_of_length_eq_zero
    omega
  have hfails : ∀ n, ¬ k.Opens (runAll inetSockaddr ls t) n := by
    rintro n ⟨hn, hunused⟩
    have hmem : n ∈ free limit (runAll inetSockaddr ls t) := mem_free.mpr ⟨hk n hn, hunused⟩
    rw [hnothing] at hmem
    exact absurd hmem List.not_mem_nil
  exact ⟨exec_getHostIp_fails _ inetSockaddr hfails, exec_getIp_fails _ hfails⟩

/-- A kernel that has the descriptor 1 to give and does not tell the socket's name. -/
def namelessKernel : Kernel where
  number := some 1
  errno := .other 24
  connect := .ok ()
  sockname := .error (.other 105)
  hostname := .ok "pi"
  hostbyname _ := .ok "10.0.0.7"

/-- Of two descriptors the first is in use, and one call that could not read the socket's name
uses up the other one. -/
theorem lookups_exhaust_nameless :
    (getIp.run.exec (namelessKernel.handler 2) (runAll (fun _ => ("9.9.9.9", 9999))
      [.cpp namelessKernel] (Table.empty.afterSocket 0))).1 = .error (.osError (.other 24)) := by
  have hlimit : ∀ l ∈ [Lookup.cpp namelessKernel], ∀ n, l.kernel.number = some n → n < 2 := by
    intro l hl n hn
    rw [List.mem_singleton.mp hl] at hn
    cases hn
    exact Nat.one_lt_two
  have hfails := (lookups_exhaust (fun _ => ("9.9.9.9", 9999)) (Table.empty.afterSocket 0)
    hlimit).2.2 rfl namelessKernel (hlimit _ List.mem_cons_self)
  exact congrArg Prod.fst hfails.2

end Lookups

end HostAddress
