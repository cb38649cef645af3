import Mathlib.Data.List.TakeWhile
import Mathlib.Logic.Function.Basic
import Marko.MarkoRequestReply

/-! The way of a Unix address from the kernel through `recvfrom` and `once` back to the kernel.
The kernel reports an address with its length; the class sends to all `pathSize` bytes of
`sun_path`. -/
namespace Marko

open Datagram Interaction

structure Pathname where
  bytes : Bytes
  ne_nil : bytes ≠ []
  no_nul : ∀ b ∈ bytes, b ≠ 0
  deriving DecidableEq

/-- What a Unix socket can be bound to. An abstract name is a NUL and the bytes given here. -/
inductive UnixName where
  | pathname (path : Pathname)
  | abstractName (rest : Bytes)
  deriving DecidableEq

/-- The bytes after the family; their number is the length that the kernel reports. It may
count NULs behind a pathname. -/
def UnixName.report (terminators : ℕ) : UnixName → Bytes
  | .pathname path => path.bytes ++ List.replicate terminators 0
  | .abstractName rest => 0 :: rest

/-- The name in the bytes of an address of a given length: a pathname ends at the first NUL, and
an abstract name is all of them. -/
def UnixName.ofBytes : Bytes → Option UnixName
  | [] => none
  | b :: rest =>
    if hb : b = 0 then some (.abstractName rest)
    else some (.pathname
      { bytes := (b :: rest).takeWhile (· ≠ 0)
        ne_nil := by simp [hb]
        no_nul := fun c hc => by simpa using List.mem_takeWhile_imp hc })

def afUnix : UInt16 := 1

/-- `sockaddr_un`. -/
structure SockaddrUn (pathSize : ℕ) where
  sunFamily : UInt16
  sunPath : Bytes
  length_sunPath : sunPath.length = pathSize
  deriving DecidableEq

namespace SockaddrUn

variable {pathSize : ℕ}

/-- The record after `memset`. -/
instance : Zero (SockaddrUn pathSize) where
  zero := ⟨0, List.replicate pathSize 0, List.length_replicate⟩

/-- The kernel writes what fits of an address into the record. The length that it reports
besides goes to `from_len`, which nobody reads. -/
def fillIn (a : SockaddrUn pathSize) (path : Bytes) : SockaddrUn pathSize where
  sunFamily := afUnix
  sunPath := path.take pathSize ++ a.sunPath.drop path.length
  length_sunPath := by
    rw [List.length_append, List.length_take, List.length_drop, a.length_sunPath]
    omega

/-- What the kernel is asked to send to: the length passed to it is that of the record. -/
def resolve (a : SockaddrUn pathSize) : Option UnixName :=
  if a.sunFamily = afUnix then UnixName.ofBytes a.sunPath else none

end SockaddrUn

/-- A socket's receive queue with the sources, and the queues of the sockets bound in the
system. -/
structure UnixNet where
  inbox : List (Bytes × UnixName)
  queues : UnixName → Option (List Bytes)

/-- Every datagram for a name that some socket is bound to is taken. -/
def UnixNet.deliver (w : UnixNet) (dst : Option UnixName) (msg : Bytes) : SendAnswer × UnixNet :=
  match dst with
  | none => (.failed (.other 22), w)
  | some name =>
    match w.queues name with
    | none => (.failed .connRefused, w)
    | some q =>
      (.sent msg.length, { w with queues := Function.update w.queues name (some (q ++ [msg])) })

/-- The kernel under one socket, whose callback is `f`. -/
def UnixNet.handler {pathSize : ℕ} (terminators : ℕ) (f : Message → Message) :
    Handler (sig (SockaddrUn pathSize) Unit Message) UnixNet
  | .recvfrom size _, w =>
    match w.inbox with
    | [] => (.failed .again, w)
    | (payload, peer) :: rest =>
      -- the class has zeroed the record before the call
      (.received (payload.take size) ((0 : SockaddrUn pathSize).fillIn (peer.report terminators)),
        { w with inbox := rest })
  | .sendto msg dst _, w => w.deliver dst.resolve msg
  | .callback _ m, w => (f m, w)
  | .bind _, w => ((-1 : ℤ), w)
  | .getpeername, w => (none, w)
  | .setsockopt .., w => ((-1 : ℤ), w)

/-- The names that fill the record, or end in it. -/
def UnixName.Fits (pathSize : ℕ) : UnixName → Prop
  | .pathname path => path.bytes.length ≤ pathSize
  | .abstractName rest => rest.length + 1 = pathSize

section Names

variable {pathSize : ℕ}

theorem ofBytes_padded (path : Bytes) (hnul : ∀ b ∈ path, b ≠ 0) (hne : path ≠ []) (k : ℕ) :
    UnixName.ofBytes (path ++ List.replicate k 0) = some (.pathname ⟨path, hne, hnul⟩) := by
  have htake : (path ++ List.replicate k 0).takeWhile (· ≠ 0) = path := by
    rw [List.takeWhile_append_of_pos (by simpa using hnul)]
    simp
  cases path with
  | nil => exact absurd rfl hne
  | cons b path =>
    have hb : b ≠ 0 := hnul b List.mem_cons_self
    rw [List.cons_append] at htake ⊢
    rw [UnixName.ofBytes, dif_neg hb]
    simp only [htake]

theorem sunPath_fillIn_pathname (path : Pathname) (terminators : ℕ) :
    ((0 : SockaddrUn pathSize).fillIn ((UnixName.pathname path).report terminators)).sunPath =
      path.bytes.take pathSize ++ List.replicate (pathSize - path.bytes.length) 0 := by
  show (path.bytes ++ List.replicate terminators 0).take pathSize ++
    (List.replicate pathSize 0).drop (path.bytes ++ List.replicate terminators 0).length = _
  rw [List.take_append, List.take_replicate, List.drop_replicate, List.length_append,
    List.length_replicate, List.append_assoc, List.replicate_append_replicate]
  have hcount : min (pathSize - path.bytes.length) terminators +
      (pathSize - (path.bytes.length + terminators)) = pathSize - path.bytes.length := by omega
  rw [hcount]

theorem resolve_fillIn (name : Bytes) :
    ((0 : SockaddrUn pathSize).fillIn name).resolve =
      UnixName.ofBytes ((0 : SockaddrUn pathSize).fillIn name).sunPath :=
  if_pos rfl

/-- The record names the peer exactly when the length that was lost does not matter. -/
theorem resolve_fillIn_iff (terminators : ℕ) (peer : UnixName) :
    ((0 : SockaddrUn pathSize).fillIn (peer.report terminators)).resolve = some peer ↔
      peer.Fits pathSize := by
  rw [resolve_fillIn]
  cases peer with
  | pathname path =>
    rw [sunPath_fillIn_pathname]
    rcases Nat.eq_zero_or_pos pathSize with hzero | hpos
    -- a record without `sun_path` names nothing
    · have hlen : 0 < path.bytes.length := List.length_pos_of_ne_nil path.ne_nil
      subst hzero
      rw [List.take_zero, Nat.zero_sub]
      exact iff_of_false (Option.some_ne_none _).symm (Nat.not_le.mpr hlen)
    -- the zeros behind a pathname end it where it ended before
    · have hne : path.bytes.take pathSize ≠ [] := by
        simp only [ne_eq, List.take_eq_nil_iff, path.ne_nil, or_false]
        omega
      have hnul : ∀ b ∈ path.bytes.take pathSize, b ≠ 0 :=
        fun b hb => path.no_nul b (List.mem_of_mem_take hb)
      rw [ofBytes_padded _ hnul hne, Option.some.injEq, UnixName.pathname.injEq]
      show _ = Pathname.mk path.bytes _ _ ↔ _
      rw [Pathname.mk.injEq, List.take_eq_self_iff]
      rfl
  | abstractName rest =>
    show UnixName.ofBytes ((0 :: rest).take pathSize ++
      (List.replicate pathSize 0).drop (rest.length + 1)) = _ ↔ rest.length + 1 = pathSize
    cases pathSize with
    | zero => exact iff_of_false (fun h => by cases h) (fun h => by cases h)
    | succ n =>
      -- all of `sun_path` is the name: what the kernel wrote and the zeros behind it
      show some (UnixName.abstractName (rest.take n ++
        (List.replicate (n + 1) 0).drop (rest.length + 1))) = _ ↔ _
      rw [Option.some.injEq, UnixName.abstractName.injEq, List.drop_replicate]
      constructor
      · intro h
        have hlen := congrArg List.length h
        rw [List.length_append, List.length_take, List.length_replicate] at hlen
        omega
      · intro h
        have hn : rest.length = n := by omega
        subst hn
        simp

end Names

section Delivery

variable {w : UnixNet} {peer : UnixName} {waiting : List Bytes}

theorem deliver_unbound {name : UnixName} (msg : Bytes) (hname : w.queues name = none) :
    w.deliver (some name) msg = (.failed .connRefused, w) := by
  simp only [UnixNet.deliver, hname]

theorem deliver_bound {name : UnixName} {q : List Bytes} (msg : Bytes)
    (hname : w.queues name = some q) : w.deliver (some name) msg =
      (.sent msg.length,
        { w with queues := Function.update w.queues name (some (q ++ [msg])) }) := by
  simp only [UnixNet.deliver, hname]

/-- A send that goes elsewhere, or nowhere, leaves the peer's queue as it was. -/
theorem queues_deliver {dst : Option UnixName} {msg : Bytes}
    (hbound : w.queues peer = some waiting) :
    (w.deliver dst msg).2.queues peer = some (waiting ++ [msg]) ↔ dst = some peer := by
  have hkept : w.queues peer ≠ some (waiting ++ [msg]) := by
    rw [hbound, ne_eq, Option.some.injEq]
    exact fun h => List.cons_ne_nil _ _ (List.append_right_eq_self.mp h.symm)
  cases dst with
  | none => exact iff_of_false hkept (Option.some_ne_none peer).symm
  | some name =>
    by_cases hpeer : name = peer
    · subst hpeer
      rw [deliver_bound msg hbound]
      exact iff_of_true (Function.update_self _ _ _) rfl
    · have hne : some name ≠ some peer := fun h => hpeer (Option.some.inj h)
      refine iff_of_false ?_ hne
      cases hq : w.queues name with
      | none => rwa [deliver_unbound msg hq]
      | some q =>
        rw [deliver_bound msg hq]
        show Function.update w.queues name _ peer ≠ _
        rwa [Function.update_of_ne (Ne.symm hpeer)]

end Delivery

section Reply

/-- `ReplyUnix::once()`. -/
def ReplyUnix.once (D : SocketDefs) (pathSize msgSize : ℕ) :
    Prog (SockaddrUn pathSize) Unit Message Bool :=
  Reply.once (socketUnix D) msgSize

variable (D : SocketDefs) (pathSize terminators : ℕ) (f : Message → Message) (msgSize : ℕ)

/-- The record that `recvfrom` fills in names the peer, and `once` sends to that record alone. -/
def RecordNamesPeer (w : UnixNet) (peer : UnixName) : Prop :=
  ∃ a : SockaddrUn pathSize,
    ((SocketUnix.recvfrom D msgSize (some 0) 0).exec (UnixNet.handler terminators f) w).1.2 =
        some a ∧
      a.resolve = some peer ∧
      ∀ m ∈ sends ((ReplyUnix.once D pathSize msgSize).trace (UnixNet.handler terminators f) w),
        m.2 = a

/-- After `once`, what the callback returned is the last in the peer's queue. -/
def ReplyQueued (w : UnixNet) (peer : UnixName) (waiting : List Bytes) : Prop :=
  ∃ m, callbacks ((ReplyUnix.once D pathSize msgSize).trace (UnixNet.handler terminators f) w) =
      [((), m)] ∧
    ((ReplyUnix.once D pathSize msgSize).exec (UnixNet.handler terminators f) w).2.queues peer =
      some (waiting ++ [f m])

variable {D pathSize terminators f msgSize} {peer : UnixName} {payload : Bytes}
variable {rest : List (Bytes × UnixName)} {queues : UnixName → Option (List Bytes)}

theorem once_answers
    (hanswers : ((ReplyUnix.once D pathSize msgSize).exec (UnixNet.handler terminators f)
      ⟨(payload, peer) :: rest, queues⟩).1 = true) :
    ∃ m, (ReplyUnix.once D pathSize msgSize).trace (UnixNet.handler terminators f)
        ⟨(payload, peer) :: rest, queues⟩ =
          [.recvfrom msgSize 0, .callback () m,
            .sendto (f m) ((0 : SockaddrUn pathSize).fillIn (peer.report terminators)) 0] ∧
      ((ReplyUnix.once D pathSize msgSize).exec (UnixNet.handler terminators f)
        ⟨(payload, peer) :: rest, queues⟩).2 =
          (UnixNet.deliver ⟨rest, queues⟩ ((0 : SockaddrUn pathSize).fillIn
            (peer.report terminators)).resolve (f m)).2 := by
  have honce : ReplyUnix.once D pathSize msgSize =
      .call (.recvfrom msgSize 0) (Reply.handle D msgSize receivedFrom) :=
    Reply.once_eq D .unix msgSize
  rw [honce, Program.exec_call, UnixNet.handler] at hanswers
  rw [honce, Program.trace_call, Program.exec_call, UnixNet.handler]
  rcases Nat.eq_zero_or_pos msgSize with hzero | hpos
  -- no bytes are asked for, so none are there to be answered
  · subst hzero
    rw [Reply.handle_zero] at hanswers
    cases hanswers
  · rw [Reply.handle_received D hpos] at hanswers ⊢
    by_cases hnil : payload = []
    · rw [if_pos hnil] at hanswers
      cases hanswers
    · rw [if_neg hnil]
      exact ⟨_, rfl, rfl⟩

end Reply

/-- The reply to a peer's datagram goes back to the peer exactly when its name is a pathname
that fits into `sun_path`, or an abstract name that fills it: to the kernel the record is as
long as its type, so a shorter abstract name comes back with NULs behind it. -/
theorem reply_reaches_peer_iff (D : SocketDefs) (pathSize terminators : ℕ)
    (f : Message → Message) (msgSize : ℕ) (payload : Bytes) (peer : UnixName)
    (rest : List (Bytes × UnixName)) (queues : UnixName → Option (List Bytes))
    (waiting : List Bytes) (hbound : queues peer = some waiting)
    (hanswers : ((ReplyUnix.once D pathSize msgSize).exec (UnixNet.handler terminators f)
      ⟨(payload, peer) :: rest, queues⟩).1 = true) :
    (RecordNamesPeer D pathSize terminators f msgSize ⟨(payload, peer) :: rest, queues⟩ peer ↔
        peer.Fits pathSize) ∧
      (ReplyQueued D pathSize terminators f msgSize ⟨(payload, peer) :: rest, queues⟩ peer
          waiting ↔ peer.Fits pathSize) := by
  obtain ⟨m, htrace, hexec⟩ := once_answers hanswers
  rw [← resolve_fillIn_iff terminators peer]
  constructor
  · unfold RecordNamesPeer
    rw [htrace]
    constructor
    · rintro ⟨a, hfilled, hname, -⟩
      rw [← Option.some.inj hfilled] at hname
      exact hname
    · intro hname
      refine ⟨_, rfl, hname, ?_⟩
      intro sent hsent
      exact congrArg Prod.snd (List.mem_singleton.mp hsent)
  · unfold ReplyQueued
    rw [htrace, hexec]
    constructor
    · rintro ⟨m', hm, hqueue⟩
      obtain rfl : m = m' := congrArg Prod.snd (List.singleton_inj.mp hm)
      exact (queues_deliver hbound).mp hqueue
    · intro hname
      exact ⟨m, rfl, (queues_deliver hbound).mpr hname⟩

/-- A socket bound to the pathname `a` gets its reply. -/
theorem reply_reaches_short_pathname :
    ∃ path : Pathname, path.bytes = [97] ∧
      ReplyQueued .failure 108 1 id 1 ⟨[([5], .pathname path)], fun _ => some []⟩
        (.pathname path) [] := by
  refine ⟨⟨[97], List.cons_ne_nil _ _, List.forall_mem_singleton.mpr (by decide)⟩, rfl, ?_⟩
  have hfits : [97].length ≤ 108 := by decide
  exact (reply_reaches_peer_iff .failure 108 1 id 1 [5] _ [] (fun _ => some []) []
    rfl rfl).2.mpr hfits

/-- The kernel is asked for another name than the abstract one of two letters. -/
theorem short_abstract_name_is_padded :
    ¬ RecordNamesPeer .failure 108 1 id 1 ⟨[([5], .abstractName [97, 98])], fun _ => some []⟩
      (.abstractName [97, 98]) := by
  rintro ⟨a, hfilled, hname, -⟩
  rw [← Option.some.inj hfilled] at hname
  have hfits : UnixName.Fits 108 (.abstractName [97, 98]) := (resolve_fillIn_iff 1 _).mp hname
  have hlen : 2 + 1 = 108 := hfits
  omega

end Marko
