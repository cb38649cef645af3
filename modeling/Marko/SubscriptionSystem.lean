import Marko.DatagramMemory
import Marko.MeshStations
import Marko.PymarkoSubscriptions
import Marko.SubscriptionLog

/-! A `PublisherThread` and its subscribers as parties of one network. The two threads of the
publisher share the list `clientaddr`: rounds of `__listen` and iterations of the loop in `publish`
come in any order. -/
namespace Pymarko

open Datagram Interaction SubscriptionLog

variable {K V : Type}

/-- `Subscriber.__del__`. -/
def Subscriber.del (socket : UDPSocket) (subscribedto : Option Address) : Py K V Unit :=
  match subscribedto with
  | some addr => do
    let _ ← socket.sendto (encode "shutdown") addr
    pure ()
  | none => pure ()

/-- The iteration of the loop in `publish` that reads the list at `index`, if it is not past the
end. -/
def Publisher.iterate (socket : UDPSocket) (clientaddr : List Address) (data : Bytes)
    (index : ℕ) : Py K V Unit :=
  match clientaddr[index]? with
  | some addr => do
    let _ ← socket.sendto data addr
    pure ()
  | none => pure ()

/-- While nobody changes the list, `publish` is one iteration after another. -/
theorem Publisher.publish_drop (socket : UDPSocket) (clientaddr : List Address) (data : Bytes)
    {index : ℕ} (hindex : index < clientaddr.length) :
    (publish socket (clientaddr.drop index) data : Py K V Unit) =
      Publisher.iterate socket clientaddr data index >>= fun _ =>
        publish socket (clientaddr.drop (index + 1)) data := by
  rw [List.drop_eq_getElem_cons hindex, publish, List.forM_cons, Publisher.iterate,
    List.getElem?_eq_getElem hindex]
  rfl

/-- What a datagram says to a publisher. -/
def word (payload : Bytes) : Word :=
  if text payload = some "subscribe" then .subscribe
  else if text payload = some "shutdown" then .shutdown
  else .other

theorem change_word (payload : Bytes) (src : Address) :
    (word payload).change src = change (.datagram payload src) := by
  simp only [word, change]
  split_ifs with hsub hshut
  · rfl
  · rfl
  · rfl

theorem word_shutdown : word (encode "shutdown") = .shutdown := by
  have htext : text (encode "shutdown") = some "shutdown" := text_eq_some_iff.mpr rfl
  rw [word, htext, if_neg (by decide), if_pos rfl]

/-- One publisher, its subscribers with their callbacks and the size of their buffer, and what
the callbacks return. -/
structure Broadcast (K : Type) where
  publisher : Address
  subscriber : Address → Option (List K × ℕ)
  callback : Address → K → Bytes → Option Bytes
  apart : subscriber publisher = none

namespace Broadcast

variable (B : Broadcast K)

/-- The publisher listens, calls `publish`, and goes on with the call, each with the list as it
is. A subscriber sends anything to it, shuts down, and receives. -/
inductive Work where
  | listen (clientaddr : List Address)
  | publish (data : Bytes)
  | iterate (clientaddr : List Address) (data : Bytes) (index : ℕ)
  | send (data : Bytes)
  | del
  | receive
  deriving DecidableEq, Repr

/-- A round of the listener ends with a list. -/
abbrev Outcome := Except PyError (Option (List Address))

def socket : UDPSocket := UDPSocket.init maxPacketSize

def listening (clientaddr : List Address) : Prog Address K (Option Bytes) Outcome :=
  (some <$> PublisherThread.listenOnce clientaddr : Py K _ _).run

/-- What a program does that returns nothing. -/
def plain (p : Py K (Option Bytes) Unit) : Prog Address K (Option Bytes) Outcome :=
  ((fun _ => none) <$> p : Py K _ _).run

def body (i : Address) : Work → Option (Prog Address K (Option Bytes) Outcome)
  | .listen clientaddr => if i = B.publisher then some (listening clientaddr) else none
  -- the call itself only starts at the front of the list
  | .publish _ => if i = B.publisher then some (plain (pure ())) else none
  | .iterate clientaddr data index =>
      if i = B.publisher then some (plain (Publisher.iterate socket clientaddr data index))
      else none
  | .send data => (B.subscriber i).map fun _ => plain do
      let _ ← socket.sendto data B.publisher
      pure ()
  | .del => (B.subscriber i).map fun _ => plain (Subscriber.del socket (some B.publisher))
  | .receive => (B.subscriber i).map fun s => plain (Subscriber.loopOnce s.1 s.2)

def deployment : Deployment Address K (Option Bytes) Work Outcome where
  body := B.body
  callback := B.callback

/-- The list, and the call of `publish` in progress: one thread makes these calls. -/
def memory : Memory Work Outcome (Board Address Bytes) where
  reads
    | .listen clientaddr, b => b.list = clientaddr
    | .publish _, b => b.loop = none
    | .iterate clientaddr data index, b => b = ⟨clientaddr, some (data, index)⟩
    | _, _ => true
  writes
    | .listen _, .ok (some clientaddr), b => { b with list := clientaddr }
    | .publish data, _, b => { b with loop := some (data, 0) }
    | .iterate .., .ok _, b => { b with loop := Board.advance b.list b.loop }
    -- a send that raised takes the loop with it
    | .iterate .., .error _, b => { b with loop := none }
    | _, _, b => b

/-- One message to one address is one datagram, or several when it does not fit into one. -/
def wire (m : Bytes × Address) : List (Bytes × Address) :=
  (socket.pieces m.1).map fun piece => (piece, m.2)

def plan (i : Address) : Work → List (Bytes × Address)
  | .iterate clientaddr data index =>
      if i = B.publisher then
        (clientaddr[index]?.toList.map fun addr => (data, addr)).flatMap wire
      else []
  | .send data => wire (data, B.publisher)
  | .del => wire (encode "shutdown", B.publisher)
  | _ => []

def view (i : Address) (d : Bytes) : List (K × Bytes) :=
  (B.subscriber i).elim [] fun s => Subscriber.asks s.1 s.2 d

/-! The programs of the jobs. -/

theorem run_plain (p : Py K (Option Bytes) Unit) :
    plain p = (Except.map fun _ => none) <$> p.run :=
  ExceptT.run_map _ _

theorem run_listening (clientaddr : List Address) :
    ∃ k, (listening clientaddr : Prog Address K _ _) = .call (.recvfrom 100 0) k ∧
      (∀ payload src, k (.received (payload.take 100) src) =
        .done (.ok (some (AppendErase.apply clientaddr ((word payload).change src))))) ∧
      k (.failed .again) = .done (.ok (some clientaddr)) := by
  apply Exists.intro
  constructor
  · rw [listening, ExceptT.run_map, PublisherThread.listenOnce, ExceptT.run_bind,
      UDPSocket.run_recvfrom, Program.call_bind]
    rfl
  constructor
  · intro payload src
    rw [change_word, ← heard_eq]
    rfl
  · rfl

/-- A send that the kernel refuses ends the program. -/
def failed (e : Errno) : Option Outcome := some (.error (Sock.raiseErrno e))

theorem map_sendPieces (address : Address) (result : Except PyError Unit) (pieces : List Bytes) :
    (Except.map fun _ => none) <$> UDPSocket.sendPieces (K := K) (V := Option Bytes) address
      result pieces =
        sendAll failed (result.map fun _ => none) (pieces.map fun piece => (piece, address)) := by
  induction pieces with
  | nil => rfl
  | cons piece pieces ih =>
    apply Program.call_congr
    intro ans
    cases ans with
    | sent count => exact ih
    | failed e => rfl

def sent (data : Bytes) : Outcome := (socket.outcome data).map fun _ => none

theorem run_send (dst : Address) (data : Bytes) :
    plain (do let _ ← socket.sendto data dst; pure () : Py K _ _) =
      sendAll failed (sent data) (wire (data, dst)) := by
  rw [run_plain, UDPSocket.run_sendto_statement, map_sendPieces]
  rfl

theorem run_iterate (clientaddr : List Address) (data : Bytes) (index : ℕ) :
    ∃ result, plain (Publisher.iterate socket clientaddr data index : Py K _ _) =
      sendAll failed result
        ((clientaddr[index]?.toList.map fun addr => (data, addr)).flatMap wire) ∧
      (data.length ≤ maxPacketSize → result = .ok none) := by
  rw [Publisher.iterate]
  cases clientaddr[index]? with
  | none => exact ⟨.ok none, rfl, fun _ => rfl⟩
  | some addr =>
    refine ⟨sent data, ?_, fun hlen => ?_⟩
    · rw [Option.toList_some, List.map_singleton, List.flatMap_singleton]
      exact run_send addr data
    · have houtcome : socket.outcome data = .ok () := if_neg (Nat.not_lt.mpr hlen)
      rw [sent, houtcome]
      rfl

/-- What each program sends, or calls. -/
theorem shape (i : Address) (job : Work) (p : Prog Address K (Option Bytes) Outcome)
    (hp : B.body i job = some p) :
    (∃ stops result, p = sendAll stops result (B.plan i job)) ∨
      (B.plan i job = [] ∧ Hears (B.view i) p) := by
  cases job with
  | listen clientaddr =>
    obtain ⟨rfl, hbody⟩ := Option.ite_none_right_eq_some.mp hp
    obtain ⟨k, hrun, hreceived, htimedOut⟩ := run_listening (K := K) clientaddr
    -- the publisher listens for words on the list only: no callback of it is called
    have hview : B.view B.publisher = fun _ => [] := by
      funext d
      rw [view, B.apart, Option.elim_none]
    refine .inr ⟨rfl, 100, k, ?_, ?_, _, htimedOut⟩
    · rw [← hrun, ← Option.some.inj hbody]
    · intro payload src
      rw [hview]
      exact ⟨_, hreceived payload src⟩
  | publish data =>
    obtain ⟨-, hbody⟩ := Option.ite_none_right_eq_some.mp hp
    exact .inl ⟨failed, .ok none, (Option.some.inj hbody).symm⟩
  | iterate clientaddr data index =>
    obtain ⟨rfl, hbody⟩ := Option.ite_none_right_eq_some.mp hp
    obtain ⟨result, hrun, -⟩ := run_iterate (K := K) clientaddr data index
    refine .inl ⟨failed, result, ?_⟩
    rw [← Option.some.inj hbody, hrun, plan, if_pos rfl]
  | send data =>
    obtain ⟨s, -, rfl⟩ := Option.map_eq_some_iff.mp hp
    exact .inl ⟨failed, sent data, run_send B.publisher data⟩
  | del =>
    obtain ⟨s, -, rfl⟩ := Option.map_eq_some_iff.mp hp
    exact .inl ⟨failed, _, run_send B.publisher (encode "shutdown")⟩
  | receive =>
    obtain ⟨s, hs, rfl⟩ := Option.map_eq_some_iff.mp hp
    have hview : B.view i = Subscriber.asks s.1 s.2 := by
      funext d
      rw [view, hs, Option.elim_some]
    refine .inr ⟨rfl, ?_⟩
    rw [run_plain, hview]
    exact (Subscriber.hears s.1 s.2).map _

def fanOut : FanOut B.deployment where
  plan := B.plan
  view := B.view
  shape := B.shape

variable [DecidableEq K]

/-- The network with what the threads of the publisher share: at first nobody is on the list. -/
def system (P : Policy Address) :
    Machine (Label Address K Work Outcome)
      (Config Address K (Option Bytes) Work Outcome × Board Address Bytes) :=
  memory.machine B.deployment P B.publisher .empty

/-! What the publisher heard and did, in order. -/

def entry? : Event Address K Work Outcome → Option (Entry Address Bytes)
  | .received p => some (.heard p.src (word p.payload))
  | .start (.publish data) => some (.published data)
  | .start (.iterate ..) => some .iterated
  | .finished (.iterate ..) (.error _) => some .raised
  | _ => none

def logOf (es : List (Event Address K Work Outcome)) : List (Entry Address Bytes) :=
  es.filterMap entry?

/-- Every send of the publisher is one datagram that the kernel takes. -/
def Fitting (P : Policy Address) (log : List (Entry Address Bytes)) : Prop :=
  P.lossy = false ∧ ∀ data ∈ publications log, data.length ≤ maxPacketSize

theorem Fitting.of_append {P : Policy Address} {log log' : List (Entry Address Bytes)}
    (h : Fitting P (log ++ log')) : Fitting P log := by
  refine ⟨h.1, fun data hdata => h.2 data ?_⟩
  rw [publications, List.filterMap_append]
  exact List.mem_append_left _ hdata

/-- Where the publisher is in its program, when the log has come to `b`; `fits` when no send can
raise. -/
inductive At (fits : Prop) (b : Board Address Bytes) :
    Activity Address K (Option Bytes) Work Outcome → Board Address Bytes → Prop where
  | idle : At fits b .idle b
  | listening (clientaddr : List Address) (hlist : b.list = clientaddr) :
      At fits b (.busy (.listen clientaddr) (listening clientaddr)) b
  | heard (clientaddr : List Address) (result : Outcome) (b' : Board Address Bytes)
      (hwrites : memory.writes (.listen clientaddr) result b' = b) :
      At fits b (.busy (.listen clientaddr) (.done result)) b'
  | publishing (data : Bytes) (b' : Board Address Bytes)
      (hwrites : b = { b' with loop := some (data, 0) }) :
      At fits b (.busy (.publish data) (.done (.ok none))) b'
  | iterating (clientaddr : List Address) (data : Bytes) (index : ℕ) (result : Outcome)
      (ms : List (Bytes × Address)) (b' : Board Address Bytes)
      (hresult : fits → result = .ok none)
      (hwrites : b = { b' with loop := Board.advance b'.list b'.loop }) :
      At fits b (.busy (.iterate clientaddr data index) (sendAll failed result ms)) b'

/-- The threads share what the log makes of it, the jobs send what the log says, one call of
`publish` follows another, and none raises without reason. -/
structure Recorded (P : Policy Address) (es : List (Event Address K Work Outcome))
    (x : Activity Address K (Option Bytes) Work Outcome) (b : Board Address Bytes) : Prop where
  shared : At (Fitting P (logOf es)) (Board.empty.after (logOf es)) x b
  planned : (jobs es).flatMap (B.plan B.publisher) =
    (Board.empty.deliveries (logOf es)).flatMap wire
  orderly : Board.empty.Orderly (logOf es)
  smooth : Fitting P (logOf es) → .raised ∉ logOf es

variable {B} {P : Policy Address} {es : List (Event Address K Work Outcome)}
  {e : Event Address K Work Outcome} {x x' : Activity Address K (Option Bytes) Work Outcome}
  {b b' : Board Address Bytes}

omit [DecidableEq K] in
theorem Recorded.concat (h : B.Recorded P es x b)
    (hat : At (Fitting P (logOf es ++ logOf [e]))
      ((Board.empty.after (logOf es)).after (logOf [e])) x' b')
    (hplan : (jobs [e]).flatMap (B.plan B.publisher) =
      ((Board.empty.after (logOf es)).deliveries (logOf [e])).flatMap wire)
    (horderly : (Board.empty.after (logOf es)).Orderly (logOf [e]))
    (hsmooth : Fitting P (logOf es ++ logOf [e]) → .raised ∉ logOf [e]) :
    B.Recorded P (es ++ [e]) x' b' := by
  have hlog : logOf (es ++ [e]) = logOf es ++ logOf [e] := List.filterMap_append
  refine ⟨?_, ?_, ?_, ?_⟩
  · rw [hlog, Board.after_append]
    exact hat
  · rw [hlog, jobs_append, List.flatMap_append, h.planned, hplan, Board.deliveries_append,
      List.flatMap_append]
  · rw [hlog]
    exact Board.orderly_append.mpr ⟨h.orderly, horderly⟩
  · rw [hlog]
    intro hfits
    rw [List.mem_append]
    rintro (hmem | hmem)
    · exact h.smooth hfits.of_append hmem
    · exact hsmooth hfits hmem

omit [DecidableEq K] in
/-- An event that is not in the log, of which nothing is sent. -/
theorem Recorded.quiet (h : B.Recorded P es x b) (hlog : logOf [e] = [])
    (hplan : (jobs [e]).flatMap (B.plan B.publisher) = [])
    (hat : At (Fitting P (logOf es)) (Board.empty.after (logOf es)) x' b') :
    B.Recorded P (es ++ [e]) x' b' := by
  apply h.concat
  · rw [hlog, List.append_nil]
    exact hat
  · rw [hplan, hlog]
    rfl
  · rw [hlog]
    trivial
  · rw [hlog]
    exact fun _ => List.not_mem_nil

omit [DecidableEq K] in
theorem Recorded.start (h : B.Recorded P es .idle b) {job : Work}
    {p : Prog Address K (Option Bytes) Outcome} (hshared : Board.empty.after (logOf es) = b)
    (hreads : memory.reads job b = true) (hbody : B.body B.publisher job = some p) :
    B.Recorded P (es ++ [.start job]) (.busy job p) b := by
  cases job with
  | listen clientaddr =>
    obtain ⟨-, hp⟩ := Option.ite_none_right_eq_some.mp hbody
    obtain rfl := Option.some.inj hp
    apply h.quiet rfl rfl
    rw [hshared]
    exact .listening _ (of_decide_eq_true hreads)
  | publish data =>
    obtain ⟨-, hp⟩ := Option.ite_none_right_eq_some.mp hbody
    obtain rfl := Option.some.inj hp
    apply h.concat
    · rw [hshared]
      exact .publishing data _ rfl
    · rfl
    · rw [hshared]
      exact ⟨fun _ _ => of_decide_eq_true hreads, trivial⟩
    · exact fun _ hmem => by cases List.mem_singleton.mp hmem
  | iterate clientaddr data index =>
    obtain ⟨-, hp⟩ := Option.ite_none_right_eq_some.mp hbody
    obtain rfl := Option.some.inj hp
    have hread : b = ⟨clientaddr, some (data, index)⟩ := of_decide_eq_true hreads
    -- the payload of the running loop was given to some `publish` in the log
    have hlen (hfits : Fitting P (logOf es)) : data.length ≤ maxPacketSize := by
      have hloop : (Board.empty.after (logOf es)).loop = some (data, index) := by
        rw [hshared, hread]
      rcases loop_after hloop with hdata | ⟨j, hj⟩
      · exact hfits.2 data hdata
      · cases hj
    obtain ⟨result, hrun, hresult⟩ := run_iterate (K := K) clientaddr data index
    apply h.concat
    · rw [hshared, hrun]
      exact .iterating clientaddr data index result _ _
        (fun hfits => hresult (hlen hfits.of_append)) rfl
    · rw [hshared, hread]
      show (B.plan B.publisher (.iterate clientaddr data index)) ++ [] =
        ((clientaddr[index]?.toList.map fun addr => (data, addr)) ++ []).flatMap wire
      rw [plan, if_pos rfl, List.append_nil, List.append_nil]
    · exact ⟨fun _ heq => (by cases heq), trivial⟩
    · exact fun _ hmem => by cases List.mem_singleton.mp hmem
  | send data =>
    rw [body, B.apart] at hbody
    cases hbody
  | del =>
    rw [body, B.apart] at hbody
    cases hbody
  | receive =>
    rw [body, B.apart] at hbody
    cases hbody

theorem Recorded.step (h : B.Recorded P es x b) (hpossible : e.possible P B.publisher = true)
    (hadmits : memory.admits e b = true) (hnext : x.next B.deployment B.publisher e = some x') :
    B.Recorded P (es ++ [e]) x' (memory.after e b) := by
  have hat := h.shared
  generalize hb : Board.empty.after (logOf es) = b₀ at hat
  cases hat with
  | idle =>
    obtain ⟨job, p, rfl, hbody, rfl⟩ := Activity.next_idle hnext
    exact h.start hb hadmits hbody
  | listening clientaddr hlist =>
    obtain ⟨k, hrun, hreceived, htimedOut⟩ := run_listening (K := K) clientaddr
    rw [hrun] at hnext
    rcases Activity.next_recvfrom hnext with ⟨p, rfl, rfl⟩ | ⟨rfl, rfl⟩
    · -- the list is written when the round ends
      apply h.concat
      · rw [hb, hreceived]
        refine .heard _ _ _ ?_
        rw [← hlist]
        rfl
      · rfl
      · exact ⟨fun _ heq => (by cases heq), trivial⟩
      · exact fun _ hmem => by cases List.mem_singleton.mp hmem
    · apply h.quiet rfl rfl
      rw [hb, htimedOut]
      refine .heard _ _ _ ?_
      rw [← hlist]
      rfl
  | heard clientaddr result b' hwrites =>
    obtain ⟨rfl, rfl⟩ := Activity.next_done hnext
    apply h.quiet rfl rfl
    rw [hb, ← hwrites]
    exact .idle
  | publishing data b' hwrites =>
    obtain ⟨rfl, rfl⟩ := Activity.next_done hnext
    apply h.quiet rfl rfl
    rw [hb, hwrites]
    exact .idle
  | iterating clientaddr data index result ms b' hresult hwrites =>
    cases ms with
    | nil =>
      obtain ⟨rfl, rfl⟩ := Activity.next_done hnext
      cases result with
      | ok list =>
        apply h.quiet rfl rfl
        rw [hb, hwrites]
        exact .idle
      | error err =>
        apply h.concat
        · rw [hb, hwrites]
          exact .idle
        · rfl
        · exact ⟨fun _ heq => (by cases heq), trivial⟩
        · exact fun hfits => by cases hresult hfits.of_append
    | cons m ms =>
      rcases Activity.next_sendto hnext with ⟨rfl, rfl⟩ | ⟨err, rfl, rfl⟩
      · apply h.quiet rfl rfl
        rw [hb]
        exact .iterating _ _ _ _ _ _ hresult hwrites
      · -- the iteration ends with an error, which a network without loss never gives
        have hlossy : P.lossy = true := hpossible
        apply h.quiet rfl rfl
        rw [hb]
        refine .iterating _ _ _ _ [] _ ?_ hwrites
        intro hfits
        exact absurd (hfits.1.symm.trans hlossy) Bool.false_ne_true

/-- In every run the threads share what the log makes of it, and the calls of `publish` send what
the log says. -/
theorem recorded_of_run {ls : List (Label Address K Work Outcome)}
    {s : Config Address K (Option Bytes) Work Outcome × Board Address Bytes}
    (hrun : (B.system P).run ls (B.system P).init = some s) :
    B.Recorded P (events B.publisher ls) (s.1.act B.publisher) s.2 :=
  memory.invariant (I := B.Recorded P)
    ⟨.idle, rfl, trivial, fun _ => List.not_mem_nil⟩
    (fun _ _ _ _ _ h hpossible hadmits hnext => h.step hpossible hadmits hnext) hrun

end Broadcast

end Pymarko
