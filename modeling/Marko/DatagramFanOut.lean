import Marko.DatagramTraffic
import Marko.DatagramArrivals

/-! Deployments whose programs either send a list of datagrams or hand what one receive yields
to a list of callbacks. -/
namespace Datagram

open Interaction

variable {A K V J R : Type}

/-- Send one datagram after another. `stops` says with what result a send that fails ends the
program, if it does. -/
def sendAll (stops : Errno → Option R) (result : R) : List (Bytes × A) → Prog A K V R
  | [] => .done result
  | (m, dst) :: rest => .call (.sendto m dst 0) fun
    | .sent _ => sendAll stops result rest
    | .failed e =>
      match stops e with
      | some r => .done r
      | none => sendAll stops result rest

def callAll (result : R) : List (K × Bytes) → Prog A K V R
  | [] => .done result
  | (cb, m) :: rest => .call (.callback cb m) fun _ => callAll result rest

/-- One receive, and then the callbacks that `view` names for the datagram received. -/
def Hears (view : Bytes → List (K × Bytes)) (p : Prog A K V R) : Prop :=
  ∃ size k, p = .call (.recvfrom size 0) k ∧
    (∀ bytes src, ∃ result, k (.received (bytes.take size) src) = callAll result (view bytes)) ∧
    ∃ result, k (.failed .again) = .done result

variable {S W : Type} (f : R → S) (g : W → V)

theorem map_sendAll (stops : Errno → Option R) (result : R) (ms : List (Bytes × A)) :
    f <$> (sendAll stops result ms : Prog A K V R) =
      sendAll (fun e => (stops e).map f) (f result) ms := by
  induction ms with
  | nil => rfl
  | cons m ms ih =>
    apply Program.call_congr
    intro ans
    cases ans with
    | sent count => exact ih
    | failed e =>
      dsimp only
      cases stops e with
      | none => exact ih
      | some r => rfl

theorem map_callAll (result : R) (ms : List (K × Bytes)) :
    f <$> (callAll result ms : Prog A K V R) = callAll (f result) ms := by
  induction ms with
  | nil => rfl
  | cons m ms ih =>
    apply Program.call_congr
    intro v
    exact ih

theorem answering_callAll (result : R) (ms : List (K × Bytes)) :
    (callAll (A := A) result ms).answering g = callAll result ms := by
  induction ms with
  | nil => rfl
  | cons m ms ih =>
    apply Program.call_congr
    intro v
    exact ih

theorem Hears.map {view : Bytes → List (K × Bytes)} {p : Prog A K V R} (hp : Hears view p) :
    Hears view (f <$> p) := by
  obtain ⟨size, k, rfl, hreceived, last, htimedOut⟩ := hp
  refine ⟨size, fun ans => f <$> k ans, rfl, ?_, f last, ?_⟩
  · intro bytes src
    obtain ⟨result, hcalls⟩ := hreceived bytes src
    refine ⟨f result, ?_⟩
    dsimp only
    rw [hcalls, map_callAll]
  · dsimp only
    rw [htimedOut]
    rfl

theorem Hears.answering {view : Bytes → List (K × Bytes)} {p : Prog A K V R} (hp : Hears view p) :
    Hears view (p.answering g) := by
  obtain ⟨size, k, rfl, hreceived, last, htimedOut⟩ := hp
  refine ⟨size, fun ans => Prog.answering g (k ans), rfl, ?_, last, ?_⟩
  · intro bytes src
    obtain ⟨result, hcalls⟩ := hreceived bytes src
    refine ⟨result, ?_⟩
    dsimp only
    rw [hcalls, answering_callAll]
  · dsimp only
    rw [htimedOut]
    rfl

section Arrivals

variable {σ : Type} (cb : K → Bytes → V) (send : Bytes → A → σ → SendAnswer × σ)

/-- The callbacks for one arrival. -/
def Arrival.asks (view : Bytes → List (K × Bytes)) : Arrival A → List (K × Bytes)
  | .datagram payload _ => view payload
  | .timeout => []

theorem exec_callAll (result : R) (ms : List (K × Bytes)) (w : List (Arrival A) × σ) :
    (callAll result ms : Prog A K V R).exec (arriving cb send) w = (result, w) ∧
      callbacks ((callAll result ms : Prog A K V R).trace (arriving cb send) w) = ms := by
  induction ms with
  | nil => exact ⟨rfl, rfl⟩
  | cons m ms ih => exact ⟨ih.1, congrArg (m :: ·) ih.2⟩

theorem Hears.exec_round {view : Bytes → List (K × Bytes)} {p : Prog A K V R}
    (hp : Hears view p) (a : Arrival A) (rest : List (Arrival A)) (s : σ) :
    (p.exec (arriving cb send) (a :: rest, s)).2 = (rest, s) ∧
      callbacks (p.trace (arriving cb send) (a :: rest, s)) = a.asks view := by
  obtain ⟨size, k, rfl, hreceived, last, htimedOut⟩ := hp
  rw [Program.exec_call, Program.trace_call, callbacks_recvfrom]
  cases a with
  | datagram payload src =>
    obtain ⟨result, hcalls⟩ := hreceived payload src
    obtain ⟨hexec, hasked⟩ := exec_callAll cb send result (view payload) (rest, s)
    simp only [arriving, hcalls, hexec, hasked]
    exact ⟨trivial, rfl⟩
  | timeout =>
    simp only [arriving, htimedOut]
    exact ⟨rfl, rfl⟩

/-- A program that hears, run once for each arrival, calls what the arrivals ask for. -/
theorem Hears.callbacks_iterate {view : Bytes → List (K × Bytes)} {p : Prog A K V R}
    (hp : Hears view p) (arrivals : List (Arrival A)) (s : σ) :
    (p.iterate (arriving cb send) arrivals.length (arrivals, s)).flatMap (fun r => callbacks r.2) =
      arrivals.flatMap (Arrival.asks view) := by
  induction arrivals with
  | nil => rfl
  | cons a rest ih =>
    obtain ⟨hexec, hcalls⟩ := hp.exec_round cb send a rest s
    rw [List.length_cons, Program.iterate, List.flatMap_cons, hexec, hcalls, ih, List.flatMap_cons]

end Arrivals

/-- What each party's jobs send, and the callbacks that it invokes on each datagram. -/
structure FanOut (D : Deployment A K V J R) where
  plan : A → J → List (Bytes × A)
  view : A → Bytes → List (K × Bytes)
  shape : ∀ i job p, D.body i job = some p →
    (∃ stops result, p = sendAll stops result (plan i job)) ∨
      (plan i job = [] ∧ Hears (view i) p)

namespace FanOut

variable {D : Deployment A K V J R} (F : FanOut D)

/-- Where a party is in its program: `pending` are the datagrams that it has still to send, and
`owed` the callbacks that it has still to invoke. -/
inductive At (i : A) : List (Bytes × A) → List (K × Bytes) → Activity A K V J R → Prop where
  | idle : At i [] [] .idle
  | sending (job : J) (stops : Errno → Option R) (result : R) (pending : List (Bytes × A)) :
      At i pending [] (.busy job (sendAll stops result pending))
  | listening (job : J) (p : Prog A K V R) (hp : Hears (F.view i) p) :
      At i [] [] (.busy job p)
  | calling (job : J) (result : R) (owed : List (K × Bytes)) :
      At i [] owed (.busy job (callAll result owed))

variable {F} in
theorem At.eq_nil {i : A} {pending : List (Bytes × A)} {owed : List (K × Bytes)}
    {x : Activity A K V J R} (h : F.At i pending owed x) (hx : x = .idle) :
    pending = [] ∧ owed = [] := by
  subst hx
  cases h
  exact ⟨rfl, rfl⟩

/-- A party sent what its jobs plan, but for what it has still to send and the datagrams that a
lossy network refused, and called what the datagrams it took ask for. -/
def Fair (lossy : Bool) (i : A) (es : List (Event A K J R)) (x : Activity A K V J R) : Prop :=
  ∃ pending owed, F.At i pending owed x ∧
    Kept false lossy (posts es ++ pending) ((jobs es).flatMap (F.plan i)) ∧
    called es ++ owed = (taken es).flatMap fun p => F.view i p.payload

variable {F} [DecidableEq A] [DecidableEq K] [DecidableEq J] [DecidableEq R]

theorem Fair.step {P : Policy A} {i : A} {es : List (Event A K J R)} {e : Event A K J R}
    {x x' : Activity A K V J R} (h : F.Fair P.lossy i es x) (hpossible : e.possible P i = true)
    (hnext : x.next D i e = some x') : F.Fair P.lossy i (es ++ [e]) x' := by
  obtain ⟨pending, owed, hat, hsent, hcalled⟩ := h
  cases hat with
  | idle =>
    obtain ⟨job, p, rfl, hbody, rfl⟩ := Activity.next_idle hnext
    have hplanned := hsent.append_right (F.plan i job)
    rcases F.shape i job p hbody with ⟨stops, result, rfl⟩ | ⟨hplan, hp⟩
    · refine ⟨F.plan i job, [], .sending job stops result _, ?_, ?_⟩
      · simpa [posts, jobs] using hplanned
      · simpa [called, taken] using hcalled
    · rw [hplan] at hplanned
      refine ⟨[], [], .listening job p hp, ?_, ?_⟩
      · simpa [posts, jobs, hplan] using hplanned
      · simpa [called, taken] using hcalled
  | sending job stops result pending =>
    cases pending with
    | nil =>
      obtain ⟨rfl, rfl⟩ := Activity.next_done hnext
      refine ⟨[], [], .idle, ?_, ?_⟩
      · simpa [posts, jobs] using hsent
      · simpa [called, taken] using hcalled
    | cons m pending =>
      rcases Activity.next_sendto hnext with ⟨rfl, rfl⟩ | ⟨err, rfl, rfl⟩
      · refine ⟨pending, [], .sending job stops result pending, ?_, ?_⟩
        · simpa [posts, jobs] using hsent
        · simpa [called, taken] using hcalled
      · -- what the refused send leaves out is no more than the network may lose
        have hloss : P.lossy = true := hpossible
        have hrest (rest : List (Bytes × A)) (hsub : rest.Sublist (m :: pending)) :
            Kept false P.lossy (posts es ++ rest) ((jobs es).flatMap (F.plan i)) :=
          ((Kept.of_sublist hloss hsub).append_left _).trans hsent
        cases hstops : stops err with
        | some r =>
          refine ⟨[], [], ?_, ?_, ?_⟩
          · simp only [hstops]
            exact .sending job stops r []
          · simpa [posts, jobs] using hrest [] (List.nil_sublist _)
          · simpa [called, taken] using hcalled
        | none =>
          refine ⟨pending, [], ?_, ?_, ?_⟩
          · simp only [hstops]
            exact .sending job stops result pending
          · simpa [posts, jobs] using hrest pending (List.sublist_cons_self _ _)
          · simpa [called, taken] using hcalled
  -- what was taken turns from the wire into callbacks owed
  | listening job p hp =>
    obtain ⟨size, k, rfl, hreceived, last, htimedOut⟩ := hp
    rcases Activity.next_recvfrom hnext with ⟨q, rfl, rfl⟩ | ⟨rfl, rfl⟩
    · obtain ⟨result, hcalls⟩ := hreceived q.payload q.src
      rw [hcalls]
      refine ⟨[], F.view i q.payload, .calling job result _, ?_, ?_⟩
      · simpa [posts, jobs] using hsent
      · rw [List.append_nil] at hcalled
        simpa [called, taken] using hcalled
    · rw [htimedOut]
      refine ⟨[], [], .calling job last [], ?_, ?_⟩
      · simpa [posts, jobs] using hsent
      · simpa [called, taken] using hcalled
  | calling job result owed =>
    cases owed with
    | nil =>
      obtain ⟨rfl, rfl⟩ := Activity.next_done hnext
      refine ⟨[], [], .idle, ?_, ?_⟩
      · simpa [posts, jobs] using hsent
      · simpa [called, taken] using hcalled
    | cons v owed =>
      obtain ⟨rfl, rfl⟩ := Activity.next_callback hnext
      refine ⟨[], owed, .calling job result owed, ?_, ?_⟩
      · simpa [posts, jobs] using hsent
      · simpa [called, taken] using hcalled

/-- In every run each party is fair by its own events. -/
theorem fair_of_run (F : FanOut D) {P : Policy A} {c : Config A K V J R}
    {ls : List (Label A K J R)} (hrun : (network D P).run ls (network D P).init = some c) (i : A) :
    F.Fair P.lossy i (events i ls) (c.act i) :=
  alone_invariant (I := F.Fair P.lossy i) ⟨[], [], .idle, Kept.refl _, rfl⟩
    (fun _ _ _ _ => Fair.step) hrun

/-- What a party called, with what it has still to call, is what the datagrams that it took ask
for. -/
theorem calls_of_run (F : FanOut D) {P : Policy A} {c : Config A K V J R}
    {ls : List (Label A K J R)} (hrun : (network D P).run ls (network D P).init = some c) (i : A) :
    ∃ owed, c.net.calls i ++ owed = (taken (events i ls)).flatMap (fun p => F.view i p.payload) ∧
      (c.act i = .idle → owed = []) := by
  obtain ⟨pending, owed, hat, -, hcalled⟩ := F.fair_of_run hrun i
  refine ⟨owed, ?_, fun hidle => (hat.eq_nil hidle).2⟩
  rw [calls_eq_called hrun]
  exact hcalled

/-- The datagrams that a party took from `src`, with those that it has not taken yet and those
still to be sent, are kept of what the jobs of `src` plan for it. -/
theorem traffic_of_run (F : FanOut D) {P : Policy A} {c : Config A K V J R}
    {ls : List (Label A K J R)} (hrun : (network D P).run ls (network D P).init = some c)
    (src i : A) : ∃ pending, (c.act src = .idle → pending = []) ∧
      Kept P.reorder P.lossy
        (payloadsFrom src (taken (events i ls)) ++ payloadsFrom src (c.net.queue i) ++
          (c.net.flight (src, i)).map Packet.payload ++ pending)
        (payloadsTo i ((c.net.started src).flatMap (F.plan src))) := by
  obtain ⟨pending, owed, hat, hsent, -⟩ := F.fair_of_run hrun src
  refine ⟨payloadsTo i pending, ?_, ?_⟩
  · intro hidle
    rw [(hat.eq_nil hidle).1]
    rfl
  · have htraffic := (traffic_kept hrun src i).append_right (payloadsTo i pending)
    have hposted : Kept P.reorder P.lossy (payloadsTo i (posts (events src ls) ++ pending))
        (payloadsTo i ((jobs (events src ls)).flatMap (F.plan src))) :=
      ((hsent.of_ordered).filter _).map _
    rw [payloadsTo_append] at hposted
    rw [started_eq_jobs hrun]
    exact htraffic.trans hposted

/-- Nothing comes from a party whose jobs plan nothing for the receiver. -/
theorem source_of_taken (F : FanOut D) {P : Policy A} {c : Config A K V J R}
    {ls : List (Label A K J R)} (hrun : (network D P).run ls (network D P).init = some c) {i : A}
    {p : Packet A} (hp : p ∈ taken (events i ls)) :
    p.payload ∈ payloadsTo i ((c.net.started p.src).flatMap (F.plan p.src)) := by
  obtain ⟨pending, -, hkept⟩ := F.traffic_of_run hrun p.src i
  apply hkept.subperm.subset
  simp only [List.append_assoc]
  exact List.mem_append_left _ (mem_payloadsFrom hp)

/-- On a network that loses nothing, once all is quiet: the callbacks of party `i` were invoked
for exactly the datagrams that were planned for it, whatever overtook what. -/
theorem complete (F : FanOut D) {P : Policy A} (hloss : P.lossy = false) {c : Config A K V J R}
    (hc : (network D P).Reachable c) {i : A} {srcs : List A} (hnodup : srcs.Nodup)
    (hothers : ∀ src, src ∉ srcs → ∀ job, F.plan src job = []) (hi : c.act i = .idle)
    (hqueue : c.net.queue i = [])
    (hsrcs : ∀ src ∈ srcs, c.act src = .idle ∧ c.net.flight (src, i) = []) :
    (c.net.calls i).Perm (srcs.flatMap fun src =>
      (payloadsTo i ((c.net.started src).flatMap (F.plan src))).flatMap (F.view i)) := by
  obtain ⟨ls, hrun⟩ := hc
  obtain ⟨owed, hcalled, howed⟩ := F.calls_of_run hrun i
  -- nothing was taken from a party that plans nothing
  have hsource (p : Packet A) (hp : p ∈ taken (events i ls)) : p.src ∈ srcs := by
    by_contra hsrc
    have hplan : (c.net.started p.src).flatMap (F.plan p.src) = [] :=
      List.flatMap_eq_nil_iff.mpr fun job _ => hothers p.src hsrc job
    have hmem := F.source_of_taken hrun hp
    rw [hplan] at hmem
    exact List.not_mem_nil hmem
  -- and all that was planned has been taken
  have htaken (src : A) (hsrc : src ∈ srcs) : (payloadsFrom src (taken (events i ls))).Perm
      (payloadsTo i ((c.net.started src).flatMap (F.plan src))) := by
    obtain ⟨pending, hpending, hkept⟩ := F.traffic_of_run hrun src i
    obtain ⟨hidle, hflight⟩ := hsrcs src hsrc
    rw [hloss, hqueue, hflight, hpending hidle] at hkept
    simpa [payloadsFrom] using hkept.perm
  rw [howed hi, List.append_nil] at hcalled
  have hviewed : c.net.calls i =
      ((taken (events i ls)).map Packet.payload).flatMap (F.view i) := by
    rw [hcalled, List.flatMap_map]
  have hsources := (payloads_perm_sources hnodup hsource).flatMap_right (F.view i)
  rw [List.flatMap_assoc] at hsources
  rw [hviewed]
  exact hsources.trans
    (List.Perm.flatMap_left srcs fun src hsrc => (htaken src hsrc).flatMap_right _)

end FanOut

end Datagram
