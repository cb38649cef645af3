import Marko.PymarkoExchangeReplies

/-! Every call of a requester that waits without timeout returns: while one is running something
can happen, and a run has no more steps than its requests account for. -/
namespace Pymarko

open Datagram Interaction

namespace Exchange

variable {K : Type} {F : Exchange K} {P : Policy Address} {N N' : NetState K}
  {φ φ' : Address → Phase K}

section Progress

variable [DecidableEq K]

theorem server_goes_on (hroute : F.Routed N φ)
    (hbusy : φ F.server ≠ .listening ∨ N.queue F.server ≠ []) :
    ∃ e c, e ≠ .timedOut ∧
      step F.deployment P (.party F.server e) (F.phases.view (N, φ)) = some c := by
  have hplace := hroute.phase F.server
  generalize hx : φ F.server = x at hbusy hplace
  have hact : (F.phases.view (N, φ)).act F.server = F.activity x := congrArg F.activity hx
  cases x with
  | idle =>
    refine ⟨.start .serve, _, (fun h => by cases h), step_party (x := F.activity .listening) ?_ rfl⟩
    rw [hact]
    simp only [activity, Activity.next, deployment, if_true, Option.map_some]
  -- the next three phases are the requester's
  | asking data => exact absurd hplace.1 F.ne
  | waiting data => exact absurd hplace F.ne
  | returning data r => exact absurd hplace F.ne
  | listening =>
    obtain ⟨p, rest, hqueue⟩ := List.exists_cons_of_ne_nil (hbusy.resolve_left (absurd rfl))
    obtain ⟨k, hlisten, -⟩ := F.loopOnce_activity
    refine ⟨.received p, _, (fun h => by cases h), step_party (x := .busy .serve
      (k (.received (p.payload.take F.loopSize) p.src))) (N := N.take F.server p) ?_ ?_⟩
    · rw [hact, hlisten]
      simp only [Activity.next, if_true]
    · simp only [Phases.view, Net.effect, hqueue, List.head?_cons, if_true]
  | calling data addr rest =>
    cases rest with
    | nil =>
      refine ⟨.finished .serve (.served (.ok ())), _, (fun h => by cases h),
        step_party (x := .idle) ?_ rfl⟩
      rw [hact]
      rfl
    | cons cb rest =>
      obtain ⟨k, hcalling, -⟩ := F.calling_activity data addr cb rest
      refine ⟨.invoked cb data, _, (fun h => by cases h),
        step_party (x := .busy .serve (k (F.answer cb data))) ?_ rfl⟩
      rw [hact, hcalling]
      simp only [Activity.next, deployment, and_self, if_true]
  | replying data addr reply rest =>
    refine ⟨.sent reply addr, _, (fun h => by cases h), step_party (x := .busy .serve
      (F.respondAll data addr rest)) ?_ rfl⟩
    rw [hact]
    simp only [activity, Activity.next, and_self, if_true, Sock.sendResult]
  | closing r =>
    refine ⟨.finished .serve (.served r), _, (fun h => by cases h), step_party (x := .idle) ?_ rfl⟩
    rw [hact]
    simp only [activity, Activity.next, and_self, if_true]

/-- While a call is running, some party or the network can take a step. -/
theorem Ordered.goes_on (h : F.Ordered N φ) (hroute : F.Routed N φ)
    (hbusy : F.activity (φ F.requester) ≠ .idle) :
    ∃ l c, l ≠ .party F.server .timedOut ∧
      Datagram.step F.deployment P l (F.phases.view (N, φ)) = some c := by
  have hplace := hroute.phase F.requester
  generalize hx : φ F.requester = x at hbusy hplace
  have hact : (F.phases.view (N, φ)).act F.requester = F.activity x := congrArg F.activity hx
  have hne : ∀ e : Event Address K Work Outcome, Label.party F.requester e ≠
      .party F.server .timedOut := by
    intro e he
    exact F.ne (Label.party.inj he).1.symm
  cases x with
  | idle => exact absurd rfl hbusy
  | asking data =>
    refine ⟨.party F.requester (.sent data F.server), _, hne _, step_party (x := .busy
      (.request data) (Outcome.returned <$> (Request.receive F.requestSize).run)) ?_ rfl⟩
    rw [hact]
    simp only [activity, Activity.next, and_self, if_true, Sock.sendResult]
  | returning data r =>
    refine ⟨.party F.requester (.finished (.request data) (.returned r)), _, hne _,
      step_party (x := .idle) ?_ rfl⟩
    rw [hact]
    simp only [activity, Activity.next, and_self, if_true]
  | waiting data =>
    -- the reply that the call waits for is queued, under way, or still the server's to compute
    have hbacklog := h.waiting_backlog hx
    by_cases hserver : φ F.server ≠ Phase.listening ∨ N.queue F.server ≠ []
    · obtain ⟨e, c, he, hstep⟩ := server_goes_on (P := P) hroute hserver
      exact ⟨_, c, fun hl => he (Label.party.inj hl).2, hstep⟩
    · rw [not_or, not_not, not_not] at hserver
      -- the server is waiting, so what is missing is on its way
      cases hasks : N.flight (F.requester, F.server) with
      | cons p rest =>
        exact ⟨.transit (.arrive F.requester F.server 0), _, (fun h => by cases h),
          step_arrive hasks⟩
      | nil =>
        cases hanswers : N.flight (F.server, F.requester) with
        | cons p rest =>
          exact ⟨.transit (.arrive F.server F.requester 0), _, (fun h => by cases h),
            step_arrive hanswers⟩
        | nil =>
          cases hqueue : N.queue F.requester with
          | cons p rest =>
            obtain ⟨k, hwaiting, -⟩ := F.waiting_activity data
            refine ⟨.party F.requester (.received p), _, hne _, step_party
              (x := .busy (.request data) (k (.received (p.payload.take F.requestSize) p.src)))
              (N := N.take F.requester p) ?_ ?_⟩
            · rw [hact, hwaiting]
              simp only [Activity.next, if_true]
            · simp only [Phases.view, Net.effect, hqueue, List.head?_cons, if_true]
          | nil =>
            exfalso
            apply hbacklog
            unfold backlog unserved
            rw [hasks, hanswers, hqueue, hserver.1, hserver.2, hx]
            rfl
  | listening => exact absurd hplace.symm F.ne
  | calling data addr rest => exact absurd hplace.1.symm F.ne
  | replying data addr reply rest => exact absurd hplace.1.symm F.ne
  | closing r => exact absurd hplace.symm F.ne

end Progress

variable (F)

/-- The most steps that a request in the server's queue can still cause. -/
def turn : ℕ := 3 * F.callbacks.length + 3

/-- The steps that a party can still take from its phase, and those of what it will send. -/
def cost : Phase K → ℕ
  | .idle => 1
  -- sending, `turn + 1` for the request under way, and waiting
  | .asking _ => F.turn + 5
  | .waiting _ => 3
  | .returning _ _ => 2
  | .listening => 0
  | .calling _ _ rest => 3 * rest.length + 2
  | .replying _ _ _ rest => 3 * rest.length + 4
  | .closing _ => 2

/-- The most steps that can come before the next request. -/
def work (N : NetState K) (φ : Address → Phase K) : ℕ :=
  F.turn * (N.queue F.server).length + (F.turn + 1) * (N.flight (F.requester, F.server)).length +
    (N.flight (F.server, F.requester)).length + F.cost (φ F.requester) + F.cost (φ F.server)

variable {F}

theorem cost_afterCall (data : Bytes) (addr : Address) (cb : K) (rest : List K) :
    F.cost (F.afterCall data addr cb rest) + 1 ≤ F.cost (.calling data addr (cb :: rest)) := by
  unfold afterCall
  cases F.answer cb data <;> simp only [cost, List.length_cons] <;> omega

/-- Every step uses some of the work up; only a new request brings more. -/
theorem work_step (hblock : P.timeouts F.server = false) (hstep : F.Step P N φ N' φ') :
    F.work N' φ' + 1 + (F.turn + 5) * (F.requests N).length ≤
      F.work N φ + (F.turn + 5) * (F.requests N').length := by
  have hne := F.ne
  have hne' := F.ne.symm
  have hdir : (F.server, F.requester) ≠ (F.requester, F.server) := by
    intro hboth
    exact hne (Prod.mk.inj hboth).1
  cases hstep with
  | ask data hphase hproper =>
    rw [requests_ask, List.length_append, List.length_singleton, Nat.mul_add]
    simp only [work, cost, hphase, Net.start_queue, Net.start_flight, Function.update_self,
      Function.update_of_ne hne]
    omega
  | send data hphase =>
    -- the request under way is one arrival more than a request in the queue
    simp only [work, cost, requests, hphase, Net.post_queue, Net.post_flight, Net.post_started,
      Function.update_self, Function.update_of_ne hne, Function.update_of_ne hdir,
      List.length_append, List.length_singleton, Nat.mul_add]
    omega
  | receive data p rest hphase hqueue =>
    simp only [work, cost, requests, hphase, Net.take_queue, Net.take_flight, Net.take_started,
      Function.update_self, Function.update_of_ne hne]
    omega
  | returned data r hphase =>
    simp only [work, cost, requests, hphase, Net.conclude_queue, Net.conclude_flight,
      Net.conclude_started, Function.update_self, Function.update_of_ne hne]
    omega
  | listen hphase =>
    simp only [work, cost, requests, hphase, Net.start_queue, Net.start_flight,
      Net.start_started, Function.update_self, Function.update_of_ne hne']
    omega
  | handle p rest hphase hqueue =>
    have hturn : F.turn = 3 * F.callbacks.length + 3 := rfl
    simp only [work, cost, requests, hphase, hqueue, Net.take_queue, Net.take_flight,
      Net.take_started, Function.update_self, Function.update_of_ne hne', List.tail_cons,
      List.length_cons, Nat.mul_add]
    omega
  | quiet htime hphase =>
    rw [hblock] at htime
    contradiction
  | call data cb rest hphase =>
    have hcost := cost_afterCall (F := F) data F.requester cb rest
    simp only [work, requests, hphase, Net.note_queue, Net.note_flight, Net.note_started,
      Function.update_self, Function.update_of_ne hne']
    omega
  | reply data reply rest hphase =>
    simp only [work, cost, requests, hphase, Net.post_queue, Net.post_flight, Net.post_started,
      Function.update_self, Function.update_of_ne hne', Function.update_of_ne hdir.symm,
      List.length_append, List.length_singleton]
    omega
  | called data hphase =>
    simp only [work, cost, requests, hphase, Net.conclude_queue, Net.conclude_flight,
      Net.conclude_started, Function.update_self, Function.update_of_ne hne', List.length_nil]
    omega
  | closed r hphase =>
    simp only [work, cost, requests, hphase, Net.conclude_queue, Net.conclude_flight,
      Net.conclude_started, Function.update_self, Function.update_of_ne hne']
    omega
  | arriveAtServer p rest hflight =>
    simp only [work, requests, hflight, Net.arrive_queue, Net.arrive_flight, Net.lose_flight,
      Net.arrive_started, Function.update_self, Function.update_of_ne hdir,
      List.eraseIdx_cons_zero, List.length_append, List.length_cons, List.length_nil,
      Nat.mul_add, Nat.add_mul]
    omega
  | arriveAtRequester p rest hflight =>
    simp only [work, requests, hflight, Net.arrive_queue, Net.arrive_flight, Net.lose_flight,
      Net.arrive_started, Function.update_self, Function.update_of_ne hdir.symm,
      Function.update_of_ne hne, List.eraseIdx_cons_zero, List.length_cons]
    omega

/-- In every state that a run reaches: the results are the replies in the order of the requests,
one for each call; the `k`-th call returns a reply to one of the first requests up to its own,
to its own when every request before drew a single reply; while a call is running something
can happen; and when the server waits without timeout too, the run is no longer than a number
that the requests determine. -/
theorem results_follow_requests [DecidableEq K] (hfifo : P.reorder = false)
    (hloss : P.lossy = false) (hwait : P.timeouts F.requester = false)
    {ls : List (Label Address K Work Outcome)}
    {c : Config Address K (Option Bytes) Work Outcome}
    (hrun : (network F.deployment P).run ls (network F.deployment P).init = some c) :
    F.results c.net = (((F.requests c.net).flatMap F.repliesTo).take
        (F.results c.net).length).map (fun r => .ok (some r)) ∧
      (∀ k r, (F.results c.net)[k]? = some r → ∃ reply, r = .ok (some reply) ∧
        (∃ j ≤ k, ∃ data, (F.requests c.net)[j]? = some data ∧ reply ∈ F.repliesTo data) ∧
        ((∀ data ∈ (F.requests c.net).take k, (F.repliesTo data).length = 1) →
          ∃ data, (F.requests c.net)[k]? = some data ∧ reply ∈ F.repliesTo data)) ∧
      (c.act F.requester ≠ .idle → ∃ l c', l ≠ .party F.server .timedOut ∧
        (network F.deployment P).step l c = some c') ∧
      (P.timeouts F.server = false →
        ls.length ≤ 2 + (3 * F.callbacks.length + 8) * (F.requests c.net).length) := by
  obtain ⟨φ, ⟨hroute, hordered⟩, hact⟩ := F.phases.invariant P
    (I := fun N φ => F.Routed N φ ∧ F.Ordered N φ) ⟨routed_empty, ordered_empty⟩
    (fun N φ N' φ' h hstep => by
      have hstep := step_of_phases hfifo hloss hwait h.1 hstep
      exact ⟨h.1.step hstep, h.2.step hstep⟩) ⟨ls, hrun⟩
  refine ⟨hordered.results_eq, fun k r => hordered.result_answers, ?_, ?_⟩
  · intro hbusy
    rw [hact] at hbusy
    obtain ⟨l, c', hl, hstep⟩ := hordered.goes_on (P := P) hroute hbusy
    have hview : F.phases.view (c.net, φ) = c := by
      rw [Phases.view, ← hact]
    rw [hview] at hstep
    exact ⟨l, c', hl, hstep⟩
  -- counting the steps needs a second pass with the budget of the requests
  · intro hblock
    obtain ⟨ψ, ⟨-, hcount⟩, -⟩ := F.phases.counted P
      (I := fun n N φ => F.Routed N φ ∧
        n + F.work N φ ≤ 2 + (F.turn + 5) * (F.requests N).length)
      ⟨routed_empty, Nat.le_refl _⟩
      (fun n N φ N' φ' h hstep => by
        have hstep := step_of_phases hfifo hloss hwait h.1 hstep
        have hwork := work_step hblock hstep
        exact ⟨h.1.step hstep, by omega⟩) hrun
    have hturn : F.turn + 5 = 3 * F.callbacks.length + 8 := rfl
    rw [hturn] at hcount
    omega

/-- Three callbacks: the first answers every request, the second only longer ones. -/
def threeCallbacks : Exchange ℕ where
  requester := ("host", 1)
  server := ("host", 2)
  ne := fun h => absurd (congrArg Prod.snd h) (by decide)
  requestSocket := ⟨4, Nat.succ_pos 3⟩
  replySocket := ⟨4, Nat.succ_pos 3⟩
  callbacks := [10, 20, 30]
  loopSize := 4
  requestSize := 4
  answer cb data :=
    if cb = 10 then some (data.take 1)
    else if cb = 20 ∧ 1 < data.length then some ((data.drop 1).take 1)
    else none
  answer_fits := by
    intro cb data r hr
    have hone : r.length ≤ 1 := by
      split at hr
      · rw [← Option.some.inj hr]
        exact List.length_take_le 1 data
      · rw [← Option.some.inj (Option.ite_none_right_eq_some.mp hr).2]
        exact List.length_take_le 1 _
    exact ⟨Nat.le_trans hone (by decide), Nat.le_trans hone (by decide)⟩

def orderedNetwork : Policy Address :=
  { reorder := false, lossy := false, timeouts := fun _ => false }

/-- The `n`-th call, whose request the first callback answers: the call returns while the
server is still in its loop. -/
def answered (n : ℕ) (data reply : Bytes) : List (Label Address ℕ Work Outcome) :=
  [.party ("host", 1) (.start (.request data)), .party ("host", 1) (.sent data ("host", 2)),
    .transit (.arrive ("host", 1) ("host", 2) 0), .party ("host", 2) (.start .serve),
    .party ("host", 2) (.received ⟨("host", 1), data, ("host", 1), n⟩),
    .party ("host", 2) (.invoked 10 data), .party ("host", 2) (.sent reply ("host", 1)),
    .transit (.arrive ("host", 2) ("host", 1) 0),
    .party ("host", 1) (.received ⟨("host", 2), reply, ("host", 1), n⟩),
    .party ("host", 1) (.finished (.request data) (.returned (.ok (some reply)))),
    .party ("host", 2) (.invoked 20 data)]

def ended (data : Bytes) : List (Label Address ℕ Work Outcome) :=
  [.party ("host", 2) (.invoked 30 data), .party ("host", 2) (.finished .serve (.served (.ok ())))]

theorem results_follow_requests_two_calls : ∃ c,
    (network threeCallbacks.deployment orderedNetwork).Reachable c ∧
      threeCallbacks.requests c.net = [[1], [3]] ∧
      threeCallbacks.results c.net = [.ok (some [1]), .ok (some [3])] ∧
      ∃ data, ([[1], [3]] : List Bytes)[1]? = some data ∧
        [3] ∈ threeCallbacks.repliesTo data := by
  have hrun : ∃ c, (network threeCallbacks.deployment orderedNetwork).run
      (answered 0 [1] [1] ++ ended [1] ++ answered 1 [3] [3])
      (network threeCallbacks.deployment orderedNetwork).init = some c ∧
      threeCallbacks.requests c.net = [[1], [3]] ∧
      threeCallbacks.results c.net = [.ok (some [1]), .ok (some [3])] := ⟨_, rfl, rfl, rfl⟩
  obtain ⟨c, hrun, hrequests, hresults⟩ := hrun
  obtain ⟨-, hcalls, -⟩ := results_follow_requests rfl rfl rfl hrun
  have hsecond : (threeCallbacks.results c.net)[1]? = some (.ok (some [3])) := by
    rw [hresults]
    rfl
  obtain ⟨reply, hreply, -, hown⟩ := hcalls 1 _ hsecond
  obtain rfl : [3] = reply := Option.some.inj (Except.ok.inj hreply)
  rw [hrequests] at hown
  exact ⟨c, ⟨_, hrun⟩, hrequests, hresults, hown (by decide)⟩

/-- Two callbacks answer the first request, and the second call returns the second answer. -/
theorem second_reply_answers_next_request : ∃ c,
    (network threeCallbacks.deployment orderedNetwork).Reachable c ∧
      threeCallbacks.requests c.net = [[1, 2], [3]] ∧
      ¬ ∀ (k : ℕ) r, (threeCallbacks.results c.net)[k]? = some r →
        ∃ reply data, r = .ok (some reply) ∧ (threeCallbacks.requests c.net)[k]? = some data ∧
          reply ∈ threeCallbacks.repliesTo data := by
  have hrun : ∃ c, (network threeCallbacks.deployment orderedNetwork).Reachable c ∧
      threeCallbacks.requests c.net = [[1, 2], [3]] ∧
      threeCallbacks.results c.net = [.ok (some [1]), .ok (some [2])] :=
    ⟨_, ⟨answered 0 [1, 2] [1] ++
      [.party ("host", 2) (.sent [2] ("host", 1)), .transit (.arrive ("host", 2) ("host", 1) 0),
        .party ("host", 1) (.start (.request [3])), .party ("host", 1) (.sent [3] ("host", 2)),
        .party ("host", 1) (.received ⟨("host", 2), [2], ("host", 1), 0⟩),
        .party ("host", 1) (.finished (.request [3]) (.returned (.ok (some [2]))))], rfl⟩, rfl, rfl⟩
  obtain ⟨c, hc, hrequests, hresults⟩ := hrun
  refine ⟨c, hc, hrequests, ?_⟩
  intro hall
  have hsecond : (threeCallbacks.results c.net)[1]? = some (.ok (some [2])) := by
    rw [hresults]
    rfl
  obtain ⟨reply, data, hreply, hdata, hmem⟩ := hall 1 _ hsecond
  rw [hrequests] at hdata
  obtain rfl : [2] = reply := Option.some.inj (Except.ok.inj hreply)
  obtain rfl : [3] = data := Option.some.inj hdata
  revert hmem
  decide

end Exchange

end Pymarko
