import Marko.RequestReplyTokens

/-! Which reply a call of `request` returns. A client that can time out gets the answers in
the order of its requests, but an answer may come back one or more calls too late. -/
namespace Marko

open Datagram CallPipeline

namespace Service

variable {A : Type} (S : Service A)

def current : Phase A → List Work
  | .idle => []
  | .ready m => [.ask m]
  | .waiting m => [.ask m]
  | .got m _ => [.ask m]
  | .listening => [.serve]
  | .asking _ _ => [.serve]
  | .answering _ _ => [.serve]
  | .served _ => [.serve]

def timeouts (log : List (Return A Work Outcome)) : ℕ :=
  log.countP fun ret => ret.result = .reply []

/-- The number of the call whose answer the `k`-th call returned. -/
def answeredCall (log : List (Return A Work Outcome)) (k : ℕ) : ℕ :=
  (log[k]?.map fun ret => ret.cause.2).getD 0

theorem answeredCall_eq {log : List (Return A Work Outcome)} {k : ℕ}
    {ret : Return A Work Outcome} (hk : log[k]? = some ret) :
    answeredCall log k = ret.cause.2 := by
  rw [answeredCall, hk, Option.map_some, Option.getD_some]

theorem length_answers (log : List (Return A Work Outcome))
    (hlog : ∀ ret ∈ log, ∃ r, ret.result = .reply r) :
    (log.filterMap answerOf).length + timeouts log = log.length := by
  unfold timeouts
  induction log with
  | nil => rfl
  | cons ret log ih =>
    have ih := ih fun x hx => hlog x (List.mem_cons_of_mem _ hx)
    obtain ⟨r, hr⟩ := hlog ret List.mem_cons_self
    -- a return counts on one side or the other, by whether it is empty
    by_cases hnil : r = [] <;> simp [answerOf, hr, hnil] <;> omega

variable [DecidableEq A]

/-- The invariant of a service: what is under way, the pipeline of each client's calls, and
what each client's log says of them. -/
structure Paired (P : Policy A) (N : NetState A) (φ : A → Phase A) : Prop where
  addressed : S.Addressed N φ
  ordered : ∀ i, S.clients i = true → Ordered S.answerTo (S.calls i N φ)
  logged : ∀ i, S.clients i = true →
    N.started i = (N.returned i).map Return.job ++ current (φ i)
  replied : ∀ i, S.clients i = true → ∀ k (ret : Return A Work Outcome),
    (N.returned i)[k]? = some ret →
      ∃ m r, ret.job = .ask m ∧ ret.result = .reply r ∧ (r ≠ [] → ret.cause.2 ≤ k)
  patient : ∀ i, S.clients i = true → P.timeouts i = false →
    (∀ ret ∈ N.returned i, ret.result ≠ .reply []) ∧ ∀ m, φ i ≠ .got m []
  invoked : ∀ v ∈ N.invoked S.server, S.clients v.cause.1 = true

variable {S} {P : Policy A} {N N' : NetState A} {φ φ' : A → Phase A} {i : A}

theorem returned_step (hstep : S.Step P N φ N' φ') (hi : S.clients i = true) :
    N'.returned i = N.returned i ∨
      ∃ m r, φ i = .got m r ∧
        N'.returned i = N.returned i ++ [⟨.ask m, .reply r, N.cause i⟩] := by
  have hia := ne_server_of_client hi
  cases hstep with
  | finish j m r hclient hphase =>
    by_cases hij : i = j
    · subst hij
      refine .inr ⟨m, r, hphase, ?_⟩
      simp only [Net.conclude_returned, Function.update_self]
    · refine .inl ?_
      simp only [Net.conclude_returned, Function.update_of_ne hij]
  | served ok hphase =>
    refine .inl ?_
    simp only [Net.conclude_returned, Function.update_of_ne hia]
  | _ => exact .inl rfl

theorem current_update {j : A} {x : Phase A} (hx : current x = current (φ j)) :
    current (Function.update φ j x i) = current (φ i) := by
  by_cases hij : i = j
  · subst hij
    rw [Function.update_self, hx]
  · rw [Function.update_of_ne hij]

theorem logged_step (hstep : S.Step P N φ N' φ') (hi : S.clients i = true)
    (h : N.started i = (N.returned i).map Return.job ++ current (φ i)) :
    N'.started i = (N'.returned i).map Return.job ++ current (φ' i) := by
  have hia := ne_server_of_client hi
  cases hstep with
  | ask j m hclient hphase hsize =>
    by_cases hij : i = j
    · subst hij
      simp [h, hphase, current]
    · simp [hij, h]
  | finish j m r hclient hphase =>
    by_cases hij : i = j
    · subst hij
      simp [h, hphase, current]
    · simp [hij, h]
  | serve hphase => simp [hia, h]
  | served ok hphase => simp [hia, h]
  | request j m hclient hphase => rwa [current_update (by rw [hphase]; rfl)]
  | requestFails j m hclient hphase => rwa [current_update (by rw [hphase]; rfl)]
  | reply j m p rest hclient hphase => rwa [current_update (by rw [hphase]; rfl)]
  | giveUp j m hclient hphase => rwa [current_update (by rw [hphase]; rfl)]
  | accept p rest hphase => rwa [current_update (by rw [hphase]; rfl)]
  | serveTimesOut hphase => rwa [current_update (by rw [hphase]; rfl)]
  | compute src m hphase => rwa [current_update (by rw [hphase]; rfl)]
  | answer src r hphase => rwa [current_update (by rw [hphase]; rfl)]
  | answerFails src r hphase => rwa [current_update (by rw [hphase]; rfl)]
  | requestArrives | replyArrives | lose => exact h

/-- An empty message is returned only by a call that timed out. -/
theorem patient_step (hstep : S.Step P N φ N' φ') (hadd : S.Addressed N φ)
    (hi : S.clients i = true) (htime : P.timeouts i = false) (h : ∀ m, φ i ≠ .got m [])
    (m : Message) : φ' i ≠ .got m [] := by
  have hia := ne_server_of_client hi
  cases hstep with
  | reply j m' p rest hclient hphase hqueue =>
    by_cases hij : i = j
    · subst hij
      rw [Function.update_self]
      have hp := (hadd.queue i p (hqueue ▸ List.mem_cons_self)).reply_ne_nil hi
      simpa using fun _ => hp
    · simpa [Function.update_of_ne hij] using h m
  | giveUp j m' hclient hphase htimeout =>
    by_cases hij : i = j
    · subst hij
      rw [htime] at htimeout
      contradiction
    · simpa [Function.update_of_ne hij] using h m
  | ask j | request j | requestFails j | finish j =>
    by_cases hij : i = j
    · subst hij
      simp
    · simpa [Function.update_of_ne hij] using h m
  | requestArrives | replyArrives | lose => exact h m
  | _ => simpa [Function.update_of_ne hia] using h m

theorem invoked_step (hstep : S.Step P N φ N' φ') (hadd : S.Addressed N φ)
    (h : ∀ v ∈ N.invoked S.server, S.clients v.cause.1 = true) :
    ∀ v ∈ N'.invoked S.server, S.clients v.cause.1 = true := by
  cases hstep with
  | compute src m hphase =>
    obtain ⟨-, hclient, hcause, -⟩ := hadd.placed hphase
    intro v hv
    simp only [Net.note_invoked, Function.update_self] at hv
    rcases List.mem_append.mp hv with hv | hv
    · exact h v hv
    · rw [List.mem_singleton.mp hv]
      exact hcause ▸ hclient
  | _ => exact h

theorem paired_empty : S.Paired P .empty fun _ => .idle where
  addressed := addressed_empty
  ordered _ _ := ordered_empty
  logged _ _ := rfl
  replied _ _ k ret h := by simp [Net.empty] at h
  patient _ _ _ := ⟨fun _ h => absurd h List.not_mem_nil, fun _ h => nomatch h⟩
  invoked _ h := absurd h List.not_mem_nil

/-- A client that never times out has at most one datagram anywhere, and only while it is
in a call. -/
theorem Paired.length_open_le (h : S.Paired P N φ) (hi : S.clients i = true)
    (htime : P.timeouts i = false) :
    (S.calls i N φ).replies.length + (S.calls i N φ).requests.length ≤ 1 := by
  have hopen := (h.ordered i hi).length_open_le
  obtain ⟨hlog, hgot⟩ := h.patient i hi htime
  have hanswers := length_answers (N.returned i) fun ret hret => by
    obtain ⟨k, hk⟩ := List.mem_iff_getElem?.mp hret
    obtain ⟨-, r, -, hr, -⟩ := h.replied i hi k ret hk
    exact ⟨r, hr⟩
  have hnone : timeouts (N.returned i) = 0 :=
    List.countP_eq_zero.mpr fun ret hret => by simpa using hlog ret hret
  have hstarted : (S.calls i N φ).asked.length =
      (N.returned i).length + (current (φ i)).length := by
    simp only [calls, h.logged i hi, List.length_append, List.length_map]
  have hanswered : (S.calls i N φ).answered.length =
      ((N.returned i).filterMap answerOf).length + (held (N.cause i) (φ i)).length :=
    List.length_append
  -- the job in progress is the only call that is neither returned nor held
  have hcurrent : (current (φ i)).length ≤ (held (N.cause i) (φ i)).length + 1 := by
    cases φ i <;> simp [current]
  omega

theorem Paired.length_flight_le (h : S.Paired P N φ) (hi : S.clients i = true)
    (htime : P.timeouts i = false) :
    (N.flight (i, S.server)).length ≤ 1 ∧ (N.flight (S.server, i)).length ≤ 1 := by
  have hopen := h.length_open_le hi htime
  simp only [calls, List.length_append, List.length_map] at hopen
  omega

/-- A reply that returns now belongs to a call that was made before. -/
theorem Paired.cause_le (h : S.Paired P N φ) (hi : S.clients i = true) {m r : Message}
    (hphase : φ i = .got m r) (hr : r ≠ []) : (N.cause i).2 ≤ (N.returned i).length := by
  have hheld : ((N.cause i).2, r) ∈ (S.calls i N φ).answered := by
    simp [calls, hphase, held, hr]
  obtain ⟨j, hj, -⟩ := (h.ordered i hi).answered _ hheld
  have hlt : (N.cause i).2 < (N.started i).length := lt_length_of_getElem?_eq_some hj
  rw [h.logged i hi, hphase, List.length_append, List.length_map] at hlt
  exact Nat.le_of_lt_succ hlt

/-- One step keeps the pairing, provided that the network keeps order or no client that it
serves can time out. -/
theorem Paired.step (h : S.Paired P N φ) (hstep : S.Step P N φ N' φ')
    (hpolicy : P.reorder = true → ∀ i, S.clients i = true → P.timeouts i = false) :
    S.Paired P N' φ' where
  addressed := h.addressed.step hstep
  ordered i hi := (h.ordered i hi).step (calls_step hstep h.addressed hi fun hreorder =>
    h.length_flight_le hi (hpolicy hreorder i hi))
  logged i hi := logged_step hstep hi (h.logged i hi)
  replied i hi k ret hk := by
    rcases returned_step hstep hi with hsame | ⟨m, r, hphase, hnew⟩
    · exact h.replied i hi k ret (hsame ▸ hk)
    · rw [hnew] at hk
      rcases lt_or_ge k (N.returned i).length with hlt | hge
      · rw [List.getElem?_append_left hlt] at hk
        exact h.replied i hi k ret hk
      · -- the new entry: its cause is a call that was made before
        have hk' := lt_length_of_getElem?_eq_some hk
        rw [List.length_append, List.length_singleton] at hk'
        obtain rfl : k = (N.returned i).length := by omega
        rw [List.getElem?_concat_length] at hk
        obtain rfl := Option.some.inj hk
        exact ⟨m, r, rfl, rfl, h.cause_le hi hphase⟩
  patient i hi htime := by
    obtain ⟨hlog, hgot⟩ := h.patient i hi htime
    refine ⟨?_, patient_step hstep h.addressed hi htime hgot⟩
    rcases returned_step hstep hi with hsame | ⟨m, r, hphase, hnew⟩
    · exact hsame ▸ hlog
    · intro ret hret
      rw [hnew] at hret
      rcases List.mem_append.mp hret with hret | hret
      · exact hlog ret hret
      · rw [List.mem_singleton.mp hret]
        rintro ⟨⟩
        exact hgot m hphase
  invoked := invoked_step hstep h.addressed h.invoked

theorem paired_of_reachable [Zero A] {D : SocketDefs}
    (hpolicy : P.reorder = true → ∀ i, S.clients i = true → P.timeouts i = false)
    {c : Config A Unit Message Work Outcome}
    (hc : (network (S.deployment D) P).Reachable c) : ∃ φ, S.Paired P c.net φ := by
  obtain ⟨φ, h, -⟩ := (S.phases D).invariant P (I := S.Paired P) paired_empty
    (fun N φ N' φ' hN hstep => hN.step (step_of_phases hN.addressed hstep) hpolicy) hc
  exact ⟨φ, h⟩

/-- The answer that a call returned is the answer to the call that its cause names. -/
theorem Paired.reply_eq (h : S.Paired P N φ) (hi : S.clients i = true) {k : ℕ}
    {ret : Return A Work Outcome} {r : Message} (hk : (N.returned i)[k]? = some ret)
    (hr : ret.result = .reply r) (hne : r ≠ []) :
    ∃ m, ((N.returned i)[ret.cause.2]?).map Return.job = some (.ask m) ∧ r = S.callback m := by
  have hmem : (ret.cause.2, r) ∈ (S.calls i N φ).answered := by
    apply List.mem_append_left
    exact List.mem_filterMap.mpr ⟨ret, List.mem_of_getElem? hk, by simp [answerOf, hr, hne]⟩
  obtain ⟨job, hjob, rfl⟩ := (h.ordered i hi).answered _ hmem
  obtain ⟨m', r', -, hr', hle⟩ := h.replied i hi k ret hk
  have hcause : ret.cause.2 < (N.returned i).length := by
    obtain rfl : S.answerTo job = r' := by simpa [hr] using hr'
    exact Nat.lt_of_le_of_lt (hle hne) (lt_length_of_getElem?_eq_some hk)
  obtain ⟨m, -, hm, -⟩ := h.replied i hi _ _ (List.getElem?_eq_getElem hcause)
  have hjob' : ((N.returned i).map Return.job ++ current (φ i))[ret.cause.2]? = some job :=
    h.logged i hi ▸ hjob
  rw [List.getElem?_append_left (by rwa [List.length_map]), List.getElem?_map,
    List.getElem?_eq_getElem hcause, Option.map_some, hm, Option.some.injEq] at hjob'
  subst hjob'
  refine ⟨m, ?_, rfl⟩
  rw [List.getElem?_eq_getElem hcause, Option.map_some, hm]

/-- The calls before the `k`-th, as far as they were answered. -/
theorem answered_split (φ : A → Phase A) {k : ℕ} {ret : Return A Work Outcome} {r : Message}
    (hk : (N.returned i)[k]? = some ret) (hr : ret.result = .reply r) (hne : r ≠ []) :
    ∃ after, (S.calls i N φ).answered =
      ((N.returned i).take k).filterMap answerOf ++ (ret.cause.2, r) :: after := by
  obtain ⟨hlt, hget⟩ := List.getElem?_eq_some_iff.mp hk
  have hlog : (N.returned i).take k ++ ret :: (N.returned i).drop (k + 1) = N.returned i := by
    rw [← hget, ← List.drop_eq_getElem_cons hlt, List.take_append_drop]
  have hans : answerOf ret = some (ret.cause.2, r) := by simp [answerOf, hr, hne]
  refine ⟨((N.returned i).drop (k + 1)).filterMap answerOf ++ held (N.cause i) (φ i), ?_⟩
  calc
    (S.calls i N φ).answered
      = (N.returned i).filterMap answerOf ++ held (N.cause i) (φ i) := rfl
    _ = ((N.returned i).take k ++ ret :: (N.returned i).drop (k + 1)).filterMap answerOf ++
          held (N.cause i) (φ i) := by rw [hlog]
    _ = _ := by
      rw [List.filterMap_append, List.filterMap_cons_some hans, List.append_assoc,
        List.cons_append]

/-- An answer is late by at most the number of calls that timed out before it. -/
theorem Paired.le_add_timeouts (h : S.Paired P N φ) (hi : S.clients i = true) {k : ℕ}
    {ret : Return A Work Outcome} {r : Message} (hk : (N.returned i)[k]? = some ret)
    (hr : ret.result = .reply r) (hne : r ≠ []) :
    k ≤ ret.cause.2 + timeouts ((N.returned i).take k) := by
  obtain ⟨after, hsplit⟩ := answered_split φ hk hr hne
  have hbefore := (h.ordered i hi).length_le_of_answered hsplit
  have hlength := length_answers ((N.returned i).take k) fun x hx => by
    obtain ⟨n, hn⟩ := List.mem_iff_getElem?.mp (List.mem_of_mem_take hx)
    obtain ⟨-, r, -, hr, -⟩ := h.replied i hi n x hn
    exact ⟨r, hr⟩
  have hk' : k ≤ (N.returned i).length := Nat.le_of_lt (lt_length_of_getElem?_eq_some hk)
  -- each of the first `k` calls was answered or timed out
  calc
    k = ((N.returned i).take k).length := (List.length_take_of_le hk').symm
    _ = (((N.returned i).take k).filterMap answerOf).length +
          timeouts ((N.returned i).take k) := hlength.symm
    _ ≤ ret.cause.2 + timeouts ((N.returned i).take k) := Nat.add_le_add_right hbefore _

theorem Paired.cause_lt (h : S.Paired P N φ) (hi : S.clients i = true) {k k' : ℕ}
    {ret ret' : Return A Work Outcome} {r r' : Message} (hkk' : k < k')
    (hk : (N.returned i)[k]? = some ret) (hr : ret.result = .reply r) (hne : r ≠ [])
    (hk' : (N.returned i)[k']? = some ret') (hr' : ret'.result = .reply r') (hne' : r' ≠ []) :
    ret.cause.2 < ret'.cause.2 := by
  obtain ⟨after, hsplit⟩ := answered_split φ hk' hr' hne'
  apply (h.ordered i hi).lt_of_answered (u := (ret.cause.2, r)) hsplit
  have hmem : ret ∈ (N.returned i).take k' :=
    List.mem_of_getElem? ((List.getElem?_take_of_lt hkk').trans hk)
  exact List.mem_filterMap.mpr ⟨ret, hmem, by simp [answerOf, hr, hne]⟩

/-- Every call returned nothing or the answer to a request of the same log: its own, or an
earlier one, late by at most the number of calls that timed out before. Answers come in the
order of their requests, none of them twice. -/
structure FollowsRequests (S : Service A) (log : List (Return A Work Outcome)) (j : ℕ → ℕ) :
    Prop where
  reply : ∀ k ret, log[k]? = some ret → ∃ m r, ret.job = .ask m ∧ ret.result = .reply r ∧
    (r = [] ∨ ∃ m', (log[j k]?).map Return.job = some (.ask m') ∧ r = S.callback m')
  late : ∀ k ret, log[k]? = some ret → ret.result ≠ .reply [] →
    j k ≤ k ∧ k ≤ j k + timeouts (log.take k)
  order : ∀ k k' ret ret', k < k' → log[k]? = some ret → log[k']? = some ret' →
    ret.result ≠ .reply [] → ret'.result ≠ .reply [] → j k < j k'

theorem Paired.followsRequests (h : S.Paired P N φ) (hi : S.clients i = true) :
    S.FollowsRequests (N.returned i) (answeredCall (N.returned i)) where
  reply k ret hk := by
    obtain ⟨m, r, hjob, hr, -⟩ := h.replied i hi k ret hk
    refine ⟨m, r, hjob, hr, ?_⟩
    rw [answeredCall_eq hk]
    rcases eq_or_ne r [] with hnil | hne
    · exact .inl hnil
    · exact .inr (h.reply_eq hi hk hr hne)
  late k ret hk hret := by
    obtain ⟨-, r, -, hr, hle⟩ := h.replied i hi k ret hk
    have hne : r ≠ [] := fun hnil => hret (hnil ▸ hr)
    rw [answeredCall_eq hk]
    exact ⟨hle hne, h.le_add_timeouts hi hk hr hne⟩
  order k k' ret ret' hkk' hk hk' hret hret' := by
    obtain ⟨-, r, -, hr, -⟩ := h.replied i hi k ret hk
    obtain ⟨-, r', -, hr', -⟩ := h.replied i hi k' ret' hk'
    have hne : r ≠ [] := fun hnil => hret (hnil ▸ hr)
    have hne' : r' ≠ [] := fun hnil => hret' (hnil ▸ hr')
    rw [answeredCall_eq hk, answeredCall_eq hk']
    exact h.cause_lt hi hkk' hk hr hne hk' hr' hne'

/-- Over a network that keeps order but may lose datagrams, and with timeouts, the replies
of every client follow its requests in every reachable state. -/
theorem replies_follow_requests [Zero A] {D : SocketDefs} (hfifo : P.reorder = false)
    {c : Config A Unit Message Work Outcome} (hc : (network (S.deployment D) P).Reachable c)
    (hi : S.clients i = true) : ∃ j, S.FollowsRequests (c.net.returned i) j := by
  obtain ⟨φ, h⟩ := paired_of_reachable (fun hreorder => by simp [hfifo] at hreorder) hc
  exact ⟨answeredCall (c.net.returned i), h.followsRequests hi⟩

/-- A server at address 1 that answers one byte with the same byte, and one client. -/
def echo : Service ℕ where
  server := 1
  clients i := i = 2
  msgSize := 1
  replySize := 1
  callback m := m
  server_not_client := rfl
  msgSize_pos := Nat.one_pos
  replySize_pos := Nat.one_pos
  length_callback _ h := h

def patientNetwork : Policy ℕ := { reorder := false, lossy := false, timeouts := fun i => i = 2 }

def echoNetwork := network (echo.deployment .failure) patientNetwork

/-- The first call gives up before its answer arrives, and the second call receives it. -/
def lateReply : List (Label ℕ Unit Work Outcome) :=
  [.party 2 (.start (.ask [7])), .party 2 (.sent [7] 1), .party 1 (.start .serve),
    .transit (.arrive 2 1 0), .party 1 (.received ⟨2, [7], 2, 0⟩), .party 1 (.invoked () [7]),
    .party 2 .timedOut, .party 2 (.finished (.ask [7]) (.reply [])), .party 1 (.sent [7] 2),
    .transit (.arrive 1 2 0), .party 2 (.start (.ask [9])), .party 2 (.sent [9] 1),
    .party 2 (.received ⟨1, [7], 2, 0⟩), .party 2 (.finished (.ask [9]) (.reply [7]))]

def lateLog : List (Return ℕ Work Outcome) :=
  [⟨.ask [7], .reply [], 2, 0⟩, ⟨.ask [9], .reply [7], 2, 0⟩]

theorem lateReply_run : ∃ c, echoNetwork.Reachable c ∧ c.net.returned 2 = lateLog :=
  ⟨_, ⟨lateReply, rfl⟩, rfl⟩

theorem late_reply_follows_first_request : ∃ j, echo.FollowsRequests lateLog j := by
  obtain ⟨c, hc, hlog⟩ := lateReply_run
  exact hlog ▸ replies_follow_requests (S := echo) (P := patientNetwork) rfl hc rfl

/-- A call may return the answer to an earlier request. -/
theorem late_reply_is_returned : ¬ ∀ (S : Service ℕ) (D : SocketDefs) (P : Policy ℕ) (client : ℕ)
    (c : Config ℕ Unit Message Work Outcome), P.reorder = false →
    (∀ i, S.clients i = true ↔ i = client) → (network (S.deployment D) P).Reachable c →
    ∀ ret ∈ c.net.returned client, ∀ m r, ret.job = .ask m → ret.result = .reply r →
      r = [] ∨ r = S.callback m := by
  intro h
  obtain ⟨c, hc, hlog⟩ := lateReply_run
  have hsingle : ∀ i, echo.clients i = true ↔ i = 2 := fun i => decide_eq_true_iff
  have hmem : (⟨.ask [9], .reply [7], 2, 0⟩ : Return ℕ Work Outcome) ∈ c.net.returned 2 := by
    rw [hlog]
    exact List.mem_cons_of_mem _ List.mem_cons_self
  have hreply := h echo .failure patientNetwork 2 c rfl hsingle hc _ hmem [9] [7] rfl rfl
  revert hreply
  decide

end Service

end Marko
