import Marko.CallScatter
import Marko.RequestReplyShapes

/-! What holds of a service on any network, whatever it loses and reorders and whoever times out:
the callback is invoked at most once for each call, and each call that returns a reply returns the
answer to a call of its own. -/
namespace Marko

open Datagram CallPipeline

namespace Service

variable {A : Type} [DecidableEq A] {S : Service A} {P : Policy A} {N N' : NetState A}
  {φ φ' : A → Phase A} {i : A}

/-- A step is one of a network that keeps order, or a datagram arrives. -/
theorem step_cases_arrival (h : S.Step P N φ N' φ') :
    S.Step { P with reorder := false } N φ N' φ' ∨
      φ' = φ ∧ ∃ src dst n p, (N.flight (src, dst))[n]? = some p ∧ N' = N.arrive src dst n p := by
  cases h with
  | ask j m hclient hphase hsize => exact .inl (.ask j m hclient hphase hsize)
  | request j m hclient hphase => exact .inl (.request j m hclient hphase)
  | requestFails j m hclient hphase => exact .inl (.requestFails j m hclient hphase)
  | reply j m p rest hclient hphase hqueue => exact .inl (.reply j m p rest hclient hphase hqueue)
  | giveUp j m hclient hphase htime => exact .inl (.giveUp j m hclient hphase htime)
  | finish j m r hclient hphase => exact .inl (.finish j m r hclient hphase)
  | serve hphase => exact .inl (.serve hphase)
  | accept p rest hphase hqueue => exact .inl (.accept p rest hphase hqueue)
  | serveTimesOut hphase => exact .inl (.serveTimesOut hphase)
  | compute src m hphase => exact .inl (.compute src m hphase)
  | answer src r hphase => exact .inl (.answer src r hphase)
  | answerFails src r hphase => exact .inl (.answerFails src r hphase)
  | served ok hphase => exact .inl (.served ok hphase)
  | lose src dst n => exact .inl (.lose src dst n)
  | requestArrives j n p hclient horder hp => exact .inr ⟨rfl, j, S.server, n, p, hp, rfl⟩
  | replyArrives j n p hclient horder hp => exact .inr ⟨rfl, S.server, j, n, p, hp, rfl⟩

section Arrivals

variable {src dst : A} {n : ℕ} {p : Packet A}

omit [DecidableEq A] in
/-- A datagram that arrives is the last one queued, and the others stay as they are. -/
theorem perm_arrive {α : Type} (g : Packet A → α) (queue : List (Packet A))
    {flight : List (Packet A)} (hp : flight[n]? = some p) :
    ((queue ++ [p]).map g ++ (flight.eraseIdx n).map g).Perm (queue.map g ++ flight.map g) := by
  obtain ⟨hlt, rfl⟩ := List.getElem?_eq_some_iff.mp hp
  have hperm := (List.getElem_cons_eraseIdx_perm hlt).map g
  rw [List.map_append, List.append_assoc]
  exact hperm.append_left (queue.map g)

/-- What party `d` has or will get from `i`, before and after an arrival. -/
theorem arrive_perm {α : Type} (g : Packet A → α) (hp : (N.flight (src, dst))[n]? = some p)
    (hsrc : p.src = src) (i d : A) :
    ((((N.arrive src dst n p).queue d).filter fun q => q.src = i).map g ++
        ((N.arrive src dst n p).flight (i, d)).map g).Perm
      (((N.queue d).filter fun q => q.src = i).map g ++ (N.flight (i, d)).map g) := by
  by_cases hd : d = dst
  · subst hd
    by_cases hi : i = src
    · subst hi
      simpa [hsrc] using perm_arrive g ((N.queue d).filter fun q => q.src = i) hp
    · have hpi : p.src ≠ i := hsrc ▸ Ne.symm hi
      simp [hi, hpi]
  · simp [hd]

theorem calls_arrive (hadd : S.Addressed N φ) (hi : S.clients i = true)
    (hp : (N.flight (src, dst))[n]? = some p) :
    Scatter S.answerTo (S.calls i N φ) (S.calls i (N.arrive src dst n p) φ) := by
  obtain ⟨hsrc, -⟩ := hadd.flight src dst p (List.mem_of_getElem? hp)
  -- all that a client has queued is from the server
  have hown {N : NetState A} (hadd : S.Addressed N φ) :
      (N.queue i).filter (fun q => q.src = S.server) = N.queue i :=
    List.filter_eq_self.mpr fun q hq => decide_eq_true ((hadd.queue i q hq).to_client hi).1
  have hrequests := arrive_perm requestToken hp hsrc i S.server
  have hreplies := arrive_perm replyToken hp hsrc S.server i
  rw [hown hadd, hown (hadd.arrive hp)] at hreplies
  apply Scatter.of_lose
  · rfl
  · simp only [calls, List.append_assoc, Net.arrive_cause]
    rw [← List.append_assoc (((N.arrive src dst n p).queue S.server).filter _ |>.map _),
      ← List.append_assoc ((N.queue S.server).filter _ |>.map _)]
    exact ((hrequests.append_right _).append_left _).subperm
  · rfl
  · exact (hreplies.append_right _).subperm
  · rfl

end Arrivals

theorem calls_scatter (hstep : S.Step P N φ N' φ') (hadd : S.Addressed N φ)
    (hi : S.clients i = true) : Scatter S.answerTo (S.calls i N φ) (S.calls i N' φ') := by
  rcases step_cases_arrival hstep with hordered | ⟨rfl, src, dst, n, p, hp, rfl⟩
  · exact (calls_step hordered hadd hi fun h => absurd h Bool.false_ne_true).scatter
  · exact calls_arrive hadd hi hp

variable (S) in
/-- The invariant on any network: `Paired` without the order. -/
structure Traced (N : NetState A) (φ : A → Phase A) : Prop where
  addressed : S.Addressed N φ
  matched : ∀ i, S.clients i = true → Matched S.answerTo (S.calls i N φ)
  logged : ∀ i, S.clients i = true →
    N.started i = (N.returned i).map Return.job ++ current (φ i)
  replied : ∀ i, S.clients i = true → ∀ k (ret : Return A Work Outcome),
    (N.returned i)[k]? = some ret →
      ∃ m r, ret.job = .ask m ∧ ret.result = .reply r ∧ (r ≠ [] → ret.cause.2 ≤ k)
  invoked : ∀ v ∈ N.invoked S.server, S.clients v.cause.1 = true

theorem traced_empty : S.Traced .empty fun _ => .idle where
  addressed := addressed_empty
  matched _ _ := matched_empty
  logged _ _ := rfl
  replied _ _ k ret h := by simp [Net.empty] at h
  invoked _ h := absurd h List.not_mem_nil

/-- A reply that returns now belongs to a call that was made before. -/
theorem Traced.cause_le (h : S.Traced N φ) (hi : S.clients i = true) {m r : Message}
    (hphase : φ i = .got m r) (hr : r ≠ []) : (N.cause i).2 ≤ (N.returned i).length := by
  have hheld : ((N.cause i).2, r) ∈ (S.calls i N φ).answered := by
    simp [calls, hphase, held, hr]
  obtain ⟨w, hw, -⟩ := (h.matched i hi).answered _ hheld
  have hlt : (N.cause i).2 < (N.started i).length := (h.matched i hi).lt_of_mem_served hw
  rw [h.logged i hi, hphase, List.length_append, List.length_map] at hlt
  exact Nat.le_of_lt_succ hlt

theorem Traced.step (h : S.Traced N φ) (hstep : S.Step P N φ N' φ') : S.Traced N' φ' where
  addressed := h.addressed.step hstep
  matched i hi := (h.matched i hi).step (calls_scatter hstep h.addressed hi)
  logged i hi := logged_step hstep hi (h.logged i hi)
  replied i hi k ret hk := by
    rcases returned_step hstep hi with hsame | ⟨m, r, hphase, hnew⟩
    · exact h.replied i hi k ret (hsame ▸ hk)
    · rw [hnew] at hk
      rcases lt_or_ge k (N.returned i).length with hlt | hge
      · rw [List.getElem?_append_left hlt] at hk
        exact h.replied i hi k ret hk
      · -- the new entry: its cause is a call that was made before
        have hk' := lt_length_of_getElem?_eq_some hk
        rw [List.length_append, List.length_singleton] at hk'
        obtain rfl : k = (N.returned i).length := by omega
        rw [List.getElem?_concat_length] at hk
        obtain rfl := Option.some.inj hk
        exact ⟨m, r, rfl, rfl, h.cause_le hi hphase⟩
  invoked := invoked_step hstep h.addressed h.invoked

theorem Traced.served {ok ok' : Bool} (h : S.Traced N (Function.update φ S.server (.served ok))) :
    S.Traced N (Function.update φ S.server (.served ok')) := by
  have hothers {i : A} (hi : S.clients i = true) (x : Phase A) :
      Function.update φ S.server x i = φ i := Function.update_of_ne (ne_server_of_client hi) _ _
  refine ⟨h.addressed.served, ?_, ?_, h.replied, h.invoked⟩
  · intro i hi
    have hcalls := h.matched i hi
    simp only [calls, Function.update_self, hothers hi] at hcalls ⊢
    exact hcalls
  · intro i hi
    have hlog := h.logged i hi
    rwa [hothers hi] at hlog ⊢

/-! What the invariant says of the logs. -/

/-- A reply that a call returned is the answer to what the callback was invoked on for a call of
the same client. -/
theorem Traced.reply_eq (h : S.Traced N φ) (hi : S.clients i = true)
    {ret : Return A Work Outcome} {r : Message} (hret : ret ∈ N.returned i)
    (hr : ret.result = .reply r) (hne : r ≠ []) :
    ∃ v ∈ N.invoked S.server, v.cause = (i, ret.cause.2) ∧ r = S.callback v.msg := by
  have hmem : (ret.cause.2, r) ∈ (S.calls i N φ).answered := by
    apply List.mem_append_left
    exact List.mem_filterMap.mpr ⟨ret, hret, by simp [answerOf, hr, hne]⟩
  obtain ⟨w, hw, rfl⟩ := (h.matched i hi).answered _ hmem
  simp only [calls, List.mem_map, List.mem_filter, decide_eq_true_eq, Prod.mk.injEq] at hw
  obtain ⟨v, ⟨hv, hclient⟩, hcause, rfl⟩ := hw
  exact ⟨v, hv, Prod.ext hclient hcause, rfl⟩

theorem Traced.cause_ne (h : S.Traced N φ) (hi : S.clients i = true) {k k' : ℕ}
    {ret ret' : Return A Work Outcome} (hk : (N.returned i)[k]? = some ret)
    (hk' : (N.returned i)[k']? = some ret') (hlt : k < k') {a b : ℕ × Message}
    (ha : answerOf ret = some a) (hb : answerOf ret' = some b) : a.1 ≠ b.1 := by
  have hnodup : ((N.returned i).filterMap answerOf).Pairwise fun a b => a.1 ≠ b.1 := by
    have hall := (h.matched i hi).answerable
    simp only [Calls.answerable, calls, List.map_append, List.append_assoc] at hall
    exact List.pairwise_map.mp (List.nodup_append.mp hall).1
  rw [List.pairwise_filterMap, List.pairwise_iff_getElem] at hnodup
  obtain ⟨hlen, rfl⟩ := List.getElem?_eq_some_iff.mp hk
  obtain ⟨hlen', rfl⟩ := List.getElem?_eq_some_iff.mp hk'
  exact hnodup k k' hlen hlen' hlt a ha b hb

variable (S) in
/-- The callback was invoked at most once for each call, on the message of the call. Each reply
that a client's calls returned is the answer to an invocation for the same client, for a call no
later than the one that returned it, and no two calls returned the answer to the same one. -/
structure AtMostOnce (N : NetState A) : Prop where
  invoked_once : ((N.invoked S.server).map Invocation.cause).Nodup
  invoked_for : ∀ v ∈ N.invoked S.server,
    S.clients v.cause.1 = true ∧ (N.started v.cause.1)[v.cause.2]? = some (.ask v.msg)
  returned : ∀ i, S.clients i = true → ∀ ret ∈ N.returned i,
    ∃ m r, ret.job = .ask m ∧ ret.result = .reply r
  replied : ∀ i, S.clients i = true → ∃ j : ℕ → ℕ,
    (∀ k ret, (N.returned i)[k]? = some ret → ret.result ≠ .reply [] → j k ≤ k ∧
      ∃ v ∈ N.invoked S.server, v.cause = (i, j k) ∧ ret.result = .reply (S.callback v.msg)) ∧
    ∀ k k' ret ret', (N.returned i)[k]? = some ret → (N.returned i)[k']? = some ret' →
      ret.result ≠ .reply [] → ret'.result ≠ .reply [] → j k = j k' → k = k'

theorem nodup_by_party {K : Type} {invoked : List (Invocation K A)}
    (h : ∀ i, ((invoked.filter fun v => v.cause.1 = i).map fun v => v.cause.2).Nodup) :
    (invoked.map Invocation.cause).Nodup := by
  rw [List.Nodup, List.pairwise_map, List.pairwise_iff_forall_sublist]
  intro v w hsub hcause
  -- two invocations with one cause would be a repetition among those of one party
  have htwo := (hsub.filter fun u => u.cause.1 = v.cause.1).map fun u => u.cause.2
  simp only [hcause, List.filter_cons, decide_true, if_true, List.filter_nil, List.map_cons,
    List.map_nil] at htwo
  have hnodup := (h w.cause.1).sublist htwo
  simp at hnodup

theorem Traced.atMostOnce (h : S.Traced N φ) : S.AtMostOnce N where
  invoked_once := by
    apply nodup_by_party
    intro i
    by_cases hi : S.clients i = true
    · have hserved := (h.matched i hi).servable
      simp only [Calls.servable, calls, List.map_map] at hserved
      exact (List.nodup_append.mp hserved).1
    · -- no invocation has a cause that is not a client
      have hnone : (N.invoked S.server).filter (fun v => v.cause.1 = i) = [] := by
        rw [List.filter_eq_nil_iff]
        intro v hv hvi
        exact hi (of_decide_eq_true hvi ▸ h.invoked v hv)
      rw [hnone]
      exact List.nodup_nil
  invoked_for v hv := by
    have hclient := h.invoked v hv
    refine ⟨hclient, ?_⟩
    have hmem : (v.cause.2, Work.ask v.msg) ∈ (S.calls v.cause.1 N φ).served := by
      simp only [calls, List.mem_map, List.mem_filter]
      exact ⟨v, ⟨hv, decide_eq_true rfl⟩, rfl⟩
    exact (h.matched _ hclient).served _ hmem
  returned i hi ret hret := by
    obtain ⟨k, hk⟩ := List.mem_iff_getElem?.mp hret
    obtain ⟨m, r, hjob, hr, -⟩ := h.replied i hi k ret hk
    exact ⟨m, r, hjob, hr⟩
  replied i hi := by
    refine ⟨answeredCall (N.returned i), ?_, ?_⟩
    · intro k ret hk hret
      obtain ⟨m, r, -, hr, hle⟩ := h.replied i hi k ret hk
      have hne : r ≠ [] := fun hnil => hret (hnil ▸ hr)
      obtain ⟨v, hv, hcause, rfl⟩ := h.reply_eq hi (List.mem_of_getElem? hk) hr hne
      rw [answeredCall_eq hk]
      exact ⟨hle hne, v, hv, hcause, hr⟩
    · intro k k' ret ret' hk hk' hret hret' hj
      have hanswer {k : ℕ} {ret : Return A Work Outcome} (hk : (N.returned i)[k]? = some ret)
          (hret : ret.result ≠ .reply []) : ∃ r, answerOf ret = some (ret.cause.2, r) := by
        obtain ⟨m, r, -, hr, -⟩ := h.replied i hi k ret hk
        have hne : r ≠ [] := fun hnil => hret (hnil ▸ hr)
        exact ⟨r, by simp [answerOf, hr, hne]⟩
      obtain ⟨r, hr⟩ := hanswer hk hret
      obtain ⟨r', hr'⟩ := hanswer hk' hret'
      rw [answeredCall_eq hk, answeredCall_eq hk'] at hj
      -- two returns that name one call: the later of them would be answered by a call before it
      rcases Nat.lt_trichotomy k k' with hlt | heq | hgt
      · exact absurd hj (h.cause_ne hi hk hk' hlt hr hr')
      · exact heq
      · exact absurd hj.symm (h.cause_ne hi hk' hk hgt hr' hr)

/-- A client has no more datagrams anywhere than calls that gave up, and one. -/
theorem Traced.length_backlog_le (h : S.Traced N φ) (hi : S.clients i = true) :
    ((N.queue S.server).filter fun p => p.src = i).length + (N.flight (i, S.server)).length +
      (N.flight (S.server, i)).length + (N.queue i).length ≤ timeouts (N.returned i) + 1 := by
  have hopen := (h.matched i hi).length_open_le
  have hanswers := length_answers (N.returned i) fun ret hret => by
    obtain ⟨-, r, -, hr⟩ := h.atMostOnce.returned i hi ret hret
    exact ⟨r, hr⟩
  have hstarted : (S.calls i N φ).asked.length =
      (N.returned i).length + (current (φ i)).length := by
    simp only [calls, h.logged i hi, List.length_append, List.length_map]
  have hanswered : (S.calls i N φ).answered.length =
      ((N.returned i).filterMap answerOf).length + (held (N.cause i) (φ i)).length :=
    List.length_append
  -- the job in progress is the only call that is neither returned nor held
  have hcurrent : (current (φ i)).length ≤ (held (N.cause i) (φ i)).length + 1 := by
    cases φ i <;> simp [current]
  have hreplies : (N.queue i).length + (N.flight (S.server, i)).length ≤
      (S.calls i N φ).replies.length := by
    simp [calls]
  have hrequests : ((N.queue S.server).filter fun p => p.src = i).length +
      (N.flight (i, S.server)).length ≤ (S.calls i N φ).requests.length := by
    simp only [calls, List.length_append, List.length_map]
    omega
  omega

/-- Whatever the programs of a service and the network, every run is traced. -/
theorem Performs.traced {dest : A → A} {D : Deployment A Unit Message Work Outcome}
    (hperf : S.Performs dest D) {c : Config A Unit Message Work Outcome}
    (hc : (network D P).Reachable c) : ∃ φ, S.Traced c.net φ := by
  obtain ⟨ls, hrun⟩ := hc
  obtain ⟨φ, h, -⟩ := hperf.counted (P := P) (I := fun _ => S.Traced) traced_empty
    (fun _ _ _ h => h.addressed) (fun _ _ _ _ _ h hcourse => hcourse.keeps (P := P)
      (T := { P with timeouts := fun _ => true }) (fun _ _ _ _ h hstep => h.step hstep)
      (fun _ _ _ _ => Traced.served) (fun hreorder => hreorder) (fun _ _ => rfl) h) hrun
  exact ⟨φ, h⟩

end Service

end Marko
