import Marko.DatagramTraffic

/-! Where the programs of a deployment send to, and what becomes of a party that none of them
sends to. -/
namespace Datagram

open Interaction

variable {A K V J R α β : Type}

namespace Prog

/-- Whatever the program is answered, it sends to addresses in `Q` only. -/
def SendsTo (Q : A → Prop) : Prog A K V α → Prop
  | .done _ => True
  | .call (.sendto _ dst _) k => Q dst ∧ ∀ ans, SendsTo Q (k ans)
  | .call (.recvfrom _ _) k => ∀ ans, SendsTo Q (k ans)
  | .call (.bind _) k => ∀ ans, SendsTo Q (k ans)
  | .call .getpeername k => ∀ ans, SendsTo Q (k ans)
  | .call (.setsockopt ..) k => ∀ ans, SendsTo Q (k ans)
  | .call (.callback _ _) k => ∀ v, SendsTo Q (k v)

/-- What the program may return when no datagram ever comes; a receive then only ends by timeout,
where there is one. -/
def Deaf (timeouts : Bool) : Prog A K V α → α → Prop
  | .done b, a => b = a
  | .call (.recvfrom _ _) k, a => timeouts = true ∧ Deaf timeouts (k (.failed .again)) a
  | .call (.sendto ..) k, a => ∃ ans, Deaf timeouts (k ans) a
  | .call (.bind _) k, a => ∃ ans, Deaf timeouts (k ans) a
  | .call .getpeername k, a => ∃ ans, Deaf timeouts (k ans) a
  | .call (.setsockopt ..) k, a => ∃ ans, Deaf timeouts (k ans) a
  | .call (.callback _ _) k, a => ∃ v, Deaf timeouts (k v) a

theorem SendsTo.bind {Q : A → Prop} {p : Prog A K V α} {f : α → Prog A K V β}
    (hp : p.SendsTo Q) (hf : ∀ a, Prog.SendsTo Q (f a)) : Prog.SendsTo Q (p >>= f) := by
  induction p with
  | done a => exact hf a
  | call c k ih =>
    cases c with
    | sendto msg dst flags => exact ⟨hp.1, fun ans => ih ans (hp.2 ans)⟩
    | _ => exact fun ans => ih ans (hp ans)

theorem SendsTo.mono {Q Q' : A → Prop} {p : Prog A K V α} (hp : p.SendsTo Q)
    (hQ : ∀ dst, Q dst → Q' dst) : p.SendsTo Q' := by
  induction p with
  | done a => trivial
  | call c k ih =>
    cases c with
    | sendto msg dst flags => exact ⟨hQ dst hp.1, fun ans => ih ans (hp.2 ans)⟩
    | _ => exact fun ans => ih ans (hp ans)

theorem SendsTo.map {Q : A → Prop} {p : Prog A K V α} (hp : p.SendsTo Q) (f : α → β) :
    Prog.SendsTo Q (f <$> p) :=
  hp.bind fun _ => trivial

end Prog

variable [DecidableEq A] [DecidableEq K] [DecidableEq J] [DecidableEq R]
  {D : Deployment A K V J R} {P : Policy A} {Q : A → Prop} {i : A} {job : J} {p : Prog A K V R}
  {e : Event A K J R} {x : Activity A K V J R} {c : Config A K V J R}

theorem Prog.SendsTo.next (hp : p.SendsTo Q)
    (h : (Activity.busy job p).next D i e = some x) :
    (∀ m ∈ posts [e], Q m.2) ∧ ∀ j q, x = .busy j q → Prog.SendsTo Q q := by
  cases p with
  | done r =>
    obtain ⟨rfl, rfl⟩ := Activity.next_done h
    simp [posts]
  | call c k =>
    -- each event answers one kind of call
    cases e <;> cases c <;>
      simp only [Activity.next, Option.ite_none_right_eq_some, Option.some.injEq,
        reduceCtorEq] at h
    case sent.sendto =>
      obtain ⟨⟨rfl, rfl, -⟩, rfl⟩ := h
      simpa [posts] using ⟨hp.1, hp.2 _⟩
    case sendFails.sendto =>
      obtain ⟨-, rfl⟩ := h
      simpa [posts] using hp.2 _
    all_goals
      obtain ⟨-, rfl⟩ := h
      simpa [posts] using hp _

/-- One step of a program that no datagram reaches: it ends, or what is left of it returns no
more than it does. -/
theorem Prog.Deaf.next (h : (Activity.busy job p).next D i e = some x)
    (hpossible : e.possible P i = true) (htaken : taken [e] = []) :
    (∃ a, e = .finished job a ∧ x = .idle ∧ p.Deaf (P.timeouts i) a) ∨
      ∃ q, x = .busy job q ∧ (∀ j a, e ≠ .finished j a) ∧
        ∀ a, Prog.Deaf (P.timeouts i) q a → p.Deaf (P.timeouts i) a := by
  cases p with
  | done a =>
    obtain ⟨rfl, rfl⟩ := Activity.next_done h
    exact .inl ⟨a, rfl, rfl, rfl⟩
  | call c k =>
    cases e <;> cases c <;>
      simp only [Activity.next, Option.ite_none_right_eq_some, Option.some.injEq,
        reduceCtorEq] at h
    case received.recvfrom => cases htaken
    all_goals
      obtain ⟨-, rfl⟩ := h
      refine .inr ⟨_, rfl, fun _ _ h => (by cases h), fun a ha => ?_⟩
    case timedOut.recvfrom => exact ⟨hpossible, ha⟩
    all_goals exact ⟨_, ha⟩

/-- What a party sends, when its programs send to `Q` only. -/
theorem posts_within (hsends : ∀ job p, D.body i job = some p → Prog.SendsTo Q p)
    {ls : List (Label A K J R)} (hrun : (network D P).run ls (network D P).init = some c) :
    ∀ m ∈ posts (events i ls), Q m.2 := by
  refine (alone_invariant (I := fun es x => (∀ m ∈ posts es, Q m.2) ∧
    ∀ job p, x = .busy job p → Prog.SendsTo Q p) ⟨?_, ?_⟩ ?_ hrun).1
  · exact fun _ h => absurd h List.not_mem_nil
  · rintro job p ⟨⟩
  rintro es e x x' ⟨hes, hx⟩ - hnext
  rw [posts_append]
  cases x with
  | idle =>
    obtain ⟨job, p, rfl, hbody, rfl⟩ := Activity.next_idle hnext
    refine ⟨by simpa [posts] using hes, ?_⟩
    rintro _ _ ⟨⟩
    exact hsends job p hbody
  | busy job p =>
    obtain ⟨he, hx'⟩ := (hx job p rfl).next hnext
    exact ⟨List.forall_mem_append.mpr ⟨hes, he⟩, hx'⟩

/-- On any network, nothing is ever under way to a party that no program sends to, and it takes
nothing. -/
theorem unreached (hsends : ∀ j job p, D.body j job = some p → Prog.SendsTo Q p) (hi : ¬ Q i)
    {ls : List (Label A K J R)} (hrun : (network D P).run ls (network D P).init = some c) :
    taken (events i ls) = [] ∧ c.net.queue i = [] ∧ ∀ src, c.net.flight (src, i) = [] := by
  have htraffic (src : A) : c.net.traffic src i (events i ls) = [] := by
    have hnone : payloadsTo i (posts (events src ls)) = [] := by
      rw [payloadsTo, List.map_eq_nil_iff, List.filter_eq_nil_iff]
      intro m hm hmi
      exact hi (of_decide_eq_true hmi ▸ posts_within (hsends src) hrun m hm)
    exact (hnone ▸ traffic_kept hrun src i).eq_nil
  simp only [Net.traffic, List.append_eq_nil_iff] at htraffic
  -- a datagram would be among those from its own source
  have hfrom {ps : List (Packet A)} (hps : ∀ src, payloadsFrom src ps = []) : ps = [] := by
    apply List.eq_nil_iff_forall_not_mem.mpr
    intro q hq
    have hmem := mem_payloadsFrom hq
    rw [hps q.src] at hmem
    exact List.not_mem_nil hmem
  exact ⟨hfrom fun src => (htraffic src).1.1, hfrom fun src => (htraffic src).1.2,
    fun src => List.map_eq_nil_iff.mp (htraffic src).2⟩

/-- A party that takes nothing only returns what its programs return to the deaf. -/
theorem deaf_returns {ls : List (Label A K J R)}
    (hrun : (network D P).run ls (network D P).init = some c)
    (htaken : taken (events i ls) = []) : ∀ ret ∈ c.net.returned i,
      ∃ p, D.body i ret.job = some p ∧ Prog.Deaf (P.timeouts i) p ret.result := by
  -- the invariant: nothing was taken so far, so what is left of a call can only end as the whole
  -- program ends when every receive times out
  have hall := (network D P).run_history (I := fun ls c => taken (events i ls) = [] →
    (∀ job q, c.act i = .busy job q → ∃ p, D.body i job = some p ∧
      ∀ a, Prog.Deaf (P.timeouts i) q a → Prog.Deaf (P.timeouts i) p a) ∧
    ∀ ret ∈ c.net.returned i,
      ∃ p, D.body i ret.job = some p ∧ Prog.Deaf (P.timeouts i) p ret.result) ?_ ?_ hrun
  · exact (hall htaken).2
  · refine fun _ => ⟨?_, fun _ h => absurd h List.not_mem_nil⟩
    rintro job q ⟨⟩
  intro ls l c c' ih hstep
  rcases step_cases hstep with ⟨j, e, x, N, rfl, hx, hN, rfl⟩ | ⟨t, N, rfl, hN, rfl⟩
  · rw [events_party]
    by_cases hj : j = i
    · subst hj
      rw [if_pos rfl, taken_append]
      intro htaken
      obtain ⟨hbefore, hnow⟩ := List.append_eq_nil_iff.mp htaken
      obtain ⟨hact, hreturned⟩ := ih hbefore
      have hlog := Net.effect_returned (i := j) hN
      simp only [Function.update_self]
      generalize c.act j = y at hx hact
      cases y with
      | idle =>
        obtain ⟨job, p, rfl, hbody, rfl⟩ := Activity.next_idle hx
        cases hN
        refine ⟨?_, hreturned⟩
        rintro _ _ ⟨⟩
        exact ⟨p, hbody, fun _ => id⟩
      | busy job q =>
        obtain ⟨p, hbody, hdeaf⟩ := hact job q rfl
        rcases Prog.Deaf.next hx (Net.possible_of_effect hN) hnow with
          ⟨a, rfl, rfl, ha⟩ | ⟨q', rfl, hfinished, hq'⟩
        · refine ⟨fun _ _ h => (by cases h), ?_⟩
          cases hN
          simp only [Net.conclude_returned, Function.update_self]
          exact List.forall_mem_append.mpr
            ⟨hreturned, List.forall_mem_singleton.mpr ⟨p, hbody, hdeaf a ha⟩⟩
        · constructor
          · rintro _ _ ⟨⟩
            exact ⟨p, hbody, fun a ha => hdeaf a (hq' a ha)⟩
          · rcases hlog with hsame | ⟨_, _, -, rfl, -⟩
            · rwa [hsame]
            · exact absurd rfl (hfinished _ _)
    · simp only [if_neg hj, List.append_nil, Function.update_of_ne (Ne.symm hj)]
      rcases Net.effect_returned (i := i) hN with hsame | ⟨_, _, hji, -⟩
      · rwa [hsame]
      · exact absurd hji hj
  · rw [events_transit]
    rwa [(Net.transit_logs hN).2.2]

end Datagram
