import Marko.DatagramTraffic
import Marko.RequestReplyClients

/-! Services whose parties run any programs of a given shape. The steps of such a service are
those of the one of `RequestReplySystem`, but for a client that may give up at once when its send
fails and a server that may return anything. -/
namespace Marko

open Datagram Interaction

namespace Service

variable {A : Type} (S : Service A)

/-! The shapes of the programs, from their next call on. -/

/-- Receive once, with room for a reply, and return it whole. -/
def Waits (p : Prog A Unit Message Outcome) : Prop :=
  ∃ size k, p = .call (.recvfrom size 0) k ∧ S.replySize ≤ size ∧
    (∀ r src, r.length = S.replySize → k (.received r src) = .done (.reply r)) ∧
    k (.failed .again) = .done (.reply [])

/-- Send the request; a program may end without a reply when that fails. -/
def Asks (m : Message) (p : Prog A Unit Message Outcome) : Prop :=
  ∃ k, p = .call (.sendto m S.server 0) k ∧ S.Waits (k (.sent m.length)) ∧
    ∀ e, S.Waits (k (.failed e)) ∨ k (.failed e) = .done (.reply [])

def Answers (r : Message) (dst : A) (p : Prog A Unit Message Outcome) : Prop :=
  ∃ k, p = .call (.sendto r dst 0) k ∧ ∀ ans, ∃ ok, k ans = .done (.served ok)

def Computes (m : Message) (dst : A) (p : Prog A Unit Message Outcome) : Prop :=
  ∃ k, p = .call (.callback () m) k ∧
    ∀ r, r.length = S.replySize → Answers r dst (k r)

/-- Receive once, with room for a request, and answer it to the `dest` of its source. -/
def Serves (dest : A → A) (p : Prog A Unit Message Outcome) : Prop :=
  ∃ size k, p = .call (.recvfrom size 0) k ∧ S.msgSize ≤ size ∧
    (∀ m src, m.length = S.msgSize → S.Computes m (dest src) (k (.received m src))) ∧
    ∃ ok, k (.failed .again) = .done (.served ok)

/-- How far a party is, whatever its program. -/
inductive At (dest : A → A) : Phase A → Activity A Unit Message Work Outcome → Prop where
  | idle : At dest .idle .idle
  | ready {m : Message} {p : Prog A Unit Message Outcome} (hp : S.Asks m p) :
      At dest (.ready m) (.busy (.ask m) p)
  | waiting {m : Message} {p : Prog A Unit Message Outcome} (hp : S.Waits p) :
      At dest (.waiting m) (.busy (.ask m) p)
  | got {m r : Message} : At dest (.got m r) (.busy (.ask m) (.done (.reply r)))
  | listening {p : Prog A Unit Message Outcome} (hp : S.Serves dest p) :
      At dest .listening (.busy .serve p)
  | asking {src : A} {m : Message} {p : Prog A Unit Message Outcome}
      (hp : S.Computes m (dest src) p) : At dest (.asking src m) (.busy .serve p)
  | answering {src : A} {r : Message} {p : Prog A Unit Message Outcome}
      (hp : Answers r (dest src) p) : At dest (.answering src r) (.busy .serve p)
  | served {ok : Bool} : At dest (.served ok) (.busy .serve (.done (.served ok)))

/-- The parties of `D` run programs of these shapes, and requests are answered to where they come
from. -/
structure Performs (dest : A → A) (D : Deployment A Unit Message Work Outcome) : Prop where
  ask : ∀ i m p, D.body i (.ask m) = some p →
    S.clients i = true ∧ m.length = S.msgSize ∧ S.Asks m p
  serve : ∀ i p, D.body i .serve = some p → i = S.server ∧ S.Serves dest p
  callback : ∀ m, D.callback S.server () m = S.callback m
  dest : ∀ i, S.clients i = true → dest i = i
  open_ : ∃ p, D.body S.server .serve = some p

variable [DecidableEq A]

/-- The steps of a service that loses nothing and where nobody times out. -/
inductive Sure (P : Policy A) (N : NetState A) (φ : A → Phase A) :
    NetState A → (A → Phase A) → Prop where
  | ask (i : A) (m : Message) (hclient : S.clients i = true) (hphase : φ i = .idle)
      (hsize : m.length = S.msgSize) :
      Sure P N φ (N.start i (.ask m)) (Function.update φ i (.ready m))
  | request (i : A) (m : Message) (hclient : S.clients i = true) (hphase : φ i = .ready m) :
      Sure P N φ (N.post i m S.server) (Function.update φ i (.waiting m))
  | reply (i : A) (m : Message) (p : Packet A) (rest : List (Packet A))
      (hclient : S.clients i = true) (hphase : φ i = .waiting m) (hqueue : N.queue i = p :: rest) :
      Sure P N φ (N.take i p) (Function.update φ i (.got m p.payload))
  | finish (i : A) (m r : Message) (hclient : S.clients i = true) (hphase : φ i = .got m r) :
      Sure P N φ (N.conclude i (.ask m) (.reply r)) (Function.update φ i .idle)
  | serve (hphase : φ S.server = .idle) :
      Sure P N φ (N.start S.server .serve) (Function.update φ S.server .listening)
  | accept (p : Packet A) (rest : List (Packet A)) (hphase : φ S.server = .listening)
      (hqueue : N.queue S.server = p :: rest) :
      Sure P N φ (N.take S.server p) (Function.update φ S.server (.asking p.src p.payload))
  | compute (src : A) (m : Message) (hphase : φ S.server = .asking src m) :
      Sure P N φ (N.note S.server () m)
        (Function.update φ S.server (.answering src (S.callback m)))
  | answer (src : A) (r : Message) (ok : Bool) (hphase : φ S.server = .answering src r) :
      Sure P N φ (N.post S.server r src) (Function.update φ S.server (.served ok))
  | served (ok : Bool) (hphase : φ S.server = .served ok) :
      Sure P N φ (N.conclude S.server .serve (.served ok)) (Function.update φ S.server .idle)
  | requestArrives (i : A) (n : ℕ) (p : Packet A) (hclient : S.clients i = true)
      (horder : P.reorder = true ∨ n = 0) (hp : (N.flight (i, S.server))[n]? = some p) :
      Sure P N φ (N.arrive i S.server n p) φ
  | replyArrives (i : A) (n : ℕ) (p : Packet A) (hclient : S.clients i = true)
      (horder : P.reorder = true ∨ n = 0) (hp : (N.flight (S.server, i))[n]? = some p) :
      Sure P N φ (N.arrive S.server i n p) φ

/-- All the steps of a service whose parties run programs of these shapes. -/
inductive Course (P : Policy A) (N : NetState A) (φ : A → Phase A) :
    NetState A → (A → Phase A) → Prop where
  | sure {N' : NetState A} {φ' : A → Phase A} (h : S.Sure P N φ N' φ') : Course P N φ N' φ'
  | requestFails (i : A) (m : Message) (hlossy : P.lossy = true) (hclient : S.clients i = true)
      (hphase : φ i = .ready m) : Course P N φ N (Function.update φ i (.waiting m))
  -- one step here, which are two of `Service.Step`
  | requestEnds (i : A) (m : Message) (hlossy : P.lossy = true) (hclient : S.clients i = true)
      (hphase : φ i = .ready m) : Course P N φ N (Function.update φ i (.got m []))
  | giveUp (i : A) (m : Message) (htimeout : P.timeouts i = true) (hclient : S.clients i = true)
      (hphase : φ i = .waiting m) : Course P N φ N (Function.update φ i (.got m []))
  | serveTimesOut (ok : Bool) (htimeout : P.timeouts S.server = true)
      (hphase : φ S.server = .listening) :
      Course P N φ N (Function.update φ S.server (.served ok))
  | answerFails (src : A) (r : Message) (ok : Bool) (hlossy : P.lossy = true)
      (hphase : φ S.server = .answering src r) :
      Course P N φ N (Function.update φ S.server (.served ok))
  | lose (src dst : A) (n : ℕ) (hlossy : P.lossy = true) : Course P N φ (N.lose src dst n) φ

variable {S} {P : Policy A} {N N' : NetState A} {φ φ' : A → Phase A} {dest : A → A}
  {D : Deployment A Unit Message Work Outcome} {i : A}

theorem Course.sure_of (h : S.Course P N φ N' φ') (hloss : P.lossy = false)
    (htime : ∀ i, P.timeouts i = false) : S.Sure P N φ N' φ' := by
  have hlossy (hlossy : P.lossy = true) : False := Bool.false_ne_true (hloss.symm.trans hlossy)
  cases h with
  | sure h => exact h
  | requestFails i m h => exact (hlossy h).elim
  | requestEnds i m h => exact (hlossy h).elim
  | giveUp i m htimeout => exact absurd ((htime i).symm.trans htimeout) Bool.false_ne_true
  | serveTimesOut ok htimeout =>
    exact absurd ((htime S.server).symm.trans htimeout) Bool.false_ne_true
  | answerFails src r ok h => exact (hlossy h).elim
  | lose src dst n h => exact (hlossy h).elim

theorem at_update {act : A → Activity A Unit Message Work Outcome} {y : Phase A}
    {x : Activity A Unit Message Work Outcome} (hat : ∀ j, S.At dest (φ j) (act j))
    (hx : S.At dest y x) (j : A) :
    S.At dest (Function.update φ i y j) (Function.update act i x j) := by
  by_cases hj : j = i
  · subst hj
    rwa [Function.update_self, Function.update_self]
  · rw [Function.update_of_ne hj, Function.update_of_ne hj]
    exact hat j

/-- What a party does with an event, from the shape of its program. -/
theorem course_of_event (hperf : S.Performs dest D) (hadd : S.Addressed N φ)
    {x x' : Activity A Unit Message Work Outcome} {e : Event A Unit Work Outcome}
    (hat : S.At dest (φ i) x) (hnext : x.next D i e = some x') (hnet : N.effect P i e = some N') :
    ∃ y, S.At dest y x' ∧ S.Course P N φ N' (Function.update φ i y) := by
  have hplace := hadd.phase i
  generalize hphase : φ i = y at hat hplace
  cases hat with
  | idle =>
    obtain ⟨job, p, rfl, hbody, rfl⟩ := Activity.next_idle hnext
    cases hnet
    cases job with
    | ask m =>
      obtain ⟨hclient, hsize, hasks⟩ := hperf.ask i m p hbody
      exact ⟨.ready m, .ready hasks, .sure (.ask i m hclient hphase hsize)⟩
    | serve =>
      obtain ⟨rfl, hserves⟩ := hperf.serve i p hbody
      exact ⟨.listening, .listening hserves, .sure (.serve hphase)⟩
  -- a refused send costs the call its answer: it waits on (a plain send) or ends (a checked one)
  | @ready m _ hp =>
    obtain ⟨k, rfl, hsent, hfails⟩ := hp
    rcases Activity.next_sendto hnext with ⟨rfl, rfl⟩ | ⟨err, rfl, rfl⟩
    · cases hnet
      exact ⟨.waiting m, .waiting hsent, .sure (.request i m hplace.1 hphase)⟩
    · obtain ⟨hlossy, rfl⟩ := Net.effect_sendFails hnet
      rcases hfails err with hwaits | hends
      · exact ⟨.waiting m, .waiting hwaits, .requestFails i m hlossy hplace.1 hphase⟩
      · exact ⟨.got m [], hends ▸ .got, .requestEnds i m hlossy hplace.1 hphase⟩
  | @waiting m _ hp =>
    obtain ⟨size, k, rfl, hsize, hreply, htimedOut⟩ := hp
    rcases Activity.next_recvfrom hnext with ⟨p, rfl, rfl⟩ | ⟨rfl, rfl⟩
    · -- there is room for the whole reply
      obtain ⟨rest, hqueue, rfl⟩ := Net.effect_received hnet
      have hroute := hadd.queue i p (hqueue ▸ List.mem_cons_self)
      have hlen := (hroute.to_client hplace.1).2.2
      rw [List.take_of_length_le (hlen ▸ hsize), hreply p.payload p.src hlen]
      exact ⟨.got m p.payload, .got, .sure (.reply i m p rest hplace.1 hphase hqueue)⟩
    · obtain ⟨htimeout, rfl⟩ := Net.effect_timedOut hnet
      rw [htimedOut]
      exact ⟨.got m [], .got, .giveUp i m htimeout hplace.1 hphase⟩
  | @got m r =>
    obtain ⟨rfl, rfl⟩ := Activity.next_done hnext
    cases hnet
    exact ⟨.idle, .idle, .sure (.finish i m r hplace.1 hphase)⟩
  | listening hp =>
    obtain rfl : i = S.server := hplace
    obtain ⟨size, k, rfl, hsize, hcomputes, ok, htimedOut⟩ := hp
    rcases Activity.next_recvfrom hnext with ⟨p, rfl, rfl⟩ | ⟨rfl, rfl⟩
    · obtain ⟨rest, hqueue, rfl⟩ := Net.effect_received hnet
      have hlen := (hadd.queue S.server p (hqueue ▸ List.mem_cons_self)).to_server.2.2
      rw [List.take_of_length_le (hlen ▸ hsize)]
      exact ⟨.asking p.src p.payload, .asking (hcomputes p.payload p.src hlen),
        .sure (.accept p rest hphase hqueue)⟩
    · obtain ⟨htimeout, rfl⟩ := Net.effect_timedOut hnet
      rw [htimedOut]
      exact ⟨.served ok, .served, .serveTimesOut ok htimeout hphase⟩
  | @asking src m _ hp =>
    obtain ⟨rfl, -, -, hsize⟩ := hplace
    obtain ⟨k, rfl, hanswers⟩ := hp
    obtain ⟨rfl, rfl⟩ := Activity.next_callback hnext
    cases hnet
    rw [hperf.callback]
    exact ⟨.answering src (S.callback m),
      .answering (hanswers _ (S.length_callback m hsize)), .sure (.compute src m hphase)⟩
  | @answering src r _ hp =>
    obtain ⟨rfl, hclient, -⟩ := hplace
    obtain ⟨k, rfl, hserved⟩ := hp
    -- the address the program answers is the one the request came from
    rw [hperf.dest src hclient] at hnext
    rcases Activity.next_sendto hnext with ⟨rfl, rfl⟩ | ⟨err, rfl, rfl⟩
    · cases hnet
      obtain ⟨ok, hok⟩ := hserved (.sent r.length)
      exact ⟨.served ok, hok ▸ .served, .sure (.answer src r ok hphase)⟩
    · obtain ⟨hlossy, rfl⟩ := Net.effect_sendFails hnet
      obtain ⟨ok, hok⟩ := hserved (.failed err)
      exact ⟨.served ok, hok ▸ .served, .answerFails src r ok hlossy hphase⟩
  | @served ok =>
    obtain rfl : i = S.server := hplace
    obtain ⟨rfl, rfl⟩ := Activity.next_done hnext
    cases hnet
    exact ⟨.idle, .idle, .sure (.served ok hphase)⟩

theorem course_of_transit (hadd : S.Addressed N φ) {t : Transit A}
    (hnet : N.transit P t = some N') : S.Course P N φ N' φ := by
  cases t with
  | arrive src dst n =>
    -- a datagram under way is a request or a reply, which settles its two ends
    obtain ⟨horder, p, hp, rfl⟩ := Net.transit_arrive hnet
    obtain ⟨rfl, hroute⟩ := hadd.flight src dst p (List.mem_of_getElem? hp)
    rcases hroute with ⟨hclient, rfl, -⟩ | ⟨hsrc, hclient, -⟩
    · exact .sure (.requestArrives p.src n p hclient horder hp)
    · rw [hsrc] at hp ⊢
      exact .sure (.replyArrives dst n p hclient horder hp)
  | lose src dst n =>
    obtain ⟨hlossy, rfl⟩ := Net.transit_lose hnet
    exact .lose src dst n hlossy

/-- What holds initially and is kept by every step of the course of a service holds at the end of
every run, and the parties' programs are in the phases that it speaks of. -/
theorem Performs.counted (hperf : S.Performs dest D) {I : ℕ → NetState A → (A → Phase A) → Prop}
    (hinit : I 0 .empty fun _ => .idle) (hadd : ∀ n N φ, I n N φ → S.Addressed N φ)
    (hstep : ∀ n N φ N' φ', I n N φ → S.Course P N φ N' φ' → I (n + 1) N' φ')
    {ls : List (Label A Unit Work Outcome)} {c : Config A Unit Message Work Outcome}
    (hrun : (network D P).run ls (network D P).init = some c) :
    ∃ φ, I ls.length c.net φ ∧ ∀ i, S.At dest (φ i) (c.act i) := by
  have hend := Machine.run_counted
    (I := fun n c => ∃ φ, I n c.net φ ∧ ∀ i, S.At dest (φ i) (c.act i)) ?_ ls 0 _ c
    ⟨fun _ => .idle, hinit, fun _ => .idle⟩ hrun
  · rwa [Nat.zero_add] at hend
  rintro n l c c' ⟨φ, hI, hat⟩ hl
  rcases step_cases hl with ⟨i, e, x, N, rfl, hx, hN, rfl⟩ | ⟨t, N, rfl, hN, rfl⟩
  · obtain ⟨y, hy, hcourse⟩ := course_of_event hperf (hadd n _ φ hI) (hat i) hx hN
    exact ⟨_, hstep n _ φ _ _ hI hcourse, at_update hat hy⟩
  · exact ⟨φ, hstep n _ φ _ _ hI (course_of_transit (hadd n _ φ hI) hN), hat⟩

/-! What is known of the steps of `Service.Step` holds of the course of a service too. -/

/-- What a step of a network that may time out keeps is kept, when it does not look at what the
server is about to return. -/
theorem Course.keeps {T : Policy A} {I : NetState A → (A → Phase A) → Prop}
    (hstep : ∀ N φ N' φ', I N φ → S.Step T N φ N' φ' → I N' φ')
    (hserved : ∀ N φ ok ok', I N (Function.update φ S.server (.served ok)) →
      I N (Function.update φ S.server (.served ok')))
    (hreorder : P.reorder = true → T.reorder = true)
    (htime : ∀ i, P.timeouts i = true ∨ P.lossy = true → T.timeouts i = true)
    (h : S.Course P N φ N' φ') (hI : I N φ) : I N' φ' := by
  cases h with
  | sure h =>
    cases h with
    | ask i m hclient hphase hsize => exact hstep _ _ _ _ hI (.ask i m hclient hphase hsize)
    | request i m hclient hphase => exact hstep _ _ _ _ hI (.request i m hclient hphase)
    | reply i m p rest hclient hphase hqueue =>
      exact hstep _ _ _ _ hI (.reply i m p rest hclient hphase hqueue)
    | finish i m r hclient hphase => exact hstep _ _ _ _ hI (.finish i m r hclient hphase)
    | serve hphase => exact hstep _ _ _ _ hI (.serve hphase)
    | accept p rest hphase hqueue => exact hstep _ _ _ _ hI (.accept p rest hphase hqueue)
    | compute src m hphase => exact hstep _ _ _ _ hI (.compute src m hphase)
    | answer src r ok hphase => exact hserved _ _ _ ok (hstep _ _ _ _ hI (.answer src r hphase))
    | served ok hphase => exact hstep _ _ _ _ hI (.served ok hphase)
    | requestArrives i n p hclient horder hp =>
      exact hstep _ _ _ _ hI (.requestArrives i n p hclient (horder.imp_left hreorder) hp)
    | replyArrives i n p hclient horder hp =>
      exact hstep _ _ _ _ hI (.replyArrives i n p hclient (horder.imp_left hreorder) hp)
  | requestFails i m hlossy hclient hphase =>
    exact hstep _ _ _ _ hI (.requestFails i m hclient hphase)
  | requestEnds i m hlossy hclient hphase =>
    -- a request that fails, and a client that gives up
    have hwaits := hstep _ _ _ _ hI (.requestFails i m hclient hphase)
    have hends := hstep _ _ _ _ hwaits
      (.giveUp i m hclient (Function.update_self ..) (htime i (.inr hlossy)))
    rwa [Function.update_idem] at hends
  | giveUp i m htimeout hclient hphase =>
    exact hstep _ _ _ _ hI (.giveUp i m hclient hphase (htime i (.inl htimeout)))
  | serveTimesOut ok htimeout hphase =>
    exact hserved _ _ _ ok (hstep _ _ _ _ hI (.serveTimesOut hphase))
  | answerFails src r ok hlossy hphase =>
    exact hserved _ _ _ ok (hstep _ _ _ _ hI (.answerFails src r hphase))
  | lose src dst n hlossy => exact hstep _ _ _ _ hI (.lose src dst n)

theorem Addressed.served {ok ok' : Bool}
    (h : S.Addressed N (Function.update φ S.server (.served ok))) :
    S.Addressed N (Function.update φ S.server (.served ok')) := by
  have hserved := h.still (x := .served ok') rfl rfl (fun _ _ => rfl) rfl
  rwa [Function.update_idem] at hserved

theorem Paired.served {ok ok' : Bool} (h : S.Paired P N (Function.update φ S.server (.served ok))) :
    S.Paired P N (Function.update φ S.server (.served ok')) := by
  have hothers {i : A} (hi : S.clients i = true) (x : Phase A) :
      Function.update φ S.server x i = φ i := Function.update_of_ne (ne_server_of_client hi) _ _
  refine ⟨h.addressed.served, ?_, ?_, h.replied, ?_, h.invoked⟩
  · intro i hi
    have hcalls := h.ordered i hi
    simp only [calls, Function.update_self, hothers hi] at hcalls ⊢
    exact hcalls
  · intro i hi
    have hlog := h.logged i hi
    rwa [hothers hi] at hlog ⊢
  · intro i hi htime
    have hpatient := h.patient i hi htime
    rwa [hothers hi] at hpatient ⊢

theorem Course.addressed (h : S.Course P N φ N' φ') (hadd : S.Addressed N φ) :
    S.Addressed N' φ' :=
  h.keeps (P := P) (T := { P with timeouts := fun _ => true }) (I := S.Addressed)
    (fun _ _ _ _ hadd hstep => hadd.step hstep) (fun _ _ _ _ => Addressed.served)
    (fun hreorder => hreorder) (fun _ _ => rfl) hadd

/-- Whatever the programs of a service, its clients' calls stay paired. -/
theorem Performs.paired (hperf : S.Performs dest D) {T : Policy A}
    (hreorder : P.reorder = true → T.reorder = true)
    (htime : ∀ i, P.timeouts i = true ∨ P.lossy = true → T.timeouts i = true)
    (hpolicy : T.reorder = true → ∀ i, S.clients i = true → T.timeouts i = false)
    {c : Config A Unit Message Work Outcome} (hc : (network D P).Reachable c) :
    ∃ φ, S.Paired T c.net φ := by
  obtain ⟨ls, hrun⟩ := hc
  obtain ⟨φ, h, -⟩ := hperf.counted (I := fun _ => S.Paired T) paired_empty
    (fun _ _ _ h => h.addressed) (fun _ _ _ _ _ h hcourse => hcourse.keeps
      (fun _ _ _ _ h hstep => h.step hstep hpolicy) (fun _ _ _ _ => Paired.served)
      hreorder htime h) hrun
  exact ⟨φ, h⟩

/-- On a network that keeps order, clients of any programs get their replies in the order of
their requests. -/
theorem Performs.follows (hperf : S.Performs dest D) (hfifo : P.reorder = false)
    {c : Config A Unit Message Work Outcome} (hc : (network D P).Reachable c)
    (hi : S.clients i = true) : ∃ j, S.FollowsRequests (c.net.returned i) j := by
  have hnot : P.reorder = true → False := fun h => Bool.false_ne_true (hfifo.symm.trans h)
  obtain ⟨φ, h⟩ := hperf.paired (P := P) (T := { P with timeouts := fun _ => true })
    (fun hreorder => hreorder) (fun _ _ => rfl) (fun h => (hnot h).elim) hc
  exact ⟨answeredCall (c.net.returned i), h.followsRequests hi⟩

/-- On a network that loses nothing, whatever it reorders, clients of any programs that do not
time out do not get each other's replies. -/
theorem Performs.uncrossed (hperf : S.Performs dest D) (hloss : P.lossy = false)
    (hpatient : ∀ i, S.clients i = true → P.timeouts i = false)
    {c : Config A Unit Message Work Outcome} (hc : (network D P).Reachable c) :
    S.Uncrossed c.net := by
  have hnot : P.lossy = true → False := fun h => Bool.false_ne_true (hloss.symm.trans h)
  obtain ⟨φ, h⟩ := hperf.paired (P := P) (fun hreorder => hreorder)
    (fun _ h => h.elim (fun htime => htime) fun h => (hnot h).elim) (fun _ => hpatient) hc
  exact h.uncrossed hpatient

end Service

end Marko
