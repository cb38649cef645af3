import Marko.PymarkoExchange

/-! The steps of an exchange on a network that keeps order and loses nothing, with a requester
that waits without timeout, and the ways its datagrams go. -/
namespace Pymarko

open Datagram Interaction

namespace Exchange

variable {K : Type} (F : Exchange K)

abbrev NetState (K : Type) := Net Address K Work Outcome

def Asks (p : Packet Address) : Prop := p.src = F.requester ∧ F.Proper p.payload

def Answers (p : Packet Address) : Prop := p.payload.length ≤ F.requestSize

/-- Requests go to the server and replies to the requester; nothing else is under way. -/
def Legal (src dst : Address) (p : Packet Address) : Prop :=
  src = F.requester ∧ dst = F.server ∧ F.Asks p ∨ src = F.server ∧ dst = F.requester ∧ F.Answers p

def Placed (i : Address) : Phase K → Prop
  | .idle => True
  | .asking data => i = F.requester ∧ F.Proper data
  | .waiting _ => i = F.requester
  | .returning _ _ => i = F.requester
  | .listening => i = F.server
  | .calling _ addr _ => i = F.server ∧ addr = F.requester
  | .replying _ addr reply _ => i = F.server ∧ addr = F.requester ∧ reply.length ≤ F.requestSize
  | .closing _ => i = F.server

structure Routed (N : NetState K) (φ : Address → Phase K) : Prop where
  flight : ∀ src dst, ∀ p ∈ N.flight (src, dst), F.Legal src dst p
  asked : ∀ p ∈ N.queue F.server, F.Asks p
  answered : ∀ p ∈ N.queue F.requester, F.Answers p
  phase : ∀ i, F.Placed i (φ i)

/-- What the two programs and the network do, the requester's steps first. -/
inductive Step (P : Policy Address) (N : NetState K) (φ : Address → Phase K) :
    NetState K → (Address → Phase K) → Prop where
  | ask (data : Bytes) (hphase : φ F.requester = .idle) (hproper : F.Proper data) :
      Step P N φ (N.start F.requester (.request data))
        (Function.update φ F.requester (.asking data))
  | send (data : Bytes) (hphase : φ F.requester = .asking data) :
      Step P N φ (N.post F.requester data F.server)
        (Function.update φ F.requester (.waiting data))
  | receive (data : Bytes) (p : Packet Address) (rest : List (Packet Address))
      (hphase : φ F.requester = .waiting data) (hqueue : N.queue F.requester = p :: rest) :
      Step P N φ (N.take F.requester p)
        (Function.update φ F.requester (.returning data (.ok (some p.payload))))
  | returned (data : Bytes) (r : Except PyError (Option Bytes))
      (hphase : φ F.requester = .returning data r) :
      Step P N φ (N.conclude F.requester (.request data) (.returned r))
        (Function.update φ F.requester .idle)
  | listen (hphase : φ F.server = .idle) :
      Step P N φ (N.start F.server .serve) (Function.update φ F.server .listening)
  | handle (p : Packet Address) (rest : List (Packet Address))
      (hphase : φ F.server = .listening) (hqueue : N.queue F.server = p :: rest) :
      Step P N φ (N.take F.server p)
        (Function.update φ F.server (.calling p.payload F.requester F.callbacks))
  | quiet (htime : P.timeouts F.server = true) (hphase : φ F.server = .listening) :
      Step P N φ N (Function.update φ F.server (.closing (.ok ())))
  | call (data : Bytes) (cb : K) (rest : List K)
      (hphase : φ F.server = .calling data F.requester (cb :: rest)) :
      Step P N φ (N.note F.server cb data)
        (Function.update φ F.server (F.afterCall data F.requester cb rest))
  | reply (data reply : Bytes) (rest : List K)
      (hphase : φ F.server = .replying data F.requester reply rest) :
      Step P N φ (N.post F.server reply F.requester)
        (Function.update φ F.server (.calling data F.requester rest))
  | called (data : Bytes) (hphase : φ F.server = .calling data F.requester []) :
      Step P N φ (N.conclude F.server .serve (.served (.ok ())))
        (Function.update φ F.server .idle)
  | closed (r : Except PyError Unit) (hphase : φ F.server = .closing r) :
      Step P N φ (N.conclude F.server .serve (.served r)) (Function.update φ F.server .idle)
  | arriveAtServer (p : Packet Address) (rest : List (Packet Address))
      (hflight : N.flight (F.requester, F.server) = p :: rest) :
      Step P N φ (N.arrive F.requester F.server 0 p) φ
  | arriveAtRequester (p : Packet Address) (rest : List (Packet Address))
      (hflight : N.flight (F.server, F.requester) = p :: rest) :
      Step P N φ (N.arrive F.server F.requester 0 p) φ

variable {F} {P : Policy Address} {N N' : NetState K} {φ φ' : Address → Phase K}

theorem routed_empty : F.Routed .empty fun _ => .idle where
  flight _ _ _ h := absurd h List.not_mem_nil
  asked _ h := absurd h List.not_mem_nil
  answered _ h := absurd h List.not_mem_nil
  phase _ := trivial

theorem placed_afterCall (data : Bytes) (cb : K) (rest : List K) :
    F.Placed F.server (F.afterCall data F.requester cb rest) := by
  unfold afterCall
  cases hanswer : F.answer cb data with
  | none => exact ⟨rfl, rfl⟩
  | some reply => exact ⟨rfl, rfl, (F.answer_fits cb data reply hanswer).2⟩

theorem Routed.placed (h : F.Routed N φ) {i : Address} {x : Phase K} (hphase : φ i = x) :
    F.Placed i x :=
  hphase ▸ h.phase i

theorem Legal.asks {src : Address} {p : Packet Address} (h : F.Legal src F.server p) :
    F.Asks p := by
  rcases h with ⟨-, -, hasks⟩ | ⟨-, hserver, -⟩
  · exact hasks
  · exact absurd hserver F.ne

theorem Legal.answers {src : Address} {p : Packet Address} (h : F.Legal src F.requester p) :
    F.Answers p := by
  rcases h with ⟨-, hserver, -⟩ | ⟨-, -, hanswers⟩
  · exact absurd hserver.symm F.ne
  · exact hanswers

theorem Routed.still (h : F.Routed N φ) {i : Address} {x : Phase K}
    (hflight : N'.flight = N.flight) (hqueue : N'.queue = N.queue) (hx : F.Placed i x) :
    F.Routed N' (Function.update φ i x) where
  flight := hflight ▸ h.flight
  asked := hqueue ▸ h.asked
  answered := hqueue ▸ h.answered
  phase := forall_update h.phase hx

theorem Routed.take (h : F.Routed N φ) {i : Address} {x : Phase K} (p : Packet Address)
    (hx : F.Placed i x) : F.Routed (N.take i p) (Function.update φ i x) where
  flight := h.flight
  asked q hq := h.asked q (Net.mem_of_mem_take_queue hq)
  answered q hq := h.answered q (Net.mem_of_mem_take_queue hq)
  phase := forall_update h.phase hx

theorem Routed.post (h : F.Routed N φ) {i dst : Address} {msg : Bytes} {x : Phase K}
    (hlegal : F.Legal i dst ⟨i, msg, N.cause i⟩) (hx : F.Placed i x) :
    F.Routed (N.post i msg dst) (Function.update φ i x) where
  flight src dst p hp := by
    rcases Net.mem_post_flight.mp hp with hp | ⟨hsd, rfl⟩
    · exact h.flight src dst p hp
    · obtain ⟨rfl, rfl⟩ := Prod.mk.inj hsd
      exact hlegal
  asked := h.asked
  answered := h.answered
  phase := forall_update h.phase hx

theorem Routed.arrive (h : F.Routed N φ) {src dst : Address} {p : Packet Address}
    {rest : List (Packet Address)} (hflight : N.flight (src, dst) = p :: rest) :
    F.Routed (N.arrive src dst 0 p) φ where
  flight s d q hq := h.flight s d q ((Net.lose_flight_sublist _).subset hq)
  asked q hq := by
    rcases Net.mem_arrive_queue.mp hq with hq | ⟨rfl, rfl⟩
    · exact h.asked q hq
    · exact (h.flight src F.server q (hflight ▸ List.mem_cons_self)).asks
  answered q hq := by
    rcases Net.mem_arrive_queue.mp hq with hq | ⟨rfl, rfl⟩
    · exact h.answered q hq
    · exact (h.flight src F.requester q (hflight ▸ List.mem_cons_self)).answers
  phase := h.phase

theorem Routed.step (h : F.Routed N φ) (hstep : F.Step P N φ N' φ') : F.Routed N' φ' := by
  cases hstep with
  | ask data hphase hproper => exact h.still rfl rfl ⟨rfl, hproper⟩
  | send data hphase =>
    have hproper : F.Proper data := (h.placed hphase).2
    exact h.post (.inl ⟨rfl, rfl, rfl, hproper⟩) rfl
  | receive data p rest hphase hqueue => exact h.take p rfl
  | returned data r hphase => exact h.still rfl rfl trivial
  | listen hphase => exact h.still rfl rfl rfl
  | handle p rest hphase hqueue => exact h.take p ⟨rfl, rfl⟩
  | quiet htime hphase => exact h.still rfl rfl rfl
  | call data cb rest hphase => exact h.still rfl rfl (placed_afterCall data cb rest)
  | reply data reply rest hphase =>
    have hsize : reply.length ≤ F.requestSize := (h.placed hphase).2.2
    exact h.post (.inr ⟨rfl, rfl, hsize⟩) ⟨rfl, rfl⟩
  | called data hphase => exact h.still rfl rfl trivial
  | closed r hphase => exact h.still rfl rfl trivial
  | arriveAtServer p rest hflight => exact h.arrive hflight
  | arriveAtRequester p rest hflight => exact h.arrive hflight

theorem handle_exact {p : Packet Address} (hp : F.Asks p) :
    F.handle p = .calling p.payload F.requester F.callbacks := by
  obtain ⟨hsrc, hne, hlen, -⟩ := hp
  rw [handle, List.take_of_length_le hlen, if_neg hne, hsrc]

/-- What each step of the programs does while the network keeps order and loses nothing and
the requester does not time out. -/
theorem step_of_phases [DecidableEq K] {φ φ' : Address → F.phases.Phase}
    (hfifo : P.reorder = false) (hloss : P.lossy = false)
    (hwait : P.timeouts F.requester = false) (h : F.Routed N φ)
    (hstep : F.phases.Step P N φ N' φ') : F.Step P N φ N' φ' := by
  cases hstep with
  | party i e x N' hmove hnet =>
    have hplace := h.phase i
    change F.Move i e (φ i) x at hmove
    -- a move from a phase fixes the event, and the event the effect on the network
    generalize hx : φ i = y at hmove hplace
    cases hmove with
    | ask hproper =>
      cases hnet
      exact .ask _ hx hproper
    | send =>
      obtain rfl : i = F.requester := hplace.1
      cases hnet
      exact .send _ hx
    | sendFails err =>
      -- a refused send would be a loss
      rw [Net.effect_sendFails_lossless hloss] at hnet
      contradiction
    | receive p =>
      obtain rfl : i = F.requester := hplace
      obtain ⟨rest, hqueue, rfl⟩ := Net.effect_received hnet
      -- a reply fits into the requester's buffer, and a request into the server's
      have hlen : p.payload.length ≤ F.requestSize :=
        h.answered p (hqueue ▸ List.mem_cons_self)
      rw [List.take_of_length_le hlen]
      exact .receive _ p rest hx hqueue
    | timesOut =>
      obtain rfl : i = F.requester := hplace
      have htime : P.timeouts F.requester = true := (Net.effect_timedOut hnet).1
      rw [hwait] at htime
      contradiction
    | returned =>
      obtain rfl : i = F.requester := hplace
      cases hnet
      exact .returned _ _ hx
    | listen =>
      cases hnet
      exact .listen hx
    | handle p =>
      obtain rfl : i = F.server := hplace
      obtain ⟨rest, hqueue, rfl⟩ := Net.effect_received hnet
      rw [handle_exact (h.asked p (hqueue ▸ List.mem_cons_self))]
      exact .handle p rest hx hqueue
    | quiet =>
      obtain rfl : i = F.server := hplace
      obtain ⟨htime, rfl⟩ := Net.effect_timedOut hnet
      exact .quiet htime hx
    | call =>
      obtain ⟨rfl, rfl⟩ := hplace
      cases hnet
      exact .call _ _ _ hx
    | reply =>
      obtain ⟨rfl, rfl, -⟩ := hplace
      cases hnet
      exact .reply _ _ _ hx
    | replyFails err =>
      rw [Net.effect_sendFails_lossless hloss] at hnet
      contradiction
    | called =>
      obtain ⟨rfl, rfl⟩ := hplace
      cases hnet
      exact .called _ hx
    | closed =>
      obtain rfl : i = F.server := hplace
      cases hnet
      exact .closed _ hx
  | transit t N' hnet =>
    obtain ⟨src, dst, p, rest, hflight, rfl⟩ := Net.transit_ordered hfifo hloss hnet
    rcases h.flight src dst p (hflight ▸ List.mem_cons_self) with ⟨rfl, rfl, -⟩ | ⟨rfl, rfl, -⟩
    · exact .arriveAtServer p rest hflight
    · exact .arriveAtRequester p rest hflight

end Exchange

end Pymarko
