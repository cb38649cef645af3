import Marko.RequestReplySystem

/-! Where the datagrams of a service go, and from that what each step of it does. -/
namespace Marko

open Datagram Interaction

namespace Service

variable {A : Type} (S : Service A)

abbrev NetState (A : Type) := Net A Unit Work Outcome

/-- A datagram to `dst` is a client's request or the server's reply, of the right size and
caused by a call of that client. -/
def Routed (dst : A) (p : Packet A) : Prop :=
  (S.clients p.src = true ∧ dst = S.server ∧ p.cause.1 = p.src ∧ p.payload.length = S.msgSize) ∨
    (p.src = S.server ∧ S.clients dst = true ∧ p.cause.1 = dst ∧
      p.payload.length = S.replySize)

/-- The same for what a party with cause `c` holds between its calls. -/
def Placed (i : A) (c : A × ℕ) : Phase A → Prop
  | .idle => True
  | .ready m => S.clients i = true ∧ c.1 = i ∧ m.length = S.msgSize
  | .waiting _ => S.clients i = true ∧ c.1 = i
  | .got _ _ => S.clients i = true ∧ c.1 = i
  | .listening => i = S.server
  | .asking src m => i = S.server ∧ S.clients src = true ∧ c.1 = src ∧ m.length = S.msgSize
  | .answering src r => i = S.server ∧ S.clients src = true ∧ c.1 = src ∧ r.length = S.replySize
  | .served _ => i = S.server

structure Addressed (N : NetState A) (φ : A → Phase A) : Prop where
  flight : ∀ src dst, ∀ p ∈ N.flight (src, dst), p.src = src ∧ S.Routed dst p
  queue : ∀ dst, ∀ p ∈ N.queue dst, S.Routed dst p
  phase : ∀ i, S.Placed i (N.cause i) (φ i)

variable {S}

theorem ne_server_of_client {i : A} (h : S.clients i = true) : i ≠ S.server := by
  rintro rfl
  rw [S.server_not_client] at h
  contradiction

/-- A server takes only requests and a client only replies, both of the expected size. -/
theorem Routed.to_server {p : Packet A} (h : S.Routed S.server p) :
    S.clients p.src = true ∧ p.cause.1 = p.src ∧ p.payload.length = S.msgSize := by
  rcases h with ⟨hsrc, -, hcause, hsize⟩ | ⟨-, hdst, -⟩
  · exact ⟨hsrc, hcause, hsize⟩
  · exact absurd rfl (ne_server_of_client hdst)

theorem Routed.to_client {i : A} {p : Packet A} (hi : S.clients i = true) (h : S.Routed i p) :
    p.src = S.server ∧ p.cause.1 = i ∧ p.payload.length = S.replySize := by
  rcases h with ⟨-, rfl, -⟩ | ⟨hsrc, -, hcause, hsize⟩
  · exact absurd rfl (ne_server_of_client hi)
  · exact ⟨hsrc, hcause, hsize⟩

theorem Routed.reply_ne_nil {i : A} {p : Packet A} (hi : S.clients i = true)
    (h : S.Routed i p) : p.payload ≠ [] := by
  have hsize := (h.to_client hi).2.2
  exact List.length_pos_iff.mp (hsize ▸ S.replySize_pos)

theorem accept_exact {p : Packet A} (hsize : p.payload.length = S.msgSize) :
    S.accept p = .asking p.src p.payload := by
  have hne : p.payload ≠ [] := by
    have hpos := S.msgSize_pos
    rw [← hsize] at hpos
    exact List.length_pos_iff.mp hpos
  rw [accept, if_neg hne, fillBuffer_exact hsize]

theorem addressed_empty : S.Addressed .empty fun _ => .idle where
  flight _ _ _ hp := absurd hp List.not_mem_nil
  queue _ _ hp := absurd hp List.not_mem_nil
  phase _ := trivial

theorem Addressed.placed {N : NetState A} {φ : A → Phase A} (h : S.Addressed N φ) {i : A}
    {x : Phase A} (hphase : φ i = x) : S.Placed i (N.cause i) x :=
  hphase ▸ h.phase i

variable [DecidableEq A]

variable (S) in
/-- The steps of a service whose datagrams are addressed: six of a client, seven of the
server, and three of the network. -/
inductive Step (P : Policy A) (N : NetState A) (φ : A → Phase A) :
    NetState A → (A → Phase A) → Prop where
  | ask (i : A) (m : Message) (hclient : S.clients i = true) (hphase : φ i = .idle)
      (hsize : m.length = S.msgSize) :
      Step P N φ (N.start i (.ask m)) (Function.update φ i (.ready m))
  | request (i : A) (m : Message) (hclient : S.clients i = true) (hphase : φ i = .ready m) :
      Step P N φ (N.post i m S.server) (Function.update φ i (.waiting m))
  | requestFails (i : A) (m : Message) (hclient : S.clients i = true) (hphase : φ i = .ready m) :
      Step P N φ N (Function.update φ i (.waiting m))
  | reply (i : A) (m : Message) (p : Packet A) (rest : List (Packet A))
      (hclient : S.clients i = true) (hphase : φ i = .waiting m) (hqueue : N.queue i = p :: rest) :
      Step P N φ (N.take i p) (Function.update φ i (.got m p.payload))
  | giveUp (i : A) (m : Message) (hclient : S.clients i = true) (hphase : φ i = .waiting m)
      (htimeout : P.timeouts i = true) : Step P N φ N (Function.update φ i (.got m []))
  | finish (i : A) (m r : Message) (hclient : S.clients i = true) (hphase : φ i = .got m r) :
      Step P N φ (N.conclude i (.ask m) (.reply r)) (Function.update φ i .idle)
  | serve (hphase : φ S.server = .idle) :
      Step P N φ (N.start S.server .serve) (Function.update φ S.server .listening)
  | accept (p : Packet A) (rest : List (Packet A)) (hphase : φ S.server = .listening)
      (hqueue : N.queue S.server = p :: rest) :
      Step P N φ (N.take S.server p) (Function.update φ S.server (.asking p.src p.payload))
  | serveTimesOut (hphase : φ S.server = .listening) :
      Step P N φ N (Function.update φ S.server (.served false))
  | compute (src : A) (m : Message) (hphase : φ S.server = .asking src m) :
      Step P N φ (N.note S.server () m)
        (Function.update φ S.server (.answering src (S.callback m)))
  | answer (src : A) (r : Message) (hphase : φ S.server = .answering src r) :
      Step P N φ (N.post S.server r src) (Function.update φ S.server (.served true))
  | answerFails (src : A) (r : Message) (hphase : φ S.server = .answering src r) :
      Step P N φ N (Function.update φ S.server (.served true))
  | served (ok : Bool) (hphase : φ S.server = .served ok) :
      Step P N φ (N.conclude S.server .serve (.served ok)) (Function.update φ S.server .idle)
  | requestArrives (i : A) (n : ℕ) (p : Packet A) (hclient : S.clients i = true)
      (horder : P.reorder = true ∨ n = 0) (hp : (N.flight (i, S.server))[n]? = some p) :
      Step P N φ (N.arrive i S.server n p) φ
  | replyArrives (i : A) (n : ℕ) (p : Packet A) (hclient : S.clients i = true)
      (horder : P.reorder = true ∨ n = 0) (hp : (N.flight (S.server, i))[n]? = some p) :
      Step P N φ (N.arrive S.server i n p) φ
  | lose (src dst : A) (n : ℕ) : Step P N φ (N.lose src dst n) φ

/-- A move of `i` that touches no cause but its own keeps the phases placed. -/
theorem placed_update {N N' : NetState A} {φ : A → Phase A} {i : A} {x : Phase A}
    (hphase : ∀ j, S.Placed j (N.cause j) (φ j)) (hcause : ∀ j, j ≠ i → N'.cause j = N.cause j)
    (hx : S.Placed i (N'.cause i) x) (j : A) :
    S.Placed j (N'.cause j) (Function.update φ i x j) := by
  have hothers : ∀ j, j ≠ i → S.Placed j (N'.cause j) (φ j) := by
    intro j hj
    rw [hcause j hj]
    exact hphase j
  exact (Function.forall_update_iff φ fun j => S.Placed j (N'.cause j)).mpr ⟨hx, hothers⟩ j

theorem Addressed.post {N : NetState A} {φ : A → Phase A} (h : S.Addressed N φ) {i dst : A}
    {msg : Message} {x : Phase A} (hroute : S.Routed dst ⟨i, msg, N.cause i⟩)
    (hx : S.Placed i (N.cause i) x) :
    S.Addressed (N.post i msg dst) (Function.update φ i x) where
  flight s d p hp := by
    rcases Net.mem_post_flight.mp hp with hp | ⟨hsd, rfl⟩
    · exact h.flight s d p hp
    · obtain ⟨rfl, rfl⟩ := Prod.mk.inj hsd
      exact ⟨rfl, hroute⟩
  queue := h.queue
  phase := placed_update h.phase (fun _ _ => rfl) hx

theorem Addressed.take {N : NetState A} {φ : A → Phase A} (h : S.Addressed N φ) {i : A}
    {p : Packet A} {x : Phase A} (hx : S.Placed i p.cause x) :
    S.Addressed (N.take i p) (Function.update φ i x) where
  flight := h.flight
  queue d q hq := h.queue d q (Net.mem_of_mem_take_queue hq)
  phase := by
    apply placed_update h.phase
    · intro j hj
      exact Function.update_of_ne hj _ _
    · simpa only [Net.take_cause, Function.update_self] using hx

theorem Addressed.still {N N' : NetState A} {φ : A → Phase A} (h : S.Addressed N φ) {i : A}
    {x : Phase A} (hflight : N'.flight = N.flight) (hqueue : N'.queue = N.queue)
    (hcause : ∀ j, j ≠ i → N'.cause j = N.cause j) (hx : S.Placed i (N'.cause i) x) :
    S.Addressed N' (Function.update φ i x) where
  flight := hflight ▸ h.flight
  queue := hqueue ▸ h.queue
  phase := placed_update h.phase hcause hx

theorem Addressed.arrive {N : NetState A} {φ : A → Phase A} (h : S.Addressed N φ) {s d : A}
    {n : ℕ} {p : Packet A} (hp : (N.flight (s, d))[n]? = some p) :
    S.Addressed (N.arrive s d n p) φ where
  flight s' d' q hq := h.flight s' d' q ((Net.lose_flight_sublist _).subset hq)
  queue d' q hq := by
    rcases Net.mem_arrive_queue.mp hq with hq | ⟨rfl, rfl⟩
    · exact h.queue d' q hq
    · exact (h.flight s d' q (List.mem_of_getElem? hp)).2
  phase := h.phase

theorem Addressed.step {P : Policy A} {N N' : NetState A} {φ φ' : A → Phase A}
    (h : S.Addressed N φ) (hstep : S.Step P N φ N' φ') : S.Addressed N' φ' := by
  cases hstep with
  | ask i m hclient hphase hsize =>
    refine h.still rfl rfl ?_ ?_
    · intro j hj
      exact Function.update_of_ne hj _ _
    · simp only [Net.start_cause, Function.update_self]
      exact ⟨hclient, rfl, hsize⟩
  | request i m hclient hphase =>
    obtain ⟨-, hcause, hsize⟩ := h.placed hphase
    exact h.post (.inl ⟨hclient, rfl, hcause, hsize⟩) ⟨hclient, hcause⟩
  | requestFails i m hclient hphase =>
    obtain ⟨-, hcause, -⟩ := h.placed hphase
    exact h.still rfl rfl (fun _ _ => rfl) ⟨hclient, hcause⟩
  | reply i m p rest hclient hphase hqueue =>
    have hroute := h.queue i p (hqueue ▸ List.mem_cons_self)
    exact h.take ⟨hclient, (hroute.to_client hclient).2.1⟩
  | giveUp i m hclient hphase htimeout =>
    have hplace : S.Placed i (N.cause i) (.waiting m) := h.placed hphase
    exact h.still rfl rfl (fun _ _ => rfl) hplace
  | finish i m r hclient hphase => exact h.still rfl rfl (fun _ _ => rfl) trivial
  | serve hphase =>
    refine h.still rfl rfl ?_ ?_
    · intro j hj
      exact Function.update_of_ne hj _ _
    · rfl
  | accept p rest hphase hqueue =>
    have hroute := h.queue S.server p (hqueue ▸ List.mem_cons_self)
    exact h.take ⟨rfl, hroute.to_server⟩
  | serveTimesOut hphase => exact h.still rfl rfl (fun _ _ => rfl) rfl
  | compute src m hphase =>
    obtain ⟨-, hclient, hcause, hsize⟩ := h.placed hphase
    -- from a request of its size the callback makes a reply of its size
    exact h.still rfl rfl (fun _ _ => rfl) ⟨rfl, hclient, hcause, S.length_callback m hsize⟩
  | answer src r hphase =>
    obtain ⟨-, hclient, hcause, hsize⟩ := h.placed hphase
    exact h.post (.inr ⟨rfl, hclient, hcause, hsize⟩) rfl
  | answerFails src r hphase => exact h.still rfl rfl (fun _ _ => rfl) rfl
  | served ok hphase => exact h.still rfl rfl (fun _ _ => rfl) trivial
  | requestArrives i n p hclient horder hp => exact h.arrive hp
  | replyArrives i n p hclient horder hp => exact h.arrive hp
  | lose src dst n =>
    exact ⟨fun s d q hq => h.flight s d q ((Net.lose_flight_sublist _).subset hq), h.queue, h.phase⟩

/-- What each step does once the datagrams are addressed: nothing that is received is cut,
padded or refused. -/
theorem step_of_phases [Zero A] {D : SocketDefs} {P : Policy A} {N N' : NetState A}
    {φ φ' : A → (S.phases D).Phase} (hadd : S.Addressed N φ) (h : (S.phases D).Step P N φ N' φ') :
    S.Step P N φ N' φ' := by
  cases h with
  | party i e x N' hmove hnet =>
    have hphase := hadd.phase i
    -- a move from a phase fixes the event, and the event the effect on the network
    change S.Move D i e (φ i) x at hmove
    generalize hx : φ i = y at hmove hphase
    cases hmove with
    | ask hclient hsize =>
      cases hnet
      exact .ask i _ hclient hx hsize
    | request =>
      cases hnet
      exact .request i _ hphase.1 hx
    | requestFails =>
      obtain ⟨-, rfl⟩ := Net.effect_sendFails hnet
      exact .requestFails i _ hphase.1 hx
    | reply p =>
      -- a reply has the size of the client's buffer, so nothing of it is cut or padded
      obtain ⟨rest, hqueue, rfl⟩ := Net.effect_received hnet
      have hp : p ∈ N.queue i := hqueue ▸ List.mem_cons_self
      have hsize := ((hadd.queue i p hp).to_client hphase.1).2.2
      rw [receivedMessage_exact D p.src hsize]
      exact .reply i _ p rest hphase.1 hx hqueue
    | giveUp =>
      obtain ⟨htimeout, rfl⟩ := Net.effect_timedOut hnet
      exact .giveUp i _ hphase.1 hx htimeout
    | finish =>
      cases hnet
      exact .finish i _ _ hphase.1 hx
    | serve hserver =>
      subst hserver
      cases hnet
      exact .serve hx
    | accept p =>
      obtain rfl : i = S.server := hphase
      obtain ⟨rest, hqueue, rfl⟩ := Net.effect_received hnet
      have hp : p ∈ N.queue S.server := hqueue ▸ List.mem_cons_self
      rw [accept_exact (hadd.queue S.server p hp).to_server.2.2]
      exact .accept p rest hx hqueue
    | serveTimesOut =>
      obtain rfl : i = S.server := hphase
      obtain ⟨-, rfl⟩ := Net.effect_timedOut hnet
      exact .serveTimesOut hx
    | compute =>
      obtain rfl : i = S.server := hphase.1
      cases hnet
      exact .compute _ _ hx
    | answer =>
      obtain rfl : i = S.server := hphase.1
      cases hnet
      exact .answer _ _ hx
    | answerFails =>
      obtain rfl : i = S.server := hphase.1
      obtain ⟨-, rfl⟩ := Net.effect_sendFails hnet
      exact .answerFails _ _ hx
    | served =>
      obtain rfl : i = S.server := hphase
      cases hnet
      exact .served _ hx
  | transit t N' hnet =>
    cases t with
    | arrive src dst n =>
      -- a datagram under way is a request or a reply, which settles its two ends
      obtain ⟨horder, p, hp, rfl⟩ := Net.transit_arrive hnet
      obtain ⟨rfl, hroute⟩ := hadd.flight src dst p (List.mem_of_getElem? hp)
      rcases hroute with ⟨hclient, rfl, -⟩ | ⟨hsrc, hclient, -⟩
      · exact .requestArrives p.src n p hclient horder hp
      · rw [hsrc] at hp ⊢
        exact .replyArrives dst n p hclient horder hp
    | lose src dst n =>
      obtain ⟨-, rfl⟩ := Net.transit_lose hnet
      exact .lose src dst n

end Service

end Marko
