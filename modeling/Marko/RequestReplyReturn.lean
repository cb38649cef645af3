import Mathlib.Algebra.Order.BigOperators.Group.Finset
import Marko.RequestReplyShapes

/-! Every call of `request` returns when nothing is lost and nobody times out: while a call is
open something can happen, and a run has no more steps than its requests account for. -/
namespace Marko

open Datagram Interaction

namespace Service

variable {A : Type} [DecidableEq A] {S : Service A} {P : Policy A} {N N' : NetState A}
  {φ φ' : A → Phase A}

/-! Where the one open call of a client is. -/

variable (S) in
/-- The requests and replies of client `i` between its send and its receive. -/
def underway (i : A) (N : NetState A) (φ : A → Phase A) : ℕ :=
  (inService i (N.cause S.server) (φ S.server)).length +
    ((N.queue S.server).filter fun p => p.src = i).length + (N.flight (i, S.server)).length +
    (computed i (N.cause S.server) (φ S.server)).length + (N.flight (S.server, i)).length +
    (N.queue i).length

def isWaiting : Phase A → ℕ
  | .waiting _ => 1
  | _ => 0

theorem length_eraseIdx_of_getElem? {α : Type} {xs : List α} {n : ℕ} {x : α}
    (hx : xs[n]? = some x) : (xs.eraseIdx n).length + 1 = xs.length := by
  have hlt := (List.getElem?_eq_some_iff.mp hx).1
  rw [List.length_eraseIdx_of_lt hlt]
  omega

/-- A client that waits has one datagram anywhere, and one that does not wait has none. -/
theorem underway_step (hstep : S.Sure P N φ N' φ') (hadd : S.Addressed N φ) {i : A}
    (hi : S.clients i = true) (h : S.underway i N φ = isWaiting (φ i)) :
    S.underway i N' φ' = isWaiting (φ' i) := by
  have hia : i ≠ S.server := ne_server_of_client hi
  have hai : S.server ≠ i := hia.symm
  cases hstep with
  | ask j m hclient hphase hsize =>
    have hja := (ne_server_of_client hclient).symm
    by_cases hij : i = j
    · subst hij
      simpa [underway, isWaiting, hphase, hai] using h
    · simpa [underway, isWaiting, hij, hja] using h
  | request j m hclient hphase =>
    have hja := (ne_server_of_client hclient).symm
    by_cases hij : i = j
    · subst hij
      simp only [underway, isWaiting, hphase] at h
      simp [underway, isWaiting, hai]
      omega
    · simpa [underway, isWaiting, hij, hja] using h
  | reply j m p rest hclient hphase hqueue =>
    have hja := (ne_server_of_client hclient).symm
    by_cases hij : i = j
    · subst hij
      simp only [underway, isWaiting, hphase, hqueue, List.length_cons] at h
      simp only [underway, isWaiting, Net.take_queue, Net.take_flight, Net.take_cause, hqueue,
        Function.update_self, Function.update_of_ne hai, List.tail_cons]
      omega
    · simpa [underway, isWaiting, hij, hja] using h
  | finish j m r hclient hphase =>
    have hja := (ne_server_of_client hclient).symm
    by_cases hij : i = j
    · subst hij
      simpa [underway, isWaiting, hphase, hai] using h
    · simpa [underway, isWaiting, hij, hja] using h
  | serve hphase => simpa [underway, isWaiting, hphase, hia, inService, computed] using h
  -- the datagram leaves the queue of the server and is in service from here on
  | accept p rest hphase hqueue =>
    by_cases hsrc : p.src = i
    · simp [underway, hphase, hia, hqueue, inService, computed, hsrc] at h ⊢
      omega
    · simpa [underway, hphase, hia, hqueue, inService, computed, hsrc] using h
  | compute src m hphase =>
    by_cases hsrc : src = i
    · simp [underway, hphase, hia, inService, computed, hsrc] at h ⊢
      omega
    · simpa [underway, hphase, hia, inService, computed, hsrc] using h
  | answer src r ok hphase =>
    by_cases hsrc : src = i
    · subst hsrc
      simp [underway, hphase, hia, inService, computed] at h ⊢
      omega
    · simpa [underway, hphase, hia, inService, computed, hsrc, Ne.symm hsrc] using h
  | served ok hphase => simpa [underway, hphase, hia, inService, computed] using h
  -- from the wire to the queue: the datagram is counted in one place less and in one more
  | requestArrives j n p hclient horder hp =>
    have hja := ne_server_of_client hclient
    obtain ⟨hsrc, -⟩ := hadd.flight j S.server p (List.mem_of_getElem? hp)
    have hlen := length_eraseIdx_of_getElem? hp
    by_cases hij : i = j
    · subst hij
      simp [underway, hia, hai, hsrc] at h ⊢
      omega
    · have hpi : p.src ≠ i := hsrc ▸ Ne.symm hij
      simpa [underway, hia, hij, hpi] using h
  | replyArrives j n p hclient horder hp =>
    have hja := ne_server_of_client hclient
    have hlen := length_eraseIdx_of_getElem? hp
    by_cases hij : i = j
    · subst hij
      simp [underway, hia, hai] at h ⊢
      omega
    · simpa [underway, hij, hja.symm, hia] using h

/-! How many steps the calls account for. -/

def ownSteps : Phase A → ℕ
  | .ready _ => 10
  | .got _ _ => 1
  | _ => 0

variable (S) in
/-- The steps to come of the call of client `i`, its own and those of its datagrams. -/
def due (i : A) (N : NetState A) (φ : A → Phase A) : ℕ :=
  ownSteps (φ i) + 9 * (N.flight (i, S.server)).length +
    8 * ((N.queue S.server).filter fun p => p.src = i).length +
    6 * (inService i (N.cause S.server) (φ S.server)).length +
    5 * (computed i (N.cause S.server) (φ S.server)).length +
    3 * (N.flight (S.server, i)).length + 2 * (N.queue i).length

def isServed : Phase A → ℕ
  | .served _ => 1
  | _ => 0

/-- A server that listens is a step ahead of the request that it waits for. -/
def isListening : Phase A → ℕ
  | .listening => 1
  | _ => 0

variable (S) in
/-- What one step takes off the steps that are due, when it concerns client `k`. -/
def Pays (k : A) (N : NetState A) (φ : A → Phase A) (N' : NetState A) (φ' : A → Phase A) : Prop :=
  S.due k N' φ' + isServed (φ' S.server) + 1 + 11 * (N.started k).length +
      isListening (φ S.server) =
    S.due k N φ + isServed (φ S.server) + 11 * (N'.started k).length + isListening (φ' S.server)

variable (S) in
def Spares (i : A) (N : NetState A) (φ : A → Phase A) (N' : NetState A) (φ' : A → Phase A) :
    Prop :=
  S.due i N' φ' = S.due i N φ ∧ N'.started i = N.started i

theorem pays_step (hstep : S.Sure P N φ N' φ') (hadd : S.Addressed N φ) :
    (∃ k, S.clients k = true ∧ S.Pays k N φ N' φ' ∧
      ∀ i, S.clients i = true → i ≠ k → S.Spares i N φ N' φ') ∨
    ((∀ i, S.clients i = true → S.Spares i N φ N' φ') ∧
      isServed (φ' S.server) + 1 + isListening (φ S.server) =
        isServed (φ S.server) + isListening (φ' S.server)) := by
  cases hstep with
  | ask k m hclient hphase hsize =>
    have hks := ne_server_of_client hclient
    refine .inl ⟨k, hclient, ?_, ?_⟩
    · simp [Pays, due, hphase, ownSteps, hks.symm]
      omega
    · intro i hi hik
      simp [Spares, due, hik, hks.symm]
  | request k m hclient hphase =>
    have hks := ne_server_of_client hclient
    refine .inl ⟨k, hclient, ?_, ?_⟩
    · simp [Pays, due, hphase, ownSteps, hks.symm]
      omega
    · intro i hi hik
      simp [Spares, due, hik, hks.symm]
  | reply k m p rest hclient hphase hqueue =>
    have hks := ne_server_of_client hclient
    refine .inl ⟨k, hclient, ?_, ?_⟩
    · simp [Pays, due, hphase, ownSteps, hks.symm, hqueue]
      omega
    · intro i hi hik
      simp [Spares, due, hik, hks.symm]
  | finish k m r hclient hphase =>
    have hks := ne_server_of_client hclient
    refine .inl ⟨k, hclient, ?_, ?_⟩
    · simp [Pays, due, hphase, ownSteps, hks.symm]
      omega
    · intro i hi hik
      simp [Spares, due, hik, hks.symm]
  -- no call is charged: only the phase of the server itself changes
  | serve hphase =>
    refine .inr ⟨?_, ?_⟩
    · intro i hi
      have his := ne_server_of_client hi
      simp [Spares, due, his, hphase, inService, computed]
    · simp [hphase, isServed, isListening]
  -- a step of the server is paid by the client whose request it handles
  | accept p rest hphase hqueue =>
    obtain ⟨hclient, -⟩ := (hadd.queue S.server p (hqueue ▸ List.mem_cons_self)).to_server
    have hks := ne_server_of_client hclient
    refine .inl ⟨p.src, hclient, ?_, ?_⟩
    · simp [Pays, due, hphase, hks, hqueue, inService, computed, isServed, isListening]
      omega
    · intro i hi hik
      have his := ne_server_of_client hi
      simp [Spares, due, his, hphase, hqueue, inService, computed, Ne.symm hik]
  | compute src m hphase =>
    obtain ⟨-, hclient, -⟩ := hadd.placed hphase
    have hks := ne_server_of_client hclient
    refine .inl ⟨src, hclient, ?_, ?_⟩
    · simp [Pays, due, hphase, hks, inService, computed, isServed, isListening]
      omega
    · intro i hi hik
      have his := ne_server_of_client hi
      simp [Spares, due, his, hphase, inService, computed, Ne.symm hik]
  | answer src r ok hphase =>
    obtain ⟨-, hclient, -⟩ := hadd.placed hphase
    have hks := ne_server_of_client hclient
    refine .inl ⟨src, hclient, ?_, ?_⟩
    · simp [Pays, due, hphase, hks, inService, computed, isServed, isListening]
      omega
    · intro i hi hik
      have his := ne_server_of_client hi
      simp [Spares, due, his, hphase, inService, computed, hik, Ne.symm hik]
  | served ok hphase =>
    refine .inr ⟨?_, ?_⟩
    · intro i hi
      have his := ne_server_of_client hi
      simp [Spares, due, his, hphase, inService, computed]
    · simp [hphase, isServed, isListening]
  -- the datagram names its source, so no other client has it among its own
  | requestArrives k n p hclient horder hp =>
    have hks := ne_server_of_client hclient
    have hlen := length_eraseIdx_of_getElem? hp
    obtain ⟨hsrc, -⟩ := hadd.flight k S.server p (List.mem_of_getElem? hp)
    refine .inl ⟨k, hclient, ?_, ?_⟩
    · simp [Pays, due, hks, hks.symm, hsrc]
      omega
    · intro i hi hik
      have his := ne_server_of_client hi
      have hpi : p.src ≠ i := hsrc ▸ Ne.symm hik
      simp [Spares, due, his, hik, hpi]
  | replyArrives k n p hclient horder hp =>
    have hks := ne_server_of_client hclient
    have hlen := length_eraseIdx_of_getElem? hp
    refine .inl ⟨k, hclient, ?_, ?_⟩
    · simp [Pays, due, hks, hks.symm]
      omega
    · intro i hi hik
      have his := ne_server_of_client hi
      simp [Spares, due, his, hik, hks.symm]

theorem sum_moved {T : Finset A} {k : A} (hk : k ∈ T) {f g : A → ℕ}
    (h : ∀ i ∈ T, i ≠ k → g i = f i) : ∑ i ∈ T, g i + f k = ∑ i ∈ T, f i + g k := by
  have hrest : ∑ i ∈ T.erase k, g i = ∑ i ∈ T.erase k, f i := by
    apply Finset.sum_congr rfl
    intro i hi
    obtain ⟨hik, hmem⟩ := Finset.mem_erase.mp hi
    exact h i hmem hik
  have hnew := Finset.add_sum_erase T g hk
  have hold := Finset.add_sum_erase T f hk
  omega

variable (S) in
/-- After `n` steps: every step belongs to one of the eleven of a call, or is the one by which the
server listens ahead. `T` holds the clients that made calls. -/
structure Accounted (n : ℕ) (T : Finset A) (N : NetState A) (φ : A → Phase A) : Prop where
  clients : ∀ i ∈ T, S.clients i = true
  fresh : ∀ i, S.clients i = true → i ∉ T → S.due i N φ = 0 ∧ N.started i = []
  steps : n + ∑ i ∈ T, S.due i N φ + isServed (φ S.server) =
    11 * ∑ i ∈ T, (N.started i).length + isListening (φ S.server)

theorem accounted_empty : S.Accounted 0 ∅ .empty fun _ => .idle where
  clients _ h := absurd h (Finset.notMem_empty _)
  fresh _ _ _ := ⟨rfl, rfl⟩
  steps := rfl

theorem Accounted.enlarge {n : ℕ} {T : Finset A} (h : S.Accounted n T N φ) {k : A}
    (hk : S.clients k = true) : S.Accounted n (insert k T) N φ := by
  by_cases hmem : k ∈ T
  · rwa [Finset.insert_eq_of_mem hmem]
  · obtain ⟨hdue, hstarted⟩ := h.fresh k hk hmem
    have hsteps := h.steps
    refine ⟨?_, ?_, ?_⟩
    · exact (Finset.forall_mem_insert k T _).mpr ⟨hk, h.clients⟩
    · exact fun i hi hiT => h.fresh i hi fun hT => hiT (Finset.mem_insert_of_mem hT)
    · rw [Finset.sum_insert hmem, Finset.sum_insert hmem, hdue, hstarted, List.length_nil]
      omega

theorem Accounted.step {n : ℕ} {T : Finset A} (h : S.Accounted n T N φ)
    (hstep : S.Sure P N φ N' φ') (hadd : S.Addressed N φ) :
    ∃ T', S.Accounted (n + 1) T' N' φ' := by
  rcases pays_step hstep hadd with ⟨k, hk, hpays, hspares⟩ | ⟨hspares, hserver⟩
  · have hins := h.enlarge hk
    have hmem : k ∈ insert k T := Finset.mem_insert_self k T
    have hdue := sum_moved (f := fun i => S.due i N φ) (g := fun i => S.due i N' φ') hmem
      fun i hi hik => (hspares i (hins.clients i hi) hik).1
    have hstarted := sum_moved (f := fun i => (N.started i).length)
      (g := fun i => (N'.started i).length) hmem
      fun i hi hik => congrArg List.length (hspares i (hins.clients i hi) hik).2
    have hsteps := hins.steps
    refine ⟨insert k T, hins.clients, ?_, ?_⟩
    · intro i hi hiT
      obtain ⟨hdue, hstarted⟩ := hins.fresh i hi hiT
      have hik : i ≠ k := fun h => hiT (h ▸ hmem)
      obtain ⟨hdue', hstarted'⟩ := hspares i hi hik
      exact ⟨hdue'.trans hdue, hstarted'.trans hstarted⟩
    · unfold Pays at hpays
      omega
  · have hsteps := h.steps
    have hdue : ∑ i ∈ T, S.due i N' φ' = ∑ i ∈ T, S.due i N φ :=
      Finset.sum_congr rfl fun i hi => (hspares i (h.clients i hi)).1
    have hstarted : ∑ i ∈ T, (N'.started i).length = ∑ i ∈ T, (N.started i).length :=
      Finset.sum_congr rfl fun i hi => congrArg List.length (hspares i (h.clients i hi)).2
    refine ⟨T, h.clients, ?_, ?_⟩
    · intro i hi hiT
      obtain ⟨hdue, hstarted⟩ := h.fresh i hi hiT
      obtain ⟨hdue', hstarted'⟩ := hspares i hi
      exact ⟨hdue'.trans hdue, hstarted'.trans hstarted⟩
    · omega

def asks : Label A Unit Work Outcome → Bool
  | .party _ (.start (.ask _)) => true
  | _ => false

section Progress

variable {dest : A → A} {D : Deployment A Unit Message Work Outcome}
  {c : Config A Unit Message Work Outcome}

theorem server_goes_on (hperf : S.Performs dest D) (hadd : S.Addressed c.net φ)
    (hat : S.At dest (φ S.server) (c.act S.server))
    (hbusy : φ S.server ≠ .listening ∨ c.net.queue S.server ≠ []) :
    ∃ l c', asks l = false ∧ step D P l c = some c' := by
  have hplace := hadd.phase S.server
  generalize φ S.server = y at hat hbusy hplace
  generalize hact : c.act S.server = x at hat
  cases hat with
  | idle =>
    obtain ⟨p, hp⟩ := hperf.open_
    refine ⟨.party S.server (.start .serve), _, rfl, step_party (x := .busy .serve p) ?_ rfl⟩
    rw [hact, Activity.next, hp, Option.map_some]
  -- the next three phases are a client's
  | ready => exact absurd rfl (ne_server_of_client hplace.1)
  | waiting => exact absurd rfl (ne_server_of_client hplace.1)
  | got => exact absurd rfl (ne_server_of_client hplace.1)
  | listening hp =>
    obtain ⟨size, k, rfl, -⟩ := hp
    obtain ⟨p, rest, hqueue⟩ := List.exists_cons_of_ne_nil (hbusy.resolve_left (absurd rfl))
    refine ⟨.party S.server (.received p), _, rfl, step_party (N := c.net.take S.server p)
      (x := .busy .serve (k (.received (p.payload.take size) p.src))) ?_ ?_⟩
    · simp only [hact, Activity.next, if_true]
    · simp only [Net.effect, hqueue, List.head?_cons, if_true]
  | @asking src m _ hp =>
    obtain ⟨k, rfl, -⟩ := hp
    refine ⟨.party S.server (.invoked () m), _, rfl,
      step_party (x := .busy .serve (k (D.callback S.server () m))) ?_ rfl⟩
    rw [hact]
    exact if_pos ⟨rfl, rfl⟩
  | @answering src r _ hp =>
    obtain ⟨k, rfl, -⟩ := hp
    refine ⟨.party S.server (.sent r (dest src)), _, rfl,
      step_party (x := .busy .serve (k (.sent r.length))) ?_ rfl⟩
    rw [hact]
    exact if_pos ⟨rfl, rfl, rfl⟩
  | @served ok =>
    refine ⟨.party S.server (.finished .serve (.served ok)), _, rfl, step_party (x := .idle) ?_ rfl⟩
    rw [hact]
    exact if_pos ⟨rfl, rfl⟩

/-- While a call is open, some step is possible that is not a new call. -/
theorem client_goes_on (hperf : S.Performs dest D) (hadd : S.Addressed c.net φ)
    (hat : ∀ i, S.At dest (φ i) (c.act i)) {i : A} (hi : S.clients i = true)
    (hone : S.underway i c.net φ = isWaiting (φ i)) (hbusy : c.act i ≠ .idle) :
    ∃ l c', asks l = false ∧ step D P l c = some c' := by
  have hplace := hadd.phase i
  have hati := hat i
  generalize φ i = y at hone hplace hati
  generalize hact : c.act i = x at hati hbusy
  cases hati with
  | idle => exact absurd rfl hbusy
  | @ready m _ hp =>
    obtain ⟨k, rfl, -⟩ := hp
    refine ⟨.party i (.sent m S.server), _, rfl,
      step_party (x := .busy (.ask m) (k (.sent m.length))) ?_ rfl⟩
    rw [hact]
    exact if_pos ⟨rfl, rfl, rfl⟩
  | @got m r =>
    refine ⟨.party i (.finished (.ask m) (.reply r)), _, rfl, step_party (x := .idle) ?_ rfl⟩
    rw [hact]
    exact if_pos ⟨rfl, rfl⟩
  | @waiting m _ hp =>
    -- the request or its reply is with the server, queued or under way
    by_cases hserver : φ S.server ≠ Phase.listening ∨ c.net.queue S.server ≠ []
    · exact server_goes_on hperf hadd (hat S.server) hserver
    · rw [not_or, not_not, not_not] at hserver
      cases hrequest : c.net.flight (i, S.server) with
      | cons p rest => exact ⟨.transit (.arrive i S.server 0), _, rfl, step_arrive hrequest⟩
      | nil =>
        cases hreply : c.net.flight (S.server, i) with
        | cons p rest => exact ⟨.transit (.arrive S.server i 0), _, rfl, step_arrive hreply⟩
        | nil =>
          cases hqueue : c.net.queue i with
          | cons p rest =>
            obtain ⟨size, k, rfl, -⟩ := hp
            refine ⟨.party i (.received p), _, rfl, step_party (N := c.net.take i p)
              (x := .busy (.ask m) (k (.received (p.payload.take size) p.src))) ?_ ?_⟩
            · simp only [hact, Activity.next, if_true]
            · simp only [Net.effect, hqueue, List.head?_cons, if_true]
          | nil =>
            exfalso
            simp [underway, hserver, hrequest, hreply, hqueue, inService, computed,
              isWaiting] at hone
  | listening => exact absurd hplace (ne_server_of_client hi)
  | asking => exact absurd hplace.1 (ne_server_of_client hi)
  | answering => exact absurd hplace.1 (ne_server_of_client hi)
  | served => exact absurd hplace (ne_server_of_client hi)

/-- On a network that loses nothing, where nobody times out: a run has at most eleven steps for
each call of a client, and one more; and while a call is open something other than a new call can
happen. So every call returns. -/
theorem Performs.returns (hperf : S.Performs dest D) (hloss : P.lossy = false)
    (htime : ∀ i, P.timeouts i = false) {ls : List (Label A Unit Work Outcome)}
    (hrun : (network D P).run ls (network D P).init = some c) :
    (∀ T : Finset A, (∀ i, S.clients i = true → c.net.started i ≠ [] → i ∈ T) →
      ls.length ≤ 11 * ∑ i ∈ T, (c.net.started i).length + 1) ∧
    ∀ i, S.clients i = true → c.act i ≠ .idle →
      ∃ l c', asks l = false ∧ step D P l c = some c' := by
  obtain ⟨φ, ⟨hadd, hone, T, hsteps⟩, hat⟩ := hperf.counted (P := P)
    (I := fun n N φ => S.Addressed N φ ∧
      (∀ i, S.clients i = true → S.underway i N φ = isWaiting (φ i)) ∧
      ∃ T, S.Accounted n T N φ)
    ⟨addressed_empty, fun _ _ => rfl, ∅, accounted_empty⟩ (fun _ _ _ h => h.1)
    (fun n N φ N' φ' h hcourse => by
      obtain ⟨hadd, hone, T, hsteps⟩ := h
      have hsure := hcourse.sure_of hloss htime
      exact ⟨hcourse.addressed hadd, fun i hi => underway_step hsure hadd hi (hone i hi),
        hsteps.step hsure hadd⟩) hrun
  constructor
  · intro T' hT'
    -- a client that asked nothing adds nothing to the sum
    have hcalls : ∑ i ∈ T, (c.net.started i).length ≤ ∑ i ∈ T', (c.net.started i).length := by
      apply Finset.sum_le_sum_of_ne_zero
      intro i hi hne
      exact hT' i (hsteps.clients i hi) fun h => hne (by rw [h, List.length_nil])
    have hlistening : isListening (φ S.server) ≤ 1 := by
      cases φ S.server <;> simp [isListening]
    have hexact := hsteps.steps
    omega
  · intro i hi hbusy
    exact client_goes_on hperf hadd hat hi (hone i hi) hbusy

end Progress

end Service

end Marko
