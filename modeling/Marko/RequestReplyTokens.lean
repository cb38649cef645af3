import Marko.RequestReplySteps
import Marko.CallPipeline

/-! The calls of one client of a service as a pipeline: from the call to the server's queue,
through the callback, and back to the call's return. -/
namespace Marko

open Datagram CallPipeline

namespace Service

variable {A : Type} (S : Service A)

def requestToken (p : Packet A) : ℕ × Work := (p.cause.2, .ask p.payload)

def replyToken (p : Packet A) : ℕ × Message := (p.cause.2, p.payload)

def answerTo : Work → Message
  | .ask m => S.callback m
  | .serve => []

def unsent (c : A × ℕ) : Phase A → List (ℕ × Work)
  | .ready m => [(c.2, .ask m)]
  | _ => []

/-- An empty message is no answer: the call timed out. -/
def held (c : A × ℕ) : Phase A → List (ℕ × Message)
  | .got _ r => if r = [] then [] else [(c.2, r)]
  | _ => []

def answerOf (ret : Return A Work Outcome) : Option (ℕ × Message) :=
  match ret.result with
  | .reply r => if r = [] then none else some (ret.cause.2, r)
  | .served _ => none

variable [DecidableEq A]

def inService (i : A) (c : A × ℕ) : Phase A → List (ℕ × Work)
  | .asking src m => if src = i then [(c.2, .ask m)] else []
  | _ => []

def computed (i : A) (c : A × ℕ) : Phase A → List (ℕ × Message)
  | .answering src r => if src = i then [(c.2, r)] else []
  | _ => []

def calls (i : A) (N : NetState A) (φ : A → Phase A) : Calls Work Message where
  asked := N.started i
  -- oldest first: with the server, in its queue, under way, not sent yet
  requests := inService i (N.cause S.server) (φ S.server) ++
    ((N.queue S.server).filter fun p => p.src = i).map requestToken ++
    (N.flight (i, S.server)).map requestToken ++ unsent (N.cause i) (φ i)
  served := ((N.invoked S.server).filter fun v => v.cause.1 = i).map
    fun v => (v.cause.2, .ask v.msg)
  -- oldest first again: in the client's queue, under way, not sent yet
  replies := (N.queue i).map replyToken ++ (N.flight (S.server, i)).map replyToken ++
    computed i (N.cause S.server) (φ S.server)
  answered := (N.returned i).filterMap answerOf ++ held (N.cause i) (φ i)

variable {S} {P : Policy A} {N N' : NetState A} {φ φ' : A → Phase A} {i : A}

/-- The datagram that arrives is the oldest: the network keeps order, or there is only one. -/
theorem eq_cons_of_getElem? {α : Type} {reorder : Bool} {l : List α} {n : ℕ} {a : α}
    (horder : reorder = true ∨ n = 0) (hfifo : reorder = true → l.length ≤ 1)
    (ha : l[n]? = some a) : n = 0 ∧ ∃ rest, l = a :: rest := by
  have hn : n = 0 := by
    rcases horder with h | h
    · have hlt := lt_length_of_getElem?_eq_some ha
      have hle := hfifo h
      omega
    · exact h
  subst hn
  obtain ⟨rest, rfl⟩ := List.head?_eq_some_iff.mp (List.head?_eq_getElem? ▸ ha)
  exact ⟨rfl, rest, rfl⟩

theorem calls_step (hstep : S.Step P N φ N' φ') (hadd : S.Addressed N φ)
    (hi : S.clients i = true)
    (hfifo : P.reorder = true → (N.flight (i, S.server)).length ≤ 1 ∧
      (N.flight (S.server, i)).length ≤ 1) :
    CallPipeline.Step S.answerTo (S.calls i N φ) (S.calls i N' φ') := by
  have hia : i ≠ S.server := ne_server_of_client hi
  have hai : S.server ≠ i := hia.symm
  -- most steps move a call along within one of the five lists, or concern another client
  cases hstep with
  | ask j m hclient hphase hsize =>
    have hja := ne_server_of_client hclient
    by_cases hji : j = i
    · subst hji
      apply Step.of_ask (m := .ask m) <;> simp [calls, hai, hphase, held, unsent]
    · apply Step.of_eq
      simp [calls, hja.symm, Ne.symm hji]
  | request j m hclient hphase =>
    have hja := ne_server_of_client hclient
    apply Step.of_eq
    by_cases hji : j = i
    · subst hji
      simp [calls, hai, hphase, held, unsent, requestToken]
    · simp [calls, hja.symm, Ne.symm hji]
  | requestFails j m hclient hphase =>
    have hja := ne_server_of_client hclient
    by_cases hji : j = i
    · -- the request that was not sent is lost
      subst hji
      apply Step.of_lose <;> simp [calls, hai, hphase, held, unsent]
    · apply Step.of_eq
      simp [calls, hja.symm, Ne.symm hji]
  | reply j m p rest hclient hphase hqueue =>
    have hja := ne_server_of_client hclient
    by_cases hji : j = i
    · subst hji
      have hp := (hadd.queue j p (hqueue ▸ List.mem_cons_self)).reply_ne_nil hi
      apply Step.of_answer (k := p.cause.2) (r := p.payload) <;>
        simp [calls, hai, hphase, hqueue, held, unsent, hp, replyToken]
    · apply Step.of_eq
      simp [calls, hja.symm, Ne.symm hji]
  | giveUp j m hclient hphase htimeout =>
    have hja := ne_server_of_client hclient
    apply Step.of_eq
    by_cases hji : j = i
    · subst hji
      simp [calls, hai, hphase, held, unsent]
    · simp [calls, hja.symm, Ne.symm hji]
  | finish j m r hclient hphase =>
    have hja := ne_server_of_client hclient
    apply Step.of_eq
    by_cases hji : j = i
    · subst hji
      by_cases hr : r = [] <;>
        simp [calls, hai, hphase, held, unsent, answerOf, hr]
    · simp [calls, hja.symm, Ne.symm hji]
  | serve hphase =>
    apply Step.of_eq
    simp [calls, hia, hphase, inService, computed]
  | accept p rest hphase hqueue =>
    apply Step.of_eq
    by_cases hsrc : p.src = i <;>
      simp [calls, hia, hphase, hqueue, inService, computed, requestToken, hsrc]
  | serveTimesOut hphase =>
    apply Step.of_eq
    simp [calls, hia, hphase, inService, computed]
  | compute src m hphase =>
    obtain ⟨-, -, hcause, -⟩ := hadd.placed hphase
    by_cases hsrc : src = i
    · subst hsrc
      apply Step.of_serve (k := (N.cause S.server).2) (m := .ask m) <;>
        simp [calls, hia, hphase, inService, computed, answerTo, hcause]
    · apply Step.of_eq
      simp [calls, hia, hphase, inService, computed, hsrc, hcause]
  | answer src r hphase =>
    apply Step.of_eq
    by_cases hsrc : src = i
    · subst hsrc
      simp [calls, hia, hphase, inService, computed, replyToken]
    · simp [calls, hia, hphase, inService, computed, hsrc, Ne.symm hsrc]
  | answerFails src r hphase =>
    -- the reply that was not sent is lost
    apply Step.of_lose <;> simp [calls, hia, hphase, inService, computed]
  | served ok hphase =>
    apply Step.of_eq
    simp [calls, hia, hphase, inService, computed]
  | requestArrives j n p hclient horder hp =>
    obtain ⟨hsrc, -⟩ := hadd.flight j S.server p (List.mem_of_getElem? hp)
    apply Step.of_eq
    by_cases hji : j = i
    · subst hji
      obtain ⟨rfl, rest, hrest⟩ := eq_cons_of_getElem? horder (fun h => (hfifo h).1) hp
      simp [calls, hia, hai, hrest, hsrc]
    · have hpi : ¬ p.src = i := hsrc ▸ hji
      simp [calls, hia, Ne.symm hji, hpi]
  | replyArrives j n p hclient horder hp =>
    have hja := ne_server_of_client hclient
    apply Step.of_eq
    by_cases hji : j = i
    · subst hji
      obtain ⟨rfl, rest, hrest⟩ := eq_cons_of_getElem? horder (fun h => (hfifo h).2) hp
      simp [calls, hia, hai, hrest]
    · simp [calls, hja.symm, hia, Ne.symm hji]
  | lose src dst n =>
    apply Step.of_lose
    · rfl
    · exact ((List.Sublist.refl _).append ((Net.lose_flight_sublist _).map _)).append
        (List.Sublist.refl _)
    · rfl
    · exact ((List.Sublist.refl _).append ((Net.lose_flight_sublist _).map _)).append
        (List.Sublist.refl _)
    · rfl

end Service

end Marko
