import Mathlib.Data.List.Forall2
import Marko.DatagramArrivals

/-! Programs and kernels with different types of addresses. A relation `r` says which addresses
of the one type stand for which of the other; all else has to be the same. -/
namespace Datagram

open Interaction

variable {A B K V α β σ τ : Type}

inductive RecvAnswer.Alike (r : A → B → Prop) : RecvAnswer A → RecvAnswer B → Prop
  | received (bytes : Bytes) {a : A} {b : B} (h : r a b) :
      Alike r (.received bytes a) (.received bytes b)
  | failed (e : Errno) : Alike r (.failed e) (.failed e)

inductive Call.Alike (r : A → B → Prop) : Call A K → Call B K → Prop
  | sendto (msg : Bytes) {a : A} {b : B} (h : r a b) (flags : ℤ) :
      Alike r (.sendto msg a flags) (.sendto msg b flags)
  | recvfrom (size : ℕ) (flags : ℤ) : Alike r (.recvfrom size flags) (.recvfrom size flags)
  | callback (cb : K) (msg : Bytes) : Alike r (.callback cb msg) (.callback cb msg)

/-- Programs that make the same calls up to `r`, and end with results related by `q`. -/
inductive Alike (r : A → B → Prop) (q : α → β → Prop) : Prog A K V α → Prog B K V β → Prop
  | done {a : α} {b : β} (h : q a b) : Alike r q (.done a) (.done b)
  | sendto (msg : Bytes) {a : A} {b : B} (h : r a b) (flags : ℤ)
      {k : SendAnswer → Prog A K V α} {k' : SendAnswer → Prog B K V β}
      (hk : ∀ ans, Alike r q (k ans) (k' ans)) :
      Alike r q (.call (.sendto msg a flags) k) (.call (.sendto msg b flags) k')
  | recvfrom (size : ℕ) (flags : ℤ) {k : RecvAnswer A → Prog A K V α}
      {k' : RecvAnswer B → Prog B K V β}
      (hk : ∀ ans ans', ans.Alike r ans' → Alike r q (k ans) (k' ans')) :
      Alike r q (.call (.recvfrom size flags) k) (.call (.recvfrom size flags) k')
  | callback (cb : K) (msg : Bytes) {k : V → Prog A K V α} {k' : V → Prog B K V β}
      (hk : ∀ v, Alike r q (k v) (k' v)) :
      Alike r q (.call (.callback cb msg) k) (.call (.callback cb msg) k')

/-- Kernels that answer those calls alike, and keep their states related by `R`. -/
structure KernelsAlike (r : A → B → Prop) (R : σ → τ → Prop) (h : Handler (sig A K V) σ)
    (h' : Handler (sig B K V) τ) : Prop where
  sendto : ∀ msg a b flags s t, r a b → R s t →
    (h (.sendto msg a flags) s).1 = (h' (.sendto msg b flags) t).1 ∧
      R (h (.sendto msg a flags) s).2 (h' (.sendto msg b flags) t).2
  recvfrom : ∀ size flags s t, R s t →
    RecvAnswer.Alike r (h (.recvfrom size flags) s).1 (h' (.recvfrom size flags) t).1 ∧
      R (h (.recvfrom size flags) s).2 (h' (.recvfrom size flags) t).2
  callback : ∀ cb msg s t, R s t →
    (h (.callback cb msg) s).1 = (h' (.callback cb msg) t).1 ∧
      R (h (.callback cb msg) s).2 (h' (.callback cb msg) t).2

/-- Under every two kernels that are alike: related results, related states in the end, and
the same calls up to `r`. -/
def BehavesAlike (r : A → B → Prop) (q : α → β → Prop) (p : Prog A K V α) (p' : Prog B K V β) :
    Prop :=
  ∀ (σ τ : Type) (R : σ → τ → Prop) (h : Handler (sig A K V) σ) (h' : Handler (sig B K V) τ),
    KernelsAlike r R h h' → ∀ s t, R s t →
      q (p.exec h s).1 (p'.exec h' t).1 ∧ R (p.exec h s).2 (p'.exec h' t).2 ∧
        List.Forall₂ (Call.Alike r) (p.trace h s) (p'.trace h' t)

theorem Alike.behavesAlike {r : A → B → Prop} {q : α → β → Prop} {p : Prog A K V α}
    {p' : Prog B K V β} (hp : Alike r q p p') : BehavesAlike r q p p' := by
  intro σ τ R h h' hkernels
  -- one case for each call; what the kernels answer selects the continuations
  induction hp with
  | done hq => exact fun s t hR => ⟨hq, hR, .nil⟩
  | @sendto msg a b hab flags k k' hk ih =>
    intro s t hR
    obtain ⟨hans, hnext⟩ := hkernels.sendto msg a b flags s t hab hR
    obtain ⟨hq, hend, htrace⟩ := ih _ _ _ hnext
    simp only [Program.exec_call, Program.trace_call, hans]
    exact ⟨hq, hend, .cons (.sendto msg hab flags) htrace⟩
  | @recvfrom size flags k k' hk ih =>
    intro s t hR
    obtain ⟨hans, hnext⟩ := hkernels.recvfrom size flags s t hR
    obtain ⟨hq, hend, htrace⟩ := ih _ _ hans _ _ hnext
    exact ⟨hq, hend, .cons (.recvfrom size flags) htrace⟩
  | @callback cb msg k k' hk ih =>
    intro s t hR
    obtain ⟨hans, hnext⟩ := hkernels.callback cb msg s t hR
    obtain ⟨hq, hend, htrace⟩ := ih _ _ _ hnext
    simp only [Program.exec_call, Program.trace_call, hans]
    exact ⟨hq, hend, .cons (.callback cb msg) htrace⟩

inductive Arrival.Alike (r : A → B → Prop) : Arrival A → Arrival B → Prop
  | datagram (payload : Bytes) {a : A} {b : B} (h : r a b) :
      Alike r (.datagram payload a) (.datagram payload b)
  | timeout : Alike r .timeout .timeout

theorem arrivals_alike_refl (arrivals : List (Arrival A)) :
    List.Forall₂ (Arrival.Alike Eq) arrivals arrivals := by
  apply List.forall₂_same.mpr
  intro arrival _
  cases arrival with
  | datagram payload a => exact .datagram payload rfl
  | timeout => exact .timeout

/-- Two sockets that the same payloads arrive at, and whose sends go alike. -/
theorem arriving_alike {r : A → B → Prop} {T : σ → τ → Prop} (cb : K → Bytes → V)
    {send : Bytes → A → σ → SendAnswer × σ} {send' : Bytes → B → τ → SendAnswer × τ}
    (hsend : ∀ msg a b s t, r a b → T s t →
      (send msg a s).1 = (send' msg b t).1 ∧ T (send msg a s).2 (send' msg b t).2) :
    KernelsAlike r (fun w w' => List.Forall₂ (Arrival.Alike r) w.1 w'.1 ∧ T w.2 w'.2)
      (arriving cb send) (arriving cb send') where
  sendto msg a b flags w w' hab hw := by
    obtain ⟨hans, hnext⟩ := hsend msg a b w.2 w'.2 hab hw.2
    exact ⟨hans, hw.1, hnext⟩
  recvfrom size flags := by
    rintro ⟨arrivals, s⟩ ⟨arrivals', t⟩ ⟨harrivals, hst⟩
    cases harrivals with
    | nil => exact ⟨.failed .again, .nil, hst⟩
    | cons hone hrest =>
      cases hone with
      | datagram payload hab => exact ⟨.received (payload.take size) hab, hrest, hst⟩
      | timeout => exact ⟨.failed .again, hrest, hst⟩
  callback cb' msg w w' hw := ⟨rfl, hw⟩

/-- From the same arrivals, alike programs come to related results and leave the same behind. -/
theorem Alike.over_arrivals {r : A → B → Prop} {q : α → β → Prop} {p : Prog A K V α}
    {p' : Prog B K V β} (hp : Alike r q p p') (cb : K → Bytes → V) {arrivals : List (Arrival A)}
    {arrivals' : List (Arrival B)} (h : List.Forall₂ (Arrival.Alike r) arrivals arrivals') :
    q (p.exec (arriving cb acceptAll) (arrivals, ())).1
        (p'.exec (arriving cb acceptAll) (arrivals', ())).1 ∧
      List.Forall₂ (Arrival.Alike r) (p.exec (arriving cb acceptAll) (arrivals, ())).2.1
        (p'.exec (arriving cb acceptAll) (arrivals', ())).2.1 := by
  have haccept : ∀ (msg : Bytes) (a : A) (b : B) (s t : Unit), r a b → True →
      (acceptAll msg a s).1 = (acceptAll msg b t).1 ∧ True :=
    fun _ _ _ _ _ _ _ => ⟨rfl, trivial⟩
  have hkernels := arriving_alike (T := fun _ _ => True) cb haccept
  obtain ⟨hq, hend, -⟩ := hp.behavesAlike _ _ _ _ _ hkernels (arrivals, ()) (arrivals', ())
    ⟨h, trivial⟩
  exact ⟨hq, hend.1⟩

end Datagram
