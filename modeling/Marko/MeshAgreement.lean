import Marko.MeshStations
import Marko.MarkoReceive

/-! When a C++ and a Python subscriber tell their callbacks the same. -/
namespace Interop

open Datagram Interaction Pymarko

variable {K σ : Type}

/-- The callbacks of as many rounds of a receiving program as there are arrivals. -/
def callbacksOf {V R : Type} (p : Prog Address K V R)
    (h : Handler (sig Address K V) (List (Arrival Address) × σ))
    (arrivals : List (Arrival Address)) (s : σ) : List (K × Bytes) :=
  (p.iterate h arrivals.length (arrivals, s)).flatMap fun r => callbacks r.2

theorem eq_of_flatMap_eq {α β : Type} {f g : α → List β} (hlen : ∀ x, (f x).length = (g x).length)
    {xs : List α} (h : xs.flatMap f = xs.flatMap g) : ∀ x ∈ xs, f x = g x := by
  induction xs with
  | nil => exact fun x hx => absurd hx List.not_mem_nil
  | cons x xs ih =>
    rw [List.flatMap_cons, List.flatMap_cons] at h
    obtain ⟨hx, hxs⟩ := List.append_inj h (hlen x)
    exact List.forall_mem_cons.mpr ⟨hx, ih hxs⟩

theorem length_asks (callbacks : List K) (size : ℕ) (d : Bytes) :
    ((Marko.Subscriber.mk callbacks size).asks d).length =
      (Subscriber.asks callbacks size d).length := by
  unfold Marko.Subscriber.asks Subscriber.asks
  split_ifs
  · rfl
  · rw [List.length_map, List.length_map]

theorem asks_eq_iff {callbacks : List K} {size : ℕ} {d : Bytes} :
    (Marko.Subscriber.mk callbacks size).asks d = Subscriber.asks callbacks size d ↔
      callbacks = [] ∨ d = [] ∨ size ≤ d.length := by
  unfold Marko.Subscriber.asks Subscriber.asks
  by_cases hnil : d.take size = []
  · rw [if_pos hnil, if_pos hnil]
    have hshort : size = 0 ∨ d = [] := List.take_eq_nil_iff.mp hnil
    refine iff_of_true rfl (.inr ?_)
    rcases hshort with rfl | hd
    · exact .inr (Nat.zero_le _)
    · exact .inl hd
  · rw [if_neg hnil, if_neg hnil]
    have hd : d ≠ [] := by
      rintro rfl
      exact hnil List.take_nil
    -- the padded buffer is the data exactly when the data fills it
    have hfill : Marko.fillBuffer size (d.take size) = d.take size ↔ size ≤ d.length := by
      rw [Marko.fillBuffer_eq_iff, List.length_take]
      omega
    cases callbacks with
    | nil => exact iff_of_true rfl (.inl rfl)
    | cons cb rest =>
      constructor
      · intro h
        have hhead := List.head_eq_of_cons_eq h
        exact .inr (.inr (hfill.mp (Prod.mk.inj hhead).2))
      · rintro (hcb | hnone | hsize)
        · cases hcb
        · exact absurd hnone hd
        · rw [hfill.mpr hsize]

/-- A C++ and a Python subscriber with the same callbacks and the same size invoke the same
callbacks on the same arrivals exactly when no datagram among them is shorter than that size,
empty ones apart: C++ pads a short one with zeros, Python hands it on as it is. -/
theorem subscribers_agree_iff (D : Marko.SocketDefs) (t : Marko.Transport) (callbacks : List K)
    (size : ℕ) (arrivals : List (Arrival Address)) (answer : K → Bytes → Option Bytes)
    (send : Bytes → Address → σ → SendAnswer × σ) (s : σ) :
    callbacksOf ((Marko.Subscriber.mk callbacks size).once (t.socketClass D))
        (arriving (fun _ _ => ()) send) arrivals s =
      callbacksOf (Subscriber.loopOnce callbacks size).run (arriving answer send) arrivals s ↔
    callbacks = [] ∨ ∀ payload src, .datagram payload src ∈ arrivals →
      payload = [] ∨ size ≤ payload.length := by
  unfold callbacksOf
  rw [((Marko.Subscriber.mk callbacks size).hears D t).callbacks_iterate,
    (Subscriber.hears callbacks size).callbacks_iterate]
  constructor
  · intro h
    have hlen (a : Arrival Address) : (a.asks (Marko.Subscriber.mk callbacks size).asks).length =
        (a.asks (Subscriber.asks callbacks size)).length := by
      cases a with
      | datagram payload src => exact length_asks callbacks size payload
      | timeout => rfl
    by_cases hcb : callbacks = []
    · exact .inl hcb
    · right
      intro payload src hmem
      exact (asks_eq_iff.mp (eq_of_flatMap_eq hlen h _ hmem)).resolve_left hcb
  · intro h
    apply List.flatMap_congr
    intro a ha
    cases a with
    | datagram payload src =>
      apply asks_eq_iff.mpr
      rcases h with hcb | hall
      · exact .inl hcb
      · exact .inr (hall payload src ha)
    | timeout => rfl

end Interop
