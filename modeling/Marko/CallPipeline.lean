import Mathlib.Data.List.Nodup
import Mathlib.Data.List.Perm.Subperm
import Mathlib.Data.List.Range

/-! Calls that a caller makes one after another over a lossy pipeline that keeps order, and
their answers. The answers name no call: the numbers below are the observer's. -/
namespace CallPipeline

variable {M R : Type}

/-- The calls asked so far, and the numbered calls that wait for the callee, that it has
served, whose answers are on their way back, and whose answers came back. -/
structure Calls (M R : Type) where
  asked : List M
  requests : List (ℕ × M)
  served : List (ℕ × M)
  replies : List (ℕ × R)
  answered : List (ℕ × R)

/-- A call is asked, some calls or answers are lost, the callee serves its oldest call, or the
caller sees the oldest answer. -/
inductive Step (f : M → R) (c : Calls M R) : Calls M R → Prop where
  | ask (m : M) :
      Step f c { c with asked := c.asked ++ [m], requests := c.requests ++ [(c.asked.length, m)] }
  | lose {requests : List (ℕ × M)} {replies : List (ℕ × R)}
      (hreq : requests.Sublist c.requests) (hrep : replies.Sublist c.replies) :
      Step f c { c with requests := requests, replies := replies }
  | serve {k : ℕ} {m : M} {requests : List (ℕ × M)} (hreq : c.requests = (k, m) :: requests) :
      Step f c { c with
        requests := requests
        served := c.served ++ [(k, m)]
        replies := c.replies ++ [(k, f m)] }
  | answer {k : ℕ} {r : R} {replies : List (ℕ × R)} (hrep : c.replies = (k, r) :: replies) :
      Step f c { c with replies := replies, answered := c.answered ++ [(k, r)] }

section Parts

/-! The steps by what they do to each part of the calls. -/

variable {f : M → R} {c c' : Calls M R} {k : ℕ} {m : M} {r : R}

theorem Step.of_eq (h : c' = c) : Step f c c' := by
  subst h
  exact .lose (List.Sublist.refl _) (List.Sublist.refl _)

theorem Step.of_ask (hasked : c'.asked = c.asked ++ [m])
    (hreq : c'.requests = c.requests ++ [(c.asked.length, m)]) (hserved : c'.served = c.served)
    (hrep : c'.replies = c.replies) (hanswered : c'.answered = c.answered) : Step f c c' := by
  cases c'
  simp only at hasked hreq hserved hrep hanswered
  subst hasked hreq hserved hrep hanswered
  exact .ask m

theorem Step.of_lose (hasked : c'.asked = c.asked) (hreq : c'.requests.Sublist c.requests)
    (hserved : c'.served = c.served) (hrep : c'.replies.Sublist c.replies)
    (hanswered : c'.answered = c.answered) : Step f c c' := by
  cases c'
  simp only at hasked hreq hserved hrep hanswered
  subst hasked hserved hanswered
  exact .lose hreq hrep

theorem Step.of_serve (hasked : c'.asked = c.asked) (hreq : c.requests = (k, m) :: c'.requests)
    (hserved : c'.served = c.served ++ [(k, m)]) (hrep : c'.replies = c.replies ++ [(k, f m)])
    (hanswered : c'.answered = c.answered) : Step f c c' := by
  cases c'
  simp only at hasked hreq hserved hrep hanswered
  subst hasked hserved hrep hanswered
  exact .serve hreq

theorem Step.of_answer (hasked : c'.asked = c.asked) (hreq : c'.requests = c.requests)
    (hserved : c'.served = c.served) (hrep : c.replies = (k, r) :: c'.replies)
    (hanswered : c'.answered = c.answered ++ [(k, r)]) : Step f c c' := by
  cases c'
  simp only at hasked hreq hserved hrep hanswered
  subst hasked hreq hserved hanswered
  exact .answer hrep

end Parts

/-- The numbers of all calls that were or may still be answered. -/
def Calls.answerable (c : Calls M R) : List ℕ :=
  c.answered.map Prod.fst ++ c.replies.map Prod.fst ++ c.requests.map Prod.fst

def Calls.servable (c : Calls M R) : List ℕ := c.served.map Prod.fst ++ c.requests.map Prod.fst

/-- Calls are answered and served in the order in which they were asked, at most once each,
and with what belongs to them. -/
structure Ordered (f : M → R) (c : Calls M R) : Prop where
  answerable : c.answerable.Pairwise (· < ·)
  servable : c.servable.Pairwise (· < ·)
  request : ∀ t ∈ c.requests, c.asked[t.1]? = some t.2
  served : ∀ t ∈ c.served, c.asked[t.1]? = some t.2
  reply : ∀ t ∈ c.replies, ∃ m, c.asked[t.1]? = some m ∧ t.2 = f m
  answered : ∀ t ∈ c.answered, ∃ m, c.asked[t.1]? = some m ∧ t.2 = f m

variable {f : M → R} {c c' : Calls M R}

theorem ordered_empty : Ordered f ⟨[], [], [], [], []⟩ := by
  constructor <;> simp [Calls.answerable, Calls.servable]

theorem lt_length_of_getElem?_eq_some {α : Type} {l : List α} {n : ℕ} {a : α}
    (h : l[n]? = some a) : n < l.length :=
  (List.getElem?_eq_some_iff.mp h).1

theorem Ordered.lt_of_mem_answerable (h : Ordered f c) {n : ℕ} (hn : n ∈ c.answerable) :
    n < c.asked.length := by
  simp only [Calls.answerable, List.mem_append, List.mem_map, or_assoc] at hn
  rcases hn with ⟨t, ht, rfl⟩ | ⟨t, ht, rfl⟩ | ⟨t, ht, rfl⟩
  · obtain ⟨m, hm, -⟩ := h.answered t ht
    exact lt_length_of_getElem?_eq_some hm
  · obtain ⟨m, hm, -⟩ := h.reply t ht
    exact lt_length_of_getElem?_eq_some hm
  · exact lt_length_of_getElem?_eq_some (h.request t ht)

theorem Ordered.lt_of_mem_servable (h : Ordered f c) {n : ℕ} (hn : n ∈ c.servable) :
    n < c.asked.length := by
  simp only [Calls.servable, List.mem_append, List.mem_map] at hn
  rcases hn with ⟨t, ht, rfl⟩ | ⟨t, ht, rfl⟩
  · exact lt_length_of_getElem?_eq_some (h.served t ht)
  · exact lt_length_of_getElem?_eq_some (h.request t ht)

theorem pairwise_lt_concat {l : List ℕ} {n : ℕ} (hl : l.Pairwise (· < ·))
    (hn : ∀ x ∈ l, x < n) : (l ++ [n]).Pairwise (· < ·) := by
  rw [List.pairwise_append]
  refine ⟨hl, List.pairwise_singleton _ _, ?_⟩
  intro x hx y hy
  rw [List.mem_singleton.mp hy]
  exact hn x hx

theorem getElem?_concat_of_eq_some {α : Type} {l : List α} {n : ℕ} {a b : α}
    (h : l[n]? = some a) : (l ++ [b])[n]? = some a := by
  rw [List.getElem?_append_left (lt_length_of_getElem?_eq_some h), h]

theorem Ordered.step (h : Ordered f c) (hstep : Step f c c') : Ordered f c' := by
  cases hstep with
  | ask m =>
    -- the new number is the length of `asked`, above all numbers so far
    have hanswerable := pairwise_lt_concat h.answerable fun _ => h.lt_of_mem_answerable
    have hservable := pairwise_lt_concat h.servable fun _ => h.lt_of_mem_servable
    constructor
    · simpa only [Calls.answerable, List.map_append, List.map_cons, List.map_nil,
        List.append_assoc] using hanswerable
    · simpa only [Calls.servable, List.map_append, List.map_cons, List.map_nil,
        List.append_assoc] using hservable
    · intro t ht
      rcases List.mem_append.mp ht with ht | ht
      · exact getElem?_concat_of_eq_some (h.request t ht)
      · rw [List.mem_singleton.mp ht]
        exact List.getElem?_concat_length
    · exact fun t ht => getElem?_concat_of_eq_some (h.served t ht)
    · intro t ht
      obtain ⟨m, hm, hr⟩ := h.reply t ht
      exact ⟨m, getElem?_concat_of_eq_some hm, hr⟩
    · intro t ht
      obtain ⟨m, hm, hr⟩ := h.answered t ht
      exact ⟨m, getElem?_concat_of_eq_some hm, hr⟩
  | lose hreq hrep =>
    -- what is left of an increasing list increases
    constructor
    · refine List.Pairwise.sublist ?_ h.answerable
      exact ((List.Sublist.refl _).append (hrep.map _)).append (hreq.map _)
    · refine List.Pairwise.sublist ?_ h.servable
      exact (List.Sublist.refl _).append (hreq.map _)
    · exact fun t ht => h.request t (hreq.subset ht)
    · exact h.served
    · exact fun t ht => h.reply t (hrep.subset ht)
    · exact h.answered
  | @serve k m requests hreq =>
    -- the oldest request moves to the end of `served` and of `replies`: in both lists of
    -- numbers it keeps its place
    have hk := h.request (k, m) (hreq ▸ List.mem_cons_self)
    constructor
    · simpa only [Calls.answerable, hreq, List.map_append, List.map_cons, List.map_nil,
        List.append_assoc, List.singleton_append] using h.answerable
    · simpa only [Calls.servable, hreq, List.map_append, List.map_cons, List.map_nil,
        List.append_assoc, List.singleton_append] using h.servable
    · exact fun t ht => h.request t (hreq ▸ List.mem_cons_of_mem _ ht)
    · intro t ht
      rcases List.mem_append.mp ht with ht | ht
      · exact h.served t ht
      · rw [List.mem_singleton.mp ht]
        exact hk
    · intro t ht
      rcases List.mem_append.mp ht with ht | ht
      · exact h.reply t ht
      · rw [List.mem_singleton.mp ht]
        exact ⟨m, hk, rfl⟩
    · exact h.answered
  | @answer k r replies hrep =>
    -- likewise the oldest reply moves to the end of `answered`
    constructor
    · simpa only [Calls.answerable, hrep, List.map_append, List.map_cons, List.map_nil,
        List.append_assoc, List.singleton_append] using h.answerable
    · exact h.servable
    · exact h.request
    · exact h.served
    · exact fun t ht => h.reply t (hrep ▸ List.mem_cons_of_mem _ ht)
    · intro t ht
      rcases List.mem_append.mp ht with ht | ht
      · exact h.answered t ht
      · rw [List.mem_singleton.mp ht]
        exact h.reply (k, r) (hrep ▸ List.mem_cons_self)

theorem length_le_of_pairwise_lt {l : List ℕ} {n : ℕ} (hl : l.Pairwise (· < ·))
    (hn : ∀ x ∈ l, x < n) : l.length ≤ n := by
  have hnodup : l.Nodup := hl.imp Nat.ne_of_lt
  have hsub : l ⊆ List.range n := fun x hx => List.mem_range.mpr (hn x hx)
  simpa only [List.length_range] using (hnodup.subperm hsub).length_le

/-- No more answers are due than calls were asked and not answered yet. -/
theorem Ordered.length_open_le (h : Ordered f c) :
    c.answered.length + c.replies.length + c.requests.length ≤ c.asked.length := by
  have hle := length_le_of_pairwise_lt h.answerable fun _ => h.lt_of_mem_answerable
  simpa only [Calls.answerable, List.length_append, List.length_map] using hle

/-- Answers come back in the order of their calls. -/
theorem Ordered.lt_of_answered (h : Ordered f c) {before after : List (ℕ × R)} {t u : ℕ × R}
    (hsplit : c.answered = before ++ t :: after) (hu : u ∈ before) : u.1 < t.1 := by
  have hpair := h.answerable
  simp only [Calls.answerable, hsplit, List.map_append, List.map_cons, List.append_assoc,
    List.cons_append, List.pairwise_append, List.mem_cons] at hpair
  exact hpair.2.2 _ (List.mem_map_of_mem hu) _ (.inl rfl)

theorem Ordered.length_le_of_answered (h : Ordered f c) {before after : List (ℕ × R)}
    {t : ℕ × R} (hsplit : c.answered = before ++ t :: after) : before.length ≤ t.1 := by
  have hpair : (before.map Prod.fst).Pairwise (· < ·) := by
    have hall := h.answerable
    simp only [Calls.answerable, hsplit, List.map_append, List.append_assoc] at hall
    exact (List.pairwise_append.mp hall).1
  have hle := length_le_of_pairwise_lt hpair fun x hx => by
    obtain ⟨u, hu, rfl⟩ := List.mem_map.mp hx
    exact h.lt_of_answered hsplit hu
  simpa only [List.length_map] using hle

end CallPipeline
