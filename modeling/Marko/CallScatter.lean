import Mathlib.Data.List.Perm.Basic
import Marko.CallPipeline

/-! The calls of `CallPipeline` over a channel that also reorders as it likes. What is left of
the order is that no call is served or answered twice, or with what belongs to another one. -/
namespace CallPipeline

variable {M R : Type}

/-- The steps of `Step`, but any of the calls or answers under way may come next. -/
inductive Scatter (f : M → R) (c : Calls M R) : Calls M R → Prop where
  | ask (m : M) : Scatter f c
      { c with asked := c.asked ++ [m], requests := c.requests ++ [(c.asked.length, m)] }
  | lose {requests : List (ℕ × M)} {replies : List (ℕ × R)}
      (hreq : requests.Subperm c.requests) (hrep : replies.Subperm c.replies) :
      Scatter f c { c with requests := requests, replies := replies }
  | serve {k : ℕ} {m : M} {requests : List (ℕ × M)}
      (hreq : ((k, m) :: requests).Subperm c.requests) :
      Scatter f c { c with
        requests := requests
        served := c.served ++ [(k, m)]
        replies := c.replies ++ [(k, f m)] }
  | answer {k : ℕ} {r : R} {replies : List (ℕ × R)}
      (hrep : ((k, r) :: replies).Subperm c.replies) :
      Scatter f c { c with replies := replies, answered := c.answered ++ [(k, r)] }

/-- No call is served or answered twice, each with what belongs to it, and only calls that were
served are answered. -/
structure Matched (f : M → R) (c : Calls M R) : Prop where
  answerable : c.answerable.Nodup
  servable : c.servable.Nodup
  request : ∀ t ∈ c.requests, c.asked[t.1]? = some t.2
  served : ∀ t ∈ c.served, c.asked[t.1]? = some t.2
  reply : ∀ t ∈ c.replies, ∃ m, (t.1, m) ∈ c.served ∧ t.2 = f m
  answered : ∀ t ∈ c.answered, ∃ m, (t.1, m) ∈ c.served ∧ t.2 = f m

variable {f : M → R} {c c' : Calls M R}

theorem Step.scatter (h : Step f c c') : Scatter f c c' := by
  cases h with
  | ask m => exact .ask m
  | lose hreq hrep => exact .lose hreq.subperm hrep.subperm
  | serve hreq => exact .serve (hreq ▸ List.Subperm.refl _)
  | answer hrep => exact .answer (hrep ▸ List.Subperm.refl _)

theorem Scatter.of_lose (hasked : c'.asked = c.asked) (hreq : c'.requests.Subperm c.requests)
    (hserved : c'.served = c.served) (hrep : c'.replies.Subperm c.replies)
    (hanswered : c'.answered = c.answered) : Scatter f c c' := by
  cases c'
  simp only at hasked hreq hserved hrep hanswered
  subst hasked hserved hanswered
  exact .lose hreq hrep

theorem matched_empty : Matched f ⟨[], [], [], [], []⟩ := by
  constructor <;> simp [Calls.answerable, Calls.servable]

theorem subperm_map {α β : Type} (g : α → β) {xs ys : List α} (h : xs.Subperm ys) :
    (xs.map g).Subperm (ys.map g) := by
  obtain ⟨zs, hperm, hsub⟩ := h
  exact ⟨zs.map g, hperm.map g, hsub.map g⟩

theorem nodup_of_subperm {α : Type} {xs ys : List α} (h : xs.Subperm ys) (hys : ys.Nodup) :
    xs.Nodup := by
  obtain ⟨zs, hperm, hsub⟩ := h
  exact hperm.nodup_iff.mp (hys.sublist hsub)

theorem Matched.lt_of_mem_served (h : Matched f c) {n : ℕ} {m : M} (hn : (n, m) ∈ c.served) :
    n < c.asked.length :=
  lt_length_of_getElem?_eq_some (h.served _ hn)

theorem Matched.lt_of_mem_answerable (h : Matched f c) {n : ℕ} (hn : n ∈ c.answerable) :
    n < c.asked.length := by
  simp only [Calls.answerable, List.mem_append, List.mem_map, or_assoc] at hn
  rcases hn with ⟨t, ht, rfl⟩ | ⟨t, ht, rfl⟩ | ⟨t, ht, rfl⟩
  · obtain ⟨m, hm, -⟩ := h.answered t ht
    exact h.lt_of_mem_served hm
  · obtain ⟨m, hm, -⟩ := h.reply t ht
    exact h.lt_of_mem_served hm
  · exact lt_length_of_getElem?_eq_some (h.request t ht)

theorem Matched.lt_of_mem_servable (h : Matched f c) {n : ℕ} (hn : n ∈ c.servable) :
    n < c.asked.length := by
  simp only [Calls.servable, List.mem_append, List.mem_map] at hn
  rcases hn with ⟨t, ht, rfl⟩ | ⟨t, ht, rfl⟩
  · exact lt_length_of_getElem?_eq_some (h.served t ht)
  · exact lt_length_of_getElem?_eq_some (h.request t ht)

theorem nodup_concat {l : List ℕ} {n : ℕ} (hl : l.Nodup) (hn : ∀ x ∈ l, x < n) :
    (l ++ [n]).Nodup := by
  rw [List.nodup_append]
  refine ⟨hl, List.nodup_singleton n, ?_⟩
  intro x hx y hy
  rw [List.mem_singleton.mp hy]
  exact Nat.ne_of_lt (hn x hx)

theorem Matched.step (h : Matched f c) (hstep : Scatter f c c') : Matched f c' := by
  cases hstep with
  | ask m =>
    -- the new number is the length of `asked`, above all numbers so far
    have hanswerable := nodup_concat h.answerable fun _ => h.lt_of_mem_answerable
    have hservable := nodup_concat h.servable fun _ => h.lt_of_mem_servable
    refine ⟨?_, ?_, ?_, ?_, h.reply, h.answered⟩
    · simpa only [Calls.answerable, List.map_append, List.map_cons, List.map_nil,
        List.append_assoc] using hanswerable
    · simpa only [Calls.servable, List.map_append, List.map_cons, List.map_nil,
        List.append_assoc] using hservable
    · intro t ht
      rcases List.mem_append.mp ht with ht | ht
      · exact getElem?_concat_of_eq_some (h.request t ht)
      · rw [List.mem_singleton.mp ht]
        exact List.getElem?_concat_length
    · exact fun t ht => getElem?_concat_of_eq_some (h.served t ht)
  | lose hreq hrep =>
    refine ⟨?_, ?_, fun t ht => h.request t (hreq.subset ht), h.served,
      fun t ht => h.reply t (hrep.subset ht), h.answered⟩
    · refine nodup_of_subperm ?_ h.answerable
      exact ((List.subperm_append_left _).mpr (subperm_map _ hrep)).append (subperm_map _ hreq)
    · refine nodup_of_subperm ?_ h.servable
      exact (List.subperm_append_left _).mpr (subperm_map _ hreq)
  | @serve k m requests hreq =>
    have hk := h.request (k, m) (hreq.subset List.mem_cons_self)
    have hkeys := subperm_map Prod.fst hreq
    rw [List.map_cons] at hkeys
    have hserved {t : ℕ × M} (ht : t ∈ c.served) : t ∈ c.served ++ [(k, m)] :=
      List.mem_append_left _ ht
    refine ⟨?_, ?_, ?_, ?_, ?_, ?_⟩
    · refine nodup_of_subperm ?_ h.answerable
      simp only [Calls.answerable, List.map_append, List.map_cons, List.map_nil, List.append_assoc,
        List.singleton_append]
      exact (List.subperm_append_left _).mpr ((List.subperm_append_left _).mpr hkeys)
    · refine nodup_of_subperm ?_ h.servable
      simp only [Calls.servable, List.map_append, List.map_cons, List.map_nil, List.append_assoc,
        List.singleton_append]
      exact (List.subperm_append_left _).mpr hkeys
    · exact fun t ht => h.request t (hreq.subset (List.mem_cons_of_mem _ ht))
    · intro t ht
      rcases List.mem_append.mp ht with ht | ht
      · exact h.served t ht
      · rw [List.mem_singleton.mp ht]
        exact hk
    · intro t ht
      rcases List.mem_append.mp ht with ht | ht
      · obtain ⟨m', hm', hr⟩ := h.reply t ht
        exact ⟨m', hserved hm', hr⟩
      · rw [List.mem_singleton.mp ht]
        exact ⟨m, List.mem_append_right _ (List.mem_singleton.mpr rfl), rfl⟩
    · intro t ht
      obtain ⟨m', hm', hr⟩ := h.answered t ht
      exact ⟨m', hserved hm', hr⟩
  | @answer k r replies hrep =>
    have hkeys := subperm_map Prod.fst hrep
    rw [List.map_cons] at hkeys
    refine ⟨?_, h.servable, h.request, h.served,
      fun t ht => h.reply t (hrep.subset (List.mem_cons_of_mem _ ht)), ?_⟩
    · refine nodup_of_subperm ?_ h.answerable
      simp only [Calls.answerable, List.map_append, List.map_cons, List.map_nil, List.append_assoc,
        List.singleton_append]
      refine (List.subperm_append_left _).mpr ?_
      exact (List.subperm_append_right (c.requests.map Prod.fst)).mpr hkeys
    · intro t ht
      rcases List.mem_append.mp ht with ht | ht
      · exact h.answered t ht
      · rw [List.mem_singleton.mp ht]
        exact h.reply (k, r) (hrep.subset List.mem_cons_self)

theorem length_le_of_nodup {l : List ℕ} {n : ℕ} (hl : l.Nodup) (hn : ∀ x ∈ l, x < n) :
    l.length ≤ n := by
  have hsub : l ⊆ List.range n := fun x hx => List.mem_range.mpr (hn x hx)
  simpa only [List.length_range] using (hl.subperm hsub).length_le

/-- No more answers are due than calls were asked and not answered yet. -/
theorem Matched.length_open_le (h : Matched f c) :
    c.answered.length + c.replies.length + c.requests.length ≤ c.asked.length := by
  have hle := length_le_of_nodup h.answerable fun _ => h.lt_of_mem_answerable
  simpa only [Calls.answerable, List.length_append, List.length_map] using hle

end CallPipeline
