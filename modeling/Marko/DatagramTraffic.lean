import Mathlib.Data.List.Perm.Basic
import Mathlib.Data.List.Perm.Subperm
import Marko.DatagramNetwork

/-! What a run says of one party, and what a network keeps of the datagrams between two
parties, for every deployment and every run. -/
namespace Datagram

open Interaction (Machine)

section Kept

variable {α β : Type} {reorder lossy : Bool} {xs ys zs : List α}

/-- What becomes of `sent` on a network that may reorder or lose: `kept` is all of it, in order
unless the network reorders, and some of it when the network is lossy. -/
def Kept (reorder lossy : Bool) (kept sent : List α) : Prop :=
  match reorder, lossy with
  | false, false => kept = sent
  | false, true => kept.Sublist sent
  | true, false => kept.Perm sent
  | true, true => kept.Subperm sent

namespace Kept

theorem refl (xs : List α) : Kept reorder lossy xs xs := by
  cases reorder <;> cases lossy
  · exact rfl
  · exact List.Sublist.refl xs
  · exact List.Perm.refl xs
  · exact List.Subperm.refl xs

theorem of_eq (h : xs = ys) : Kept reorder lossy xs ys := h ▸ refl xs

theorem trans (h : Kept reorder lossy xs ys) (h' : Kept reorder lossy ys zs) :
    Kept reorder lossy xs zs := by
  cases reorder <;> cases lossy
  · exact Eq.trans h h'
  · exact List.Sublist.trans h h'
  · exact List.Perm.trans h h'
  · exact List.Subperm.trans h h'

theorem filter (f : α → Bool) (h : Kept reorder lossy xs ys) :
    Kept reorder lossy (xs.filter f) (ys.filter f) := by
  cases reorder <;> cases lossy
  · exact congrArg (List.filter f) h
  · exact List.Sublist.filter f h
  · exact List.Perm.filter f h
  · obtain ⟨zs, hperm, hsub⟩ := h
    exact ⟨zs.filter f, hperm.filter f, hsub.filter f⟩

/-- What keeps the order and loses no more is kept by any network. -/
theorem of_ordered (h : Kept false lossy xs ys) : Kept reorder lossy xs ys := by
  cases reorder <;> cases lossy
  · exact h
  · exact h
  · exact (show xs = ys from h) ▸ List.Perm.refl xs
  · exact List.Sublist.subperm h

theorem append_left (zs : List α) (h : Kept reorder lossy xs ys) :
    Kept reorder lossy (zs ++ xs) (zs ++ ys) := by
  cases reorder <;> cases lossy
  · exact congrArg (zs ++ ·) h
  · exact List.Sublist.append_left h zs
  · exact List.Perm.append_left zs h
  · exact (List.subperm_append_left zs).mpr h

theorem append_right (h : Kept reorder lossy xs ys) (zs : List α) :
    Kept reorder lossy (xs ++ zs) (ys ++ zs) := by
  cases reorder <;> cases lossy
  · exact congrArg (· ++ zs) h
  · exact List.Sublist.append_right h zs
  · exact List.Perm.append_right zs h
  · exact (List.subperm_append_right zs).mpr h

theorem map (f : α → β) (h : Kept reorder lossy xs ys) :
    Kept reorder lossy (xs.map f) (ys.map f) := by
  cases reorder <;> cases lossy
  · exact congrArg (List.map f) h
  · exact List.Sublist.map f h
  · exact List.Perm.map f h
  · obtain ⟨zs, hperm, hsub⟩ := h
    exact ⟨zs.map f, hperm.map f, hsub.map f⟩

/-- Whatever the network does, it delivers nothing twice and makes nothing up. -/
theorem subperm (h : Kept reorder lossy xs ys) : xs.Subperm ys := by
  cases reorder <;> cases lossy
  · exact (show xs = ys from h) ▸ List.Subperm.refl xs
  · exact List.Sublist.subperm h
  · exact List.Perm.subperm h
  · exact h

theorem sublist (h : Kept false lossy xs ys) : xs.Sublist ys := by
  cases lossy
  · exact (show xs = ys from h) ▸ List.Sublist.refl xs
  · exact h

theorem perm (h : Kept reorder false xs ys) : xs.Perm ys := by
  cases reorder
  · exact List.Perm.of_eq h
  · exact h

theorem of_sublist (hloss : lossy = true) (h : xs.Sublist ys) : Kept reorder lossy xs ys := by
  subst hloss
  cases reorder
  · exact h
  · exact h.subperm

theorem weaken (h : Kept reorder lossy xs ys) : Kept reorder true xs ys := by
  cases reorder
  · exact h.sublist
  · exact h.subperm

theorem symm (h : Kept reorder false xs ys) : Kept reorder false ys xs := by
  cases reorder
  · exact Eq.symm h
  · exact List.Perm.symm h

theorem flatMap (f : α → List β) (h : Kept reorder false xs ys) :
    Kept reorder false (xs.flatMap f) (ys.flatMap f) := by
  cases reorder
  · exact congrArg (List.flatMap f) h
  · exact List.Perm.flatMap_right f h

/-- To take any element first is to reorder, unless it is the first one. -/
theorem of_getElem? {n : ℕ} {x : α} (hn : reorder = true ∨ n = 0) (hx : xs[n]? = some x) :
    Kept reorder lossy (x :: xs.eraseIdx n) xs := by
  obtain ⟨hlt, rfl⟩ := List.getElem?_eq_some_iff.mp hx
  rcases hn with rfl | rfl
  · have hperm : (xs[n] :: xs.eraseIdx n).Perm xs := List.getElem_cons_eraseIdx_perm hlt
    cases lossy
    · exact hperm
    · exact hperm.subperm
  · apply of_eq
    rw [List.eraseIdx_zero, ← List.drop_one, ← List.drop_eq_getElem_cons hlt, List.drop_zero]

theorem eq_nil (h : Kept reorder lossy xs []) : xs = [] :=
  List.subperm_nil.mp h.subperm

end Kept

end Kept

variable {A K V J R : Type}

/-! What a party did in a run, and what the log of a run says of it. -/

def jobs (es : List (Event A K J R)) : List J :=
  es.filterMap fun
    | .start job => some job
    | _ => none

def taken (es : List (Event A K J R)) : List (Packet A) :=
  es.filterMap fun
    | .received p => some p
    | _ => none

def called (es : List (Event A K J R)) : List (K × Bytes) :=
  es.filterMap fun
    | .invoked cb msg => some (cb, msg)
    | _ => none

def posts (es : List (Event A K J R)) : List (Bytes × A) :=
  es.filterMap fun
    | .sent msg dst => some (msg, dst)
    | _ => none

theorem jobs_append (es fs : List (Event A K J R)) : jobs (es ++ fs) = jobs es ++ jobs fs :=
  List.filterMap_append

theorem taken_append (es fs : List (Event A K J R)) : taken (es ++ fs) = taken es ++ taken fs :=
  List.filterMap_append

theorem called_append (es fs : List (Event A K J R)) :
    called (es ++ fs) = called es ++ called fs :=
  List.filterMap_append

theorem posts_append (es fs : List (Event A K J R)) : posts (es ++ fs) = posts es ++ posts fs :=
  List.filterMap_append

variable [DecidableEq A]

def events (i : A) (ls : List (Label A K J R)) : List (Event A K J R) :=
  ls.filterMap fun
    | .party j e => if j = i then some e else none
    | .transit _ => none

def payloadsTo (dst : A) (ms : List (Bytes × A)) : List Bytes :=
  (ms.filter fun m => m.2 = dst).map Prod.fst

/-- The payloads of the datagrams that came from `src`. -/
def payloadsFrom (src : A) (ps : List (Packet A)) : List Bytes :=
  (ps.filter fun p => p.src = src).map Packet.payload

theorem events_party (i j : A) (e : Event A K J R) (ls : List (Label A K J R)) :
    events i (ls ++ [.party j e]) = events i ls ++ if j = i then [e] else [] := by
  rw [events, List.filterMap_append]
  split_ifs with hj <;> simp [events, hj]

theorem events_transit (i : A) (t : Transit A) (ls : List (Label A K J R)) :
    events i (ls ++ [.transit t]) = events i ls := by
  rw [events, List.filterMap_append]
  exact List.append_nil _

theorem payloadsTo_append (dst : A) (ms ns : List (Bytes × A)) :
    payloadsTo dst (ms ++ ns) = payloadsTo dst ms ++ payloadsTo dst ns := by
  rw [payloadsTo, List.filter_append, List.map_append, payloadsTo, payloadsTo]

theorem mem_payloadsFrom {p : Packet A} {ps : List (Packet A)} (hp : p ∈ ps) :
    p.payload ∈ payloadsFrom p.src ps :=
  List.mem_map_of_mem (List.mem_filter.mpr ⟨hp, decide_eq_true rfl⟩)

theorem payloadsFrom_append (src : A) (ps qs : List (Packet A)) :
    payloadsFrom src (ps ++ qs) = payloadsFrom src ps ++ payloadsFrom src qs := by
  rw [payloadsFrom, List.filter_append, List.map_append, payloadsFrom, payloadsFrom]

theorem payloadsFrom_cons (src : A) (p : Packet A) (ps : List (Packet A)) :
    payloadsFrom src (p :: ps) =
      (if p.src = src then [p.payload] else []) ++ payloadsFrom src ps := by
  by_cases hp : p.src = src <;> simp [payloadsFrom, hp]

theorem flatMap_ite_eq_singleton {β : Type} {srcs : List A} (hnodup : srcs.Nodup) {a : A}
    (ha : a ∈ srcs) (x : β) : (srcs.flatMap fun src => if a = src then [x] else []) = [x] := by
  induction srcs with
  | nil => exact absurd ha List.not_mem_nil
  | cons src srcs ih =>
    obtain ⟨hsrc, hnodup⟩ := List.nodup_cons.mp hnodup
    rw [List.flatMap_cons]
    by_cases heq : a = src
    · subst heq
      have hnone : (srcs.flatMap fun src => if a = src then [x] else []) = [] := by
        apply List.flatMap_eq_nil_iff.mpr
        intro src hmem
        exact if_neg fun h : a = src => hsrc (h ▸ hmem)
      rw [if_pos rfl, hnone, List.append_nil]
    · rw [if_neg heq, List.nil_append]
      exact ih hnodup ((List.mem_cons.mp ha).resolve_left heq)

/-- Datagrams by their sources: none is left out, and none counts twice. -/
theorem payloads_perm_sources {srcs : List A} (hnodup : srcs.Nodup) {ps : List (Packet A)}
    (hps : ∀ p ∈ ps, p.src ∈ srcs) :
    (ps.map Packet.payload).Perm (srcs.flatMap fun src => payloadsFrom src ps) := by
  induction ps with
  | nil =>
    have hnone : (srcs.flatMap fun src => payloadsFrom src ([] : List (Packet A))) = [] :=
      List.flatMap_eq_nil_iff.mpr fun _ _ => rfl
    rw [hnone]
    exact List.Perm.refl _
  | cons p ps ih =>
    have hhead := flatMap_ite_eq_singleton hnodup (hps p List.mem_cons_self) p.payload
    have hrest := ih fun q hq => hps q (List.mem_cons_of_mem p hq)
    have hsplit := List.flatMap_append_perm srcs
      (fun src => if p.src = src then [p.payload] else []) fun src => payloadsFrom src ps
    rw [hhead] at hsplit
    simp only [payloadsFrom_cons]
    exact (hrest.cons p.payload).trans hsplit

variable [DecidableEq K] [DecidableEq J] [DecidableEq R]

/-- What the network allows a party to meet, whatever the others do. -/
def Event.possible (P : Policy A) (i : A) : Event A K J R → Bool
  | .sendFails _ => P.lossy
  | .timedOut => P.timeouts i
  | _ => true

/-- A party on its own: its program goes through the events one after another. -/
def alone (D : Deployment A K V J R) (P : Policy A) (i : A) :
    Machine (Event A K J R) (Activity A K V J R) where
  init := .idle
  step e x := if e.possible P i then x.next D i e else none

variable {D : Deployment A K V J R} {P : Policy A} {c c' : Config A K V J R}
  {ls : List (Label A K J R)}

theorem step_cases {l : Label A K J R} (h : step D P l c = some c') :
    (∃ i e x N, l = .party i e ∧ (c.act i).next D i e = some x ∧ c.net.effect P i e = some N ∧
      c' = ⟨N, Function.update c.act i x⟩) ∨
    ∃ t N, l = .transit t ∧ c.net.transit P t = some N ∧ c' = ⟨N, c.act⟩ := by
  cases l with
  | party i e =>
    simp only [step, Option.bind_eq_bind, Option.bind_eq_some_iff, Option.some.injEq] at h
    obtain ⟨x, hx, N, hN, rfl⟩ := h
    exact .inl ⟨i, e, x, N, rfl, hx, hN, rfl⟩
  | transit t =>
    simp only [step, Option.map_eq_some_iff] at h
    obtain ⟨N, hN, rfl⟩ := h
    exact .inr ⟨t, N, rfl, hN, rfl⟩

omit [DecidableEq K] [DecidableEq J] [DecidableEq R] in
theorem Net.possible_of_effect {N N' : Net A K J R} {i : A} {e : Event A K J R}
    (h : N.effect P i e = some N') : e.possible P i = true := by
  cases e with
  | sendFails err => exact (effect_sendFails h).1
  | timedOut => exact (effect_timedOut h).1
  | _ => rfl

/-- However the parties are interleaved, each of them goes through its own events as if it were
alone. -/
theorem alone_run (hrun : (network D P).run ls (network D P).init = some c) (i : A) :
    (alone D P i).run (events i ls) (alone D P i).init = some (c.act i) := by
  refine (network D P).run_history (I := fun ls c =>
    (alone D P i).run (events i ls) (alone D P i).init = some (c.act i)) rfl ?_ hrun
  intro ls l c c' ih hstep
  rcases step_cases hstep with ⟨j, e, x, N, rfl, hx, hN, rfl⟩ | ⟨t, N, rfl, -, rfl⟩
  · rw [events_party]
    dsimp only
    by_cases hj : j = i
    · subst hj
      rw [if_pos rfl, Machine.run_concat, ih, Option.bind_some, Function.update_self]
      exact (if_pos (Net.possible_of_effect hN)).trans hx
    · rw [if_neg hj, List.append_nil, Function.update_of_ne (Ne.symm hj)]
      exact ih
  · rw [events_transit]
    exact ih

/-- A property of every party that its own events keep holds in every run. -/
theorem alone_invariant {I : List (Event A K J R) → Activity A K V J R → Prop} {i : A}
    (hinit : I [] .idle)
    (hstep : ∀ es e x x', I es x → e.possible P i = true → x.next D i e = some x' →
      I (es ++ [e]) x')
    (hrun : (network D P).run ls (network D P).init = some c) : I (events i ls) (c.act i) := by
  refine (alone D P i).run_history hinit ?_ (alone_run hrun i)
  intro es e x x' hI hnext
  obtain ⟨hpossible, hnext⟩ := Option.ite_none_right_eq_some.mp hnext
  exact hstep es e x x' hI hpossible hnext

namespace Net

variable {N N' : Net A K J R} {e : Event A K J R} {j : A}

/-! What one event adds to the logs and takes from the queues. -/

omit [DecidableEq K] [DecidableEq J] [DecidableEq R] in
theorem effect_started (h : N.effect P j e = some N') :
    N'.started = Function.update N.started j (N.started j ++ jobs [e]) := by
  cases e with
  | received p =>
    obtain ⟨rest, -, rfl⟩ := effect_received h
    simp [jobs]
  | sendFails err =>
    obtain ⟨-, rfl⟩ := effect_sendFails h
    simp [jobs]
  | timedOut =>
    obtain ⟨-, rfl⟩ := effect_timedOut h
    simp [jobs]
  | _ =>
    cases h
    simp [jobs]

/-- The callbacks that a party invoked, in order. -/
def calls (N : Net A K J R) (i : A) : List (K × Bytes) := (N.invoked i).map fun v => (v.cb, v.msg)

section Calls

omit [DecidableEq K] [DecidableEq J] [DecidableEq R]

variable (N) (i : A)

@[simp] theorem start_calls (job : J) : (N.start i job).calls = N.calls := rfl
@[simp] theorem post_calls (msg : Bytes) (dst : A) : (N.post i msg dst).calls = N.calls := rfl
@[simp] theorem take_calls (p : Packet A) : (N.take i p).calls = N.calls := rfl
@[simp] theorem conclude_calls (job : J) (r : R) : (N.conclude i job r).calls = N.calls := rfl

@[simp] theorem note_calls (cb : K) (msg : Bytes) :
    (N.note i cb msg).calls = Function.update N.calls i (N.calls i ++ [(cb, msg)]) := by
  ext j : 1
  by_cases hj : j = i
  · subst hj
    simp [calls]
  · simp [calls, hj]

end Calls

omit [DecidableEq K] [DecidableEq J] [DecidableEq R] in
theorem effect_calls (h : N.effect P j e = some N') :
    N'.calls = Function.update N.calls j (N.calls j ++ called [e]) := by
  cases e with
  | received p =>
    obtain ⟨rest, -, rfl⟩ := effect_received h
    simp [called]
  | sendFails err =>
    obtain ⟨-, rfl⟩ := effect_sendFails h
    simp [called]
  | timedOut =>
    obtain ⟨-, rfl⟩ := effect_timedOut h
    simp [called]
  | _ =>
    cases h
    simp [called]

omit [DecidableEq K] [DecidableEq J] [DecidableEq R] in
theorem effect_queue (h : N.effect P j e = some N') :
    (∀ i, i ≠ j → N'.queue i = N.queue i) ∧ taken [e] ++ N'.queue j = N.queue j := by
  cases e with
  | received p =>
    obtain ⟨rest, hqueue, rfl⟩ := effect_received h
    constructor
    · intro i hi
      exact Function.update_of_ne hi _ _
    · simp [taken, hqueue]
  | sendFails err =>
    obtain ⟨-, rfl⟩ := effect_sendFails h
    exact ⟨fun _ _ => rfl, rfl⟩
  | timedOut =>
    obtain ⟨-, rfl⟩ := effect_timedOut h
    exact ⟨fun _ _ => rfl, rfl⟩
  | _ =>
    cases h
    exact ⟨fun _ _ => rfl, rfl⟩

/-- Every datagram under way carries the address of the party that sent it. -/
def Sourced (N : Net A K J R) : Prop := ∀ src dst, ∀ p ∈ N.flight (src, dst), p.src = src

omit [DecidableEq K] [DecidableEq J] [DecidableEq R] in
theorem effect_flight (h : N.effect P j e = some N') :
    (N.Sourced → N'.Sourced) ∧ ∀ src dst, (N'.flight (src, dst)).map Packet.payload =
      (N.flight (src, dst)).map Packet.payload ++
        if j = src then payloadsTo dst (posts [e]) else [] := by
  cases e with
  | sent msg d =>
    cases h
    constructor
    · intro hsrc src dst p hp
      rcases mem_post_flight.mp hp with hp | ⟨hsd, rfl⟩
      · exact hsrc src dst p hp
      · exact (Prod.mk.inj hsd).1.symm
    · intro src dst
      -- only the pair that the datagram is for sees it
      by_cases hsd : src = j ∧ dst = d
      · obtain ⟨rfl, rfl⟩ := hsd
        simp [posts, payloadsTo]
      · have hne : (src, dst) ≠ (j, d) := fun heq => hsd (Prod.mk.inj heq)
        have hnone : (if j = src then payloadsTo dst [(msg, d)] else []) = [] := by
          split_ifs with hj
          · have hd : d ≠ dst := fun hd => hsd ⟨hj.symm, hd.symm⟩
            simp [payloadsTo, hd]
          · rfl
        change _ = _ ++ if j = src then payloadsTo dst [(msg, d)] else []
        rw [hnone, List.append_nil, post_flight, Function.update_of_ne hne]
  | received p =>
    obtain ⟨rest, hqueue, rfl⟩ := effect_received h
    exact ⟨id, fun src dst => by simp [posts, payloadsTo]⟩
  | sendFails err =>
    obtain ⟨-, rfl⟩ := effect_sendFails h
    exact ⟨id, fun src dst => by simp [posts, payloadsTo]⟩
  | timedOut =>
    obtain ⟨-, rfl⟩ := effect_timedOut h
    exact ⟨id, fun src dst => by simp [posts, payloadsTo]⟩
  | _ =>
    cases h
    exact ⟨id, fun src dst => by simp [posts, payloadsTo]⟩

omit [DecidableEq K] [DecidableEq J] [DecidableEq R] in
theorem effect_returned {i : A} (h : N.effect P j e = some N') :
    N'.returned i = N.returned i ∨
      ∃ job result, j = i ∧ e = .finished job result ∧
        N'.returned i = N.returned i ++ [⟨job, result, N.cause i⟩] := by
  cases e with
  | received p =>
    obtain ⟨rest, -, rfl⟩ := effect_received h
    exact .inl rfl
  | sendFails err =>
    obtain ⟨-, rfl⟩ := effect_sendFails h
    exact .inl rfl
  | timedOut =>
    obtain ⟨-, rfl⟩ := effect_timedOut h
    exact .inl rfl
  | finished job result =>
    cases h
    by_cases hj : j = i
    · subst hj
      exact .inr ⟨job, result, rfl, rfl, Function.update_self ..⟩
    · exact .inl (Function.update_of_ne (Ne.symm hj) _ _)
  | _ =>
    cases h
    exact .inl rfl

omit [DecidableEq K] [DecidableEq J] [DecidableEq R] in
theorem transit_logs {t : Transit A} (h : N.transit P t = some N') :
    N'.started = N.started ∧ N'.calls = N.calls ∧ N'.returned = N.returned := by
  cases t with
  | arrive src dst n =>
    obtain ⟨-, p, -, rfl⟩ := transit_arrive h
    exact ⟨rfl, rfl, rfl⟩
  | lose src dst n =>
    obtain ⟨-, rfl⟩ := transit_lose h
    exact ⟨rfl, rfl, rfl⟩

end Net

/-- A field that only events change, each by what the event logs, is the log of the party's
events. -/
theorem field_eq_log {β : Type} {f : Net A K J R → A → List β}
    {log : List (Event A K J R) → List β} (hempty : f .empty = fun _ => log [])
    (happend : ∀ es fs, log (es ++ fs) = log es ++ log fs)
    (heffect : ∀ N N' i e, N.effect P i e = some N' →
      f N' = Function.update (f N) i (f N i ++ log [e]))
    (htransit : ∀ N N' t, N.transit P t = some N' → f N' = f N)
    (hrun : (network D P).run ls (network D P).init = some c) (i : A) :
    f c.net i = log (events i ls) := by
  refine (network D P).run_history (I := fun ls c => f c.net i = log (events i ls))
    (congrFun hempty i) ?_ hrun
  intro ls l c c' ih hstep
  rcases step_cases hstep with ⟨j, e, x, N, rfl, -, hN, rfl⟩ | ⟨t, N, rfl, hN, rfl⟩
  · rw [events_party, heffect _ _ _ _ hN]
    by_cases hj : j = i
    · subst hj
      rw [if_pos rfl, happend, Function.update_self, ih]
    · rw [if_neg hj, List.append_nil, Function.update_of_ne (Ne.symm hj), ih]
  · rw [events_transit, htransit _ _ _ hN]
    exact ih

theorem started_eq_jobs (hrun : (network D P).run ls (network D P).init = some c) (i : A) :
    c.net.started i = jobs (events i ls) :=
  field_eq_log (f := Net.started) rfl jobs_append (fun _ _ _ _ => Net.effect_started)
    (fun _ _ _ h => (Net.transit_logs h).1) hrun i

theorem calls_eq_called (hrun : (network D P).run ls (network D P).init = some c) (i : A) :
    c.net.calls i = called (events i ls) :=
  field_eq_log (f := Net.calls) rfl called_append (fun _ _ _ _ => Net.effect_calls)
    (fun _ _ _ h => (Net.transit_logs h).2.1) hrun i

/-- The datagrams from `src` that `dst` took, that wait in its queue, and that are under way. -/
def Net.traffic (N : Net A K J R) (src dst : A) (es : List (Event A K J R)) : List Bytes :=
  payloadsFrom src (taken es) ++ payloadsFrom src (N.queue dst) ++
    (N.flight (src, dst)).map Packet.payload

omit [DecidableEq K] [DecidableEq J] [DecidableEq R] in
theorem Net.effect_traffic {N N' : Net A K J R} {j : A} {e : Event A K J R}
    (h : N.effect P j e = some N') (src dst : A) (es : List (Event A K J R)) :
    N'.traffic src dst (es ++ if j = dst then [e] else []) =
      N.traffic src dst es ++ payloadsTo dst (posts (if j = src then [e] else [])) := by
  obtain ⟨hothers, hqueue⟩ := effect_queue h
  -- what a receive takes off the queue is what it adds to the datagrams taken
  have hreceived : payloadsFrom src (taken (es ++ if j = dst then [e] else [])) ++
      payloadsFrom src (N'.queue dst) =
        payloadsFrom src (taken es) ++ payloadsFrom src (N.queue dst) := by
    by_cases hj : j = dst
    · subst hj
      rw [if_pos rfl, taken_append, payloadsFrom_append, List.append_assoc,
        ← payloadsFrom_append, hqueue]
    · rw [if_neg hj, List.append_nil, hothers dst (Ne.symm hj)]
  have hsent : payloadsTo dst (posts (if j = src then [e] else [])) =
      if j = src then payloadsTo dst (posts [e]) else [] := by
    split_ifs
    · rfl
    · rfl
  rw [traffic, hreceived, (effect_flight h).2, traffic, ← List.append_assoc,
    hsent]

omit [DecidableEq K] [DecidableEq J] [DecidableEq R] in
theorem Net.transit_traffic {N N' : Net A K J R} {t : Transit A} (hsrc : N.Sourced)
    (h : N.transit P t = some N') (src dst : A) (es : List (Event A K J R)) :
    N'.Sourced ∧ Kept P.reorder P.lossy (N'.traffic src dst es) (N.traffic src dst es) := by
  cases t with
  | arrive s d n =>
    obtain ⟨hn, p, hp, rfl⟩ := transit_arrive h
    refine ⟨fun s' d' q hq => hsrc s' d' q ((lose_flight_sublist _).subset hq), ?_⟩
    have hps : p.src = s := hsrc s d p (List.mem_of_getElem? hp)
    by_cases hsd : (src, dst) = (s, d)
    · -- the datagram moves from where it was under way to the end of the queue
      obtain ⟨rfl, rfl⟩ := Prod.mk.inj hsd
      have hfirst : Kept P.reorder P.lossy (p :: (N.flight (src, dst)).eraseIdx n)
          (N.flight (src, dst)) := .of_getElem? hn hp
      have hmoved := (hfirst.map Packet.payload).append_left
        (payloadsFrom src (taken es) ++ payloadsFrom src (N.queue dst))
      have hqueue : payloadsFrom src (N.queue dst ++ [p]) =
          payloadsFrom src (N.queue dst) ++ [p.payload] := by
        rw [payloadsFrom_append, payloadsFrom_cons, if_pos hps]
        rfl
      simpa [traffic, hqueue] using hmoved
    · -- nothing from `src` to `dst` moves
      apply Kept.of_eq
      have hqueue : payloadsFrom src ((N.arrive s d n p).queue dst) =
          payloadsFrom src (N.queue dst) := by
        by_cases hd : dst = d
        · subst hd
          have hs : s ≠ src := fun h => hsd (congrArg (·, dst) h.symm)
          rw [arrive_queue, Function.update_self, payloadsFrom_append, payloadsFrom_cons,
            if_neg (hps ▸ hs)]
          exact List.append_nil _
        · rw [arrive_queue, Function.update_of_ne hd]
      rw [traffic, hqueue, arrive_flight, lose_flight, Function.update_of_ne hsd, traffic]
  | lose s d n =>
    obtain ⟨hloss, rfl⟩ := transit_lose h
    refine ⟨fun s' d' q hq => hsrc s' d' q ((lose_flight_sublist _).subset hq), ?_⟩
    exact (Kept.of_sublist hloss ((lose_flight_sublist _).map _)).append_left _

/-- In every run, what `dst` has got from `src`, with what is queued and under way, is kept of
what `src` sent to `dst`. -/
theorem traffic_kept (hrun : (network D P).run ls (network D P).init = some c) (src dst : A) :
    Kept P.reorder P.lossy (c.net.traffic src dst (events dst ls))
      (payloadsTo dst (posts (events src ls))) := by
  have hall := (network D P).run_history (I := fun ls c => c.net.Sourced ∧
    Kept P.reorder P.lossy (c.net.traffic src dst (events dst ls))
      (payloadsTo dst (posts (events src ls))))
    ⟨fun _ _ _ h => absurd h List.not_mem_nil, Kept.refl _⟩ ?_ hrun
  · exact hall.2
  intro ls l c c' ih hstep
  obtain ⟨hsrc, hkept⟩ := ih
  rcases step_cases hstep with ⟨j, e, x, N, rfl, -, hN, rfl⟩ | ⟨t, N, rfl, hN, rfl⟩
  · rw [events_party, events_party, Net.effect_traffic hN, posts_append, payloadsTo_append]
    exact ⟨(Net.effect_flight hN).1 hsrc, hkept.append_right _⟩
  · obtain ⟨hsrc', hmoved⟩ := Net.transit_traffic hsrc hN src dst (events dst ls)
    rw [events_transit, events_transit]
    exact ⟨hsrc', hmoved.trans hkept⟩

end Datagram
