import Mathlib.Data.List.Count
import Marko.AppendErase

/-! The log of a sender that keeps a list of who wants its messages: what it heard from whom, and
its walks over the list, by index, to pass a message on. Both change places at any time. Addresses
`α` ask with words, messages are of any type `δ`. -/
namespace SubscriptionLog

open AppendErase

variable {α δ : Type}

inductive Word where
  | subscribe
  | shutdown
  | other
  deriving DecidableEq, Repr

def Word.change (a : α) : Word → Change α
  | .subscribe => .add a
  | .shutdown => .remove a
  | .other => .keep

inductive Entry (α δ : Type) where
  | heard (src : α) (w : Word)
  -- a walk with the message begins
  | published (d : δ)
  | iterated
  -- the walk is given up
  | raised
  deriving DecidableEq, Repr

/-- The list, and the walk over it: its message and the position that it reads next. -/
structure Board (α δ : Type) where
  list : List α
  loop : Option (δ × ℕ)
  deriving DecidableEq, Repr

namespace Board

def empty : Board α δ := ⟨[], none⟩

/-- The walk goes on by one position, and ends behind the last one. -/
def advance (xs : List α) : Option (δ × ℕ) → Option (δ × ℕ)
  | some (d, i) => if i < xs.length then some (d, i + 1) else none
  | none => none

def passesOn (b : Board α δ) : List (δ × α) :=
  match b.loop with
  | some (d, i) => b.list[i]?.toList.map fun a => (d, a)
  | none => []

variable [DecidableEq α]

def step (b : Board α δ) : Entry α δ → Board α δ
  | .heard src w => { b with list := apply b.list (w.change src) }
  | .published d => { b with loop := some (d, 0) }
  | .iterated => { b with loop := advance b.list b.loop }
  | .raised => { b with loop := none }

def sends (b : Board α δ) : Entry α δ → List (δ × α)
  | .iterated => b.passesOn
  | _ => []

def after (b : Board α δ) (log : List (Entry α δ)) : Board α δ := log.foldl step b

/-- What is passed on, and to whom. -/
def deliveries : Board α δ → List (Entry α δ) → List (δ × α)
  | _, [] => []
  | b, e :: log => b.sends e ++ deliveries (b.step e) log

/-- The messages that are passed on to `a`. -/
def told (b : Board α δ) (a : α) (log : List (Entry α δ)) : List δ :=
  ((b.deliveries log).filter fun m => m.2 = a).map Prod.fst

theorem after_append (b : Board α δ) (log log' : List (Entry α δ)) :
    b.after (log ++ log') = (b.after log).after log' :=
  List.foldl_append

theorem deliveries_append (b : Board α δ) (log log' : List (Entry α δ)) :
    b.deliveries (log ++ log') = b.deliveries log ++ (b.after log).deliveries log' := by
  induction log generalizing b with
  | nil => rfl
  | cons e log ih =>
    show b.sends e ++ (b.step e).deliveries (log ++ log') = _
    rw [ih, ← List.append_assoc]
    rfl

theorem told_cons (a : α) (b : Board α δ) (e : Entry α δ) (log : List (Entry α δ)) :
    b.told a (e :: log) =
      ((b.sends e).filter fun m => m.2 = a).map Prod.fst ++ (b.step e).told a log := by
  rw [told, deliveries, List.filter_append, List.map_append]
  rfl

end Board

def publications (log : List (Entry α δ)) : List δ :=
  log.filterMap fun
    | .published d => some d
    | _ => none

variable [DecidableEq α]

/-- What `a` was heard to say. -/
def wordsFrom (a : α) (log : List (Entry α δ)) : List Word :=
  log.filterMap fun
    | .heard src w => if src = a then some w else none
    | _ => none

theorem wordsFrom_heard_self (a : α) (w : Word) (log : List (Entry α δ)) :
    wordsFrom a (.heard a w :: log) = w :: wordsFrom a log := by
  simp [wordsFrom]

theorem wordsFrom_heard_of_ne {src a : α} (hsrc : src ≠ a) (w : Word) (log : List (Entry α δ)) :
    wordsFrom a (.heard src w :: log) = wordsFrom a log := by
  simp [wordsFrom, hsrc]

/-! ## How often somebody is on the list -/

def Word.count (n : ℕ) : Word → ℕ
  | .subscribe => n + 1
  | .shutdown => n - 1
  | .other => n

def wordsCount (n : ℕ) (ws : List Word) : ℕ := ws.foldl Word.count n

theorem count_apply (xs : List α) (src a : α) (w : Word) :
    (apply xs (w.change src)).count a = if src = a then w.count (xs.count a) else xs.count a := by
  by_cases hsrc : src = a
  · subst hsrc
    rw [if_pos rfl]
    cases w with
    | subscribe =>
      show (xs ++ [src]).count src = xs.count src + 1
      rw [List.count_append, List.count_singleton_self]
    | shutdown =>
      show (xs.erase src).count src = xs.count src - 1
      exact List.count_erase_self
    | other => rfl
  · rw [if_neg hsrc]
    cases w with
    | subscribe =>
      have hnone : [src].count a = 0 :=
        List.count_eq_zero_of_not_mem (List.mem_singleton.not.mpr (Ne.symm hsrc))
      show (xs ++ [src]).count a = xs.count a
      rw [List.count_append, hnone, Nat.add_zero]
    | shutdown =>
      show (xs.erase src).count a = xs.count a
      exact List.count_erase_of_ne (Ne.symm hsrc)
    | other => rfl

/-- It is a matter of what one said oneself. -/
theorem count_after (a : α) (b : Board α δ) (log : List (Entry α δ)) :
    (b.after log).list.count a = wordsCount (b.list.count a) (wordsFrom a log) := by
  induction log generalizing b with
  | nil => rfl
  | cons e log ih =>
    have hstep : (b.after (e :: log)).list.count a =
        wordsCount ((b.step e).list.count a) (wordsFrom a log) := ih (b.step e)
    rw [hstep]
    cases e with
    | heard src w =>
      have hcount : (b.step (.heard src w)).list.count a = _ := count_apply b.list src a w
      rw [hcount]
      by_cases hsrc : src = a
      · subst hsrc
        rw [if_pos rfl, wordsFrom_heard_self, wordsCount, wordsCount, List.foldl_cons]
      · rw [if_neg hsrc, wordsFrom_heard_of_ne hsrc]
    | published d => rfl
    | iterated => rfl
    | raised => rfl

theorem Word.count_bounds (n : ℕ) (w : Word) :
    n + [w].count .subscribe ≤ w.count n + [w].count .shutdown ∧
      w.count n ≤ n + [w].count .subscribe := by
  cases w with
  | subscribe =>
    have hsubscribe : [Word.subscribe].count .subscribe = 1 := rfl
    rw [Word.count, hsubscribe]
    omega
  | shutdown =>
    have hsubscribe : [Word.shutdown].count .subscribe = 0 := rfl
    have hshutdown : [Word.shutdown].count .shutdown = 1 := rfl
    rw [Word.count, hsubscribe, hshutdown]
    omega
  | other =>
    have hsubscribe : [Word.other].count .subscribe = 0 := rfl
    rw [Word.count, hsubscribe]
    omega

/-- In whatever order the words come: who subscribed more often than it shut down is on the list,
and nobody is on it more often than it subscribed. -/
theorem wordsCount_bounds (n : ℕ) (ws : List Word) :
    n + ws.count .subscribe ≤ wordsCount n ws + ws.count .shutdown ∧
      wordsCount n ws ≤ n + ws.count .subscribe := by
  induction ws generalizing n with
  | nil => exact ⟨Nat.le_refl n, Nat.le_refl n⟩
  | cons w ws ih =>
    obtain ⟨hlow, hhigh⟩ := ih (w.count n)
    obtain ⟨hlow', hhigh'⟩ := w.count_bounds n
    have hcons (x : Word) : (w :: ws).count x = [w].count x + ws.count x := by
      show ([w] ++ ws).count x = _
      exact List.count_append
    have hfold : wordsCount n (w :: ws) = wordsCount (w.count n) ws := rfl
    rw [hcons, hcons, hfold]
    omega

/-! ## How often somebody is told of a message -/

/-- How often `a` will yet be heard to subscribe. -/
def coming (a : α) (log : List (Entry α δ)) : ℕ := (wordsFrom a log).count .subscribe

/-- The places of `a` that a walk at position `i` has not passed, now and with what is coming. -/
def ahead (a : α) (xs : List α) (i : ℕ) (log : List (Entry α δ)) : ℕ :=
  (xs.drop i).count a + coming a log

theorem coming_heard (a src : α) (w : Word) (log : List (Entry α δ)) :
    coming a (.heard src w :: log) =
      (if src = a ∧ w = .subscribe then 1 else 0) + coming a log := by
  by_cases hsrc : src = a
  · subst hsrc
    rw [coming, wordsFrom_heard_self, List.count_cons, Nat.add_comm]
    cases w <;> simp [coming]
  · rw [coming, wordsFrom_heard_of_ne hsrc, if_neg fun h => hsrc h.1, Nat.zero_add]
    rfl

/-- Nobody gets ahead of a walk again: what is heard appends behind it, or moves others forward. -/
theorem ahead_heard (a src : α) (w : Word) (xs : List α) (i : ℕ) (log : List (Entry α δ)) :
    ahead a (apply xs (w.change src)) i log ≤ ahead a xs i (.heard src w :: log) := by
  rw [ahead, ahead, coming_heard]
  cases w with
  | subscribe =>
    have hdrop : (apply xs (Word.subscribe.change src)).drop i =
        xs.drop i ++ [src].drop (i - xs.length) := List.drop_append
    have hnew : ([src].drop (i - xs.length)).count a ≤ [src].count a :=
      (List.drop_sublist _ _).count_le a
    have hone : [src].count a = if src = a ∧ Word.subscribe = .subscribe then 1 else 0 := by
      rw [List.count_singleton]
      simp
    rw [hdrop, List.count_append]
    omega
  | shutdown =>
    have hsub : ((xs.erase src).drop i).count a ≤ (xs.drop i).count a :=
      (List.erase_sublist.drop i).count_le a
    have hchange : apply xs (Word.shutdown.change src) = xs.erase src := rfl
    rw [hchange]
    omega
  | other =>
    have hchange : apply xs (Word.other.change src) = xs := rfl
    rw [hchange]
    omega

/-- The copies of the message of a walk that `a` may yet be told of. -/
def Board.room (b : Board α δ) (a : α) (log : List (Entry α δ)) : List δ :=
  match b.loop with
  | some (d, i) => List.replicate (ahead a b.list i log) d
  | none => []

theorem ahead_step (a : α) (b : Board α δ) (e : Entry α δ) (log : List (Entry α δ)) :
    ahead a (b.step e).list 0 log ≤ ahead a b.list 0 (e :: log) := by
  cases e with
  | heard src w => exact ahead_heard a src w b.list 0 log
  | published d => exact Nat.le_refl _
  | iterated => exact Nat.le_refl _
  | raised => exact Nat.le_refl _

theorem copies_to (a : α) (d : δ) (xs : List α) :
    ((xs.map fun b => (d, b)).filter fun m => m.2 = a).map Prod.fst =
      List.replicate (xs.count a) d := by
  induction xs with
  | nil => rfl
  | cons b xs ih =>
    by_cases hb : b = a
    · simp [hb, ih, List.replicate_succ]
    · simp [hb, ih]

/-- What an entry passes on to `a` takes up its room. -/
theorem room_step {a : α} {n : ℕ} (b : Board α δ) (e : Entry α δ) (log : List (Entry α δ))
    (hn : ahead a b.list 0 (e :: log) ≤ n) :
    (((b.sends e).filter fun m => m.2 = a).map Prod.fst ++ (b.step e).room a log).Sublist
      (b.room a (e :: log) ++ (publications [e]).flatMap (List.replicate n)) := by
  obtain ⟨xs, loop⟩ := b
  cases e with
  | heard src w =>
    cases loop with
    | none => exact List.nil_sublist _
    | some walk =>
      have hahead := ahead_heard a src w xs walk.2 log
      show (List.replicate _ walk.1).Sublist (List.replicate _ walk.1 ++ [])
      rw [List.append_nil]
      exact (List.replicate_sublist_replicate _).mpr hahead
  | published d =>
    have hroom : (List.replicate (ahead a xs 0 log) d).Sublist (List.replicate n d) :=
      (List.replicate_sublist_replicate _).mpr hn
    show (List.replicate (ahead a xs 0 log) d).Sublist (_ ++ (List.replicate n d ++ []))
    rw [List.append_nil]
    exact hroom.trans (List.sublist_append_right _ _)
  | iterated =>
    cases loop with
    | none => exact List.nil_sublist _
    | some walk =>
      obtain ⟨d, i⟩ := walk
      -- the place that is read is the first one ahead
      have hahead : ahead a xs i log = xs[i]?.toList.count a + ahead a xs (i + 1) log := by
        rw [ahead, List.drop_eq_getElem?_toList_append, List.count_append, Nat.add_assoc]
        rfl
      have hroom : (Board.room ⟨xs, Board.advance xs (some (d, i))⟩ a log).Sublist
          (List.replicate (ahead a xs (i + 1) log) d) := by
        rw [Board.advance]
        split_ifs with hi
        · exact List.Sublist.refl _
        · exact List.nil_sublist _
      show ((((xs[i]?.toList.map fun b => (d, b)).filter fun m => m.2 = a).map Prod.fst) ++
        Board.room ⟨xs, Board.advance xs (some (d, i))⟩ a log).Sublist
          (List.replicate (ahead a xs i log) d ++ [])
      rw [copies_to, List.append_nil, hahead, ← List.replicate_append_replicate]
      exact hroom.append_left _
  | raised => exact List.nil_sublist _

/-- Nobody is told of a message more often than it is on the list and subscribes, and all are
told of the messages in their order. -/
theorem told_sublist {a : α} {n : ℕ} {b : Board α δ} {log : List (Entry α δ)}
    (hn : ahead a b.list 0 log ≤ n) :
    (b.told a log).Sublist (b.room a log ++ (publications log).flatMap (List.replicate n)) := by
  induction log generalizing b with
  | nil => exact List.nil_sublist _
  | cons e log ih =>
    have hrest := ih (Nat.le_trans (ahead_step a b e log) hn)
    have hpublications : publications (e :: log) = publications [e] ++ publications log :=
      List.filterMap_append (l := [e])
    rw [Board.told_cons, hpublications, List.flatMap_append, ← List.append_assoc]
    have hstep := (room_step b e log hn).append_right
      ((publications log).flatMap (List.replicate n))
    refine List.Sublist.trans ?_ hstep
    rw [List.append_assoc]
    exact hrest.append_left _

/-- With an empty list to begin with, it is subscribing alone that counts. -/
theorem told_of_coming {a : α} {n : ℕ} {log : List (Entry α δ)} (hn : coming a log ≤ n) :
    ((Board.empty : Board α δ).told a log).Sublist
      ((publications log).flatMap (List.replicate n)) := by
  have hahead : ahead a (Board.empty : Board α δ).list 0 log ≤ n := by
    rw [ahead, Board.empty, List.drop_nil, List.count_nil, Nat.zero_add]
    exact hn
  exact told_sublist hahead

/-! ## When nobody is passed over -/

/-- A walk has a message that was published. -/
theorem loop_after {b : Board α δ} {log : List (Entry α δ)} {d : δ} {i : ℕ}
    (h : (b.after log).loop = some (d, i)) :
    d ∈ publications log ∨ ∃ j, b.loop = some (d, j) := by
  induction log generalizing b with
  | nil => exact .inr ⟨i, h⟩
  | cons e log ih =>
    rcases ih (b := b.step e) h with hmem | ⟨j, hj⟩
    · have hpublications : publications (e :: log) = publications [e] ++ publications log :=
        List.filterMap_append (l := [e])
      rw [hpublications]
      exact .inl (List.mem_append_right _ hmem)
    · cases e with
      | heard src w => exact .inr ⟨j, hj⟩
      | published d' =>
        obtain ⟨rfl, -⟩ := Prod.mk.inj (Option.some.inj hj)
        exact .inl List.mem_cons_self
      | iterated =>
        obtain ⟨xs, loop⟩ := b
        cases loop with
        | none => cases hj
        | some walk =>
          obtain ⟨-, hj⟩ := Option.ite_none_right_eq_some.mp hj
          obtain ⟨rfl, -⟩ := Prod.mk.inj (Option.some.inj hj)
          exact .inr ⟨walk.2, rfl⟩
      | raised => cases hj

/-- A walk begins when none is under way. -/
def Board.Orderly : Board α δ → List (Entry α δ) → Prop
  | _, [] => True
  | b, e :: log => (∀ d, e = .published d → b.loop = none) ∧ (b.step e).Orderly log

theorem Board.orderly_append {b : Board α δ} {log log' : List (Entry α δ)} :
    b.Orderly (log ++ log') ↔ b.Orderly log ∧ (b.after log).Orderly log' := by
  induction log generalizing b with
  | nil => exact (and_iff_right trivial).symm
  | cons e log ih =>
    show _ ∧ (b.step e).Orderly (log ++ log') ↔ (_ ∧ (b.step e).Orderly log) ∧ _
    rw [ih, and_assoc]
    rfl

/-- The entry shifts nobody to before a walk, does not end it early, and does not put `a` on the
list. -/
def Entry.Steady (a : α) : Entry α δ → Prop
  | .heard src w => w ≠ .shutdown ∧ (w = .subscribe → src ≠ a)
  | .raised => False
  | _ => True

/-- The copies of the message of a walk that `a` is still owed. -/
def Board.owed (b : Board α δ) (a : α) : List δ :=
  match b.loop with
  | some (d, i) => List.replicate ((b.list.drop i).count a) d
  | none => []

end SubscriptionLog
