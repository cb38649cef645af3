import Mathlib.Data.Nat.Count
import Mathlib.Data.Nat.Find
import Marko.DatagramCalls
import Marko.InteractionLoop

/-! `MCBeacon.search` of `pymarko/mcsocket.py`. Its socket class is a stub, so the methods it
calls on it are calls to the outside. `A` stands for addresses and `D` for delays. -/
namespace Pymarko.MCBeacon

open Datagram (Bytes)
open Interaction

inductive Call (A D : Type) where
  | sendto (data : Bytes) (dst : A)
  | recvfrom (size : ℕ)
  | sleep (delay : D)
  deriving DecidableEq, Repr

abbrev Call.Answer {A D : Type} : Call A D → Type
  | .sendto .. => ℕ
  | .recvfrom _ => Option Bytes × Option A
  | .sleep _ => Unit

abbrev sig (A D : Type) : Signature := ⟨Call A D, Call.Answer⟩

variable {A D : Type}

/-- `data is None or len(data) == 0`. -/
def NoData (data : Option Bytes) : Prop := data = none ∨ (data.getD []).length = 0

instance (data : Option Bytes) : Decidable (NoData data) :=
  inferInstanceAs (Decidable (_ ∨ _))

/-- A round of the loop over its variables `cnt` and `data`. -/
def searchOnce (datasize : ℕ) (delay : D) :
    ℤ × Option Bytes → Program (sig A D) ((ℤ × Option Bytes) ⊕ Option Bytes)
  | (cnt, data) => do
    -- `while cnt`: any number but zero goes on
    if cnt = 0 then pure (.inr data)
    else
      let (data, _addr) ← Program.ask (S := sig A D) (.recvfrom datasize)
      if NoData data then
        let _ ← Program.ask (S := sig A D) (.sleep delay)
        pure (.inl (cnt - 1, data))
      else pure (.inr data)

/-- The variable that is returned holds the query until something else is received. -/
def search (fuel : ℕ) (group : A) (data : Bytes) (datasize : ℕ) (delay : D) (cnt : ℤ) :
    Program (sig A D) (Option (Option Bytes)) := do
  let _ ← Program.ask (S := sig A D) (.sendto data group)
  Program.loop (searchOnce datasize delay) fuel (cnt, some data)

/-- What the receives of a call yield, one after another: a datagram and its source, or
nothing within the timeout. -/
abbrev Receives (A : Type) := ℕ → Option (Bytes × A)

def Receives.data (r : Receives A) (n : ℕ) : Option Bytes := (r n).map Prod.fst

/-- The socket's part; its state is the number of receives so far. -/
def receiving (r : Receives A) : Handler (sig A D) ℕ
  | .sendto data _, n => (data.length, n)
  | .recvfrom _, n => ((r.data n, (r n).map Prod.snd), n + 1)
  | .sleep _, n => ((), n)

/-- The search ends with `result` after `receives` receives. -/
def Ends (r : Receives A) (group : A) (data : Bytes) (datasize : ℕ) (delay : D) (cnt : ℤ)
    (result : Option Bytes) (receives : ℕ) : Prop :=
  ∃ fuel, (search fuel group data datasize delay cnt).exec (receiving r) 0 =
    (some result, receives)

/-- The first datagram that is not empty is what the receive of number `n` yields. -/
def FirstAt (r : Receives A) (n : ℕ) : Prop := ¬ NoData (r.data n) ∧ ∀ i < n, NoData (r.data i)

/-- A search that gives up after `cnt` receives without data (at once, if `cnt` is negative),
and that returns an answer only when it has received it. -/
structure Answers (r : Receives A) (cnt : ℤ) (result : Option Bytes) (receives : ℕ) : Prop where
  bounded : (Nat.count (fun i => NoData (r.data i)) receives : ℤ) ≤ max cnt 0
  found : ∀ n, FirstAt r n → (n : ℤ) < max cnt 0 → result = r.data n
  gaveUp : (∀ n, FirstAt r n → max cnt 0 ≤ (n : ℤ)) → NoData result
  genuine : ¬ NoData result → ∃ n < receives, result = r.data n

section Loop

variable (r : Receives A) (datasize : ℕ) (delay : D)

theorem round_zero (data : Option Bytes) (n : ℕ) :
    (searchOnce (A := A) datasize delay (0, data)).exec (receiving r) n = (.inr data, n) := rfl

theorem round_noData {cnt : ℤ} (hcnt : cnt ≠ 0) (data : Option Bytes) {n : ℕ}
    (hn : NoData (r.data n)) :
    (searchOnce (A := A) datasize delay (cnt, data)).exec (receiving r) n =
      (.inl (cnt - 1, r.data n), n + 1) := by
  rw [searchOnce, if_neg hcnt, Program.exec_bind]
  show Program.exec _ (if NoData (r.data n) then _ else _) (n + 1) = _
  rw [if_pos hn]
  rfl

theorem round_data {cnt : ℤ} (hcnt : cnt ≠ 0) (data : Option Bytes) {n : ℕ}
    (hn : ¬ NoData (r.data n)) :
    (searchOnce (A := A) datasize delay (cnt, data)).exec (receiving r) n =
      (.inr (r.data n), n + 1) := by
  rw [searchOnce, if_neg hcnt, Program.exec_bind]
  show Program.exec _ (if NoData (r.data n) then _ else _) (n + 1) = _
  rw [if_neg hn]
  rfl

variable {r datasize delay} {cnt : ℤ} {data : Option Bytes} {n n' : ℕ}

theorem goes_on {next : ℤ × Option Bytes}
    (hround : (searchOnce (A := A) datasize delay (cnt, data)).exec (receiving r) n =
      (.inl next, n')) :
    cnt ≠ 0 ∧ NoData (r.data n) ∧ next = (cnt - 1, r.data n) ∧ n' = n + 1 := by
  by_cases hcnt : cnt = 0
  · subst hcnt
    cases hround
  · by_cases hn : NoData (r.data n)
    · rw [round_noData r datasize delay hcnt data hn] at hround
      cases hround
      exact ⟨hcnt, hn, rfl, rfl⟩
    · rw [round_data r datasize delay hcnt data hn] at hround
      cases hround

/-- The loop is left with its variable when the count is used up, and else with the data of
the round. -/
theorem leaves {result : Option Bytes}
    (hround : (searchOnce (A := A) datasize delay (cnt, data)).exec (receiving r) n =
      (.inr result, n')) :
    (cnt = 0 ∧ result = data ∧ n' = n) ∨
      (cnt ≠ 0 ∧ ¬ NoData (r.data n) ∧ result = r.data n ∧ n' = n + 1) := by
  by_cases hcnt : cnt = 0
  · subst hcnt
    cases hround
    exact .inl ⟨rfl, rfl, rfl⟩
  · by_cases hn : NoData (r.data n)
    · rw [round_noData r datasize delay hcnt data hn] at hround
      cases hround
    · rw [round_data r datasize delay hcnt data hn] at hround
      cases hround
      exact .inr ⟨hcnt, hn, rfl, rfl⟩

end Loop

section Search

variable {r : Receives A} {group : A} {query : Bytes} {datasize : ℕ} {delay : D} {cnt : ℤ}
variable {result : Option Bytes} {receives : ℕ}

theorem FirstAt.unique {n m : ℕ} (hn : FirstAt r n) (hm : FirstAt r m) : n = m := by
  rcases Nat.lt_trichotomy n m with hlt | heq | hgt
  · exact absurd (hm.2 n hlt) hn.1
  · exact heq
  · exact absurd (hn.2 m hgt) hm.1

/-- A count that is not negative is used up by rounds without data. -/
theorem search_ends (hcnt : 0 ≤ cnt) :
    ∃ result receives, Ends r group query datasize delay cnt result receives := by
  apply Program.returns_of_variant (I := fun v _ => 0 ≤ v.1) (fun v _ => v.1.toNat) _ hcnt
  rintro ⟨left, held⟩ n v' n' hv hround
  obtain ⟨hne, -, rfl, -⟩ := goes_on hround
  simp only at hv ⊢
  omega

/-- The loop before its receive of number `n`: `n` rounds without data have counted down, and
the last of them has overwritten the query. -/
structure Waiting (r : Receives A) (cnt : ℤ) (v : ℤ × Option Bytes) (n : ℕ) : Prop where
  counted : v.1 + n = cnt
  nonneg : 0 ≤ v.1
  silent : ∀ i < n, NoData (r.data i)
  overwritten : 0 < n → NoData v.2

theorem answers_of_ends (hcnt : 0 < cnt)
    (hends : Ends r group query datasize delay cnt result receives) :
    Answers r cnt result receives := by
  have hmax : max cnt 0 = cnt := max_eq_left (le_of_lt hcnt)
  refine Program.Returns.of_invariant (I := Waiting r cnt) ?_ ?_ hends ?_
  · rintro ⟨left, held⟩ n v' n' hv hround
    -- a round that goes on has found no data and overwritten the query with it
    obtain ⟨hne, hn, rfl, rfl⟩ := goes_on hround
    have hcounted : left + n = cnt := hv.counted
    have hnonneg : 0 ≤ left := hv.nonneg
    constructor
    · push_cast
      omega
    · show 0 ≤ left - 1
      omega
    · intro i hi
      rcases Nat.lt_succ_iff_lt_or_eq.mp hi with hlt | rfl
      · exact hv.silent i hlt
      · exact hn
    · exact fun _ => hn
  · rintro ⟨left, held⟩ n b n' hv hround
    have hcounted : left + n = cnt := hv.counted
    have hnonneg : 0 ≤ left := hv.nonneg
    have hcount : Nat.count (fun i => NoData (r.data i)) n ≤ n := Nat.count_le _
    rcases leaves hround with ⟨hzero, rfl, rfl⟩ | ⟨hne, hn, rfl, rfl⟩
    -- all rounds went by without data
    · have hquiet : NoData b := hv.overwritten (by omega)
      constructor
      · omega
      · intro m hm hlt
        exact absurd (hv.silent m (by omega)) hm.1
      · exact fun _ => hquiet
      · exact fun h => absurd hquiet h
    -- the data is the first that was received
    · have hfirst : FirstAt r n := ⟨hn, hv.silent⟩
      constructor
      · rw [Nat.count_succ, if_neg hn]
        omega
      · intro m hm _
        rw [hfirst.unique hm]
      · intro hlate
        have hle := hlate n hfirst
        omega
      · exact fun _ => ⟨n, Nat.lt_succ_self n, rfl⟩
  · constructor
    · exact Int.add_zero cnt
    · exact le_of_lt hcnt
    · exact fun i hi => absurd hi (Nat.not_lt_zero i)
    · exact fun h => absurd h (Nat.lt_irrefl 0)

theorem ends_zero : Ends r group query datasize delay 0 (some query) 0 :=
  Program.Returns.of_leaves (round_zero r datasize delay (some query) 0)

theorem eq_of_ends_zero (hends : Ends r group query datasize delay 0 result receives) :
    result = some query ∧ receives = 0 := by
  refine Program.Returns.of_invariant (I := fun v n => v = (0, some query) ∧ n = 0)
    (Q := fun b n => b = some query ∧ n = 0) ?_ ?_ hends ⟨rfl, rfl⟩
  · rintro v n v' n' ⟨rfl, rfl⟩ hround
    exact absurd rfl (goes_on hround).1
  · rintro v n b n' ⟨rfl, rfl⟩ hround
    rcases leaves hround with ⟨-, rfl, rfl⟩ | ⟨hne, -⟩
    · exact ⟨rfl, rfl⟩
    · exact absurd rfl hne

/-- A negative count never becomes zero: only data ends the loop. -/
theorem data_of_ends_neg (hcnt : cnt < 0)
    (hends : Ends r group query datasize delay cnt result receives) :
    ∃ n, ¬ NoData (r.data n) ∧ result = r.data n := by
  refine Program.Returns.of_invariant (I := fun v _ => v.1 < 0)
    (Q := fun b _ => ∃ n, ¬ NoData (r.data n) ∧ b = r.data n) ?_ ?_ hends hcnt
  · rintro ⟨left, held⟩ n v' n' hv hround
    obtain ⟨-, -, rfl, -⟩ := goes_on hround
    simp only at hv ⊢
    omega
  · rintro ⟨left, held⟩ n b n' hv hround
    have hleft : left < 0 := hv
    rcases leaves hround with ⟨hzero, -⟩ | ⟨-, hn, hb, -⟩
    · omega
    · exact ⟨n, hn, hb⟩

theorem search_runs_forever (hcnt : cnt < 0) (hquiet : ∀ n, NoData (r.data n)) :
    ¬ Ends r group query datasize delay cnt result receives := by
  intro hends
  obtain ⟨n, hn, -⟩ := data_of_ends_neg hcnt hends
  exact hn (hquiet n)

end Search

/-- The search ends, and with an answer or without one as it should, exactly when it is allowed
some receives, or none and its query is empty. Otherwise the query itself is returned, or the
loop counts away from zero. -/
theorem search_answers_iff (r : Receives A) (group : A) (query : Bytes) (datasize : ℕ) (delay : D)
    (cnt : ℤ) :
    ((∃ result receives, Ends r group query datasize delay cnt result receives) ∧
        ∀ result receives, Ends r group query datasize delay cnt result receives →
          Answers r cnt result receives) ↔
      0 < cnt ∨ cnt = 0 ∧ query = [] := by
  constructor
  · rintro ⟨⟨result, receives, hends⟩, hanswers⟩
    have hgaveUp := (hanswers result receives hends).gaveUp
    -- no receives are allowed, so that only an empty result would do
    rcases lt_trichotomy cnt 0 with hneg | rfl | hpos
    · have hmax : max cnt 0 = 0 := max_eq_right (le_of_lt hneg)
      obtain ⟨n, hn, rfl⟩ := data_of_ends_neg hneg hends
      refine absurd (hgaveUp fun m _ => ?_) hn
      rw [hmax]
      exact Int.natCast_nonneg m
    · obtain ⟨rfl, -⟩ := eq_of_ends_zero hends
      have hempty : NoData (some query) := hgaveUp fun m _ => Int.natCast_nonneg m
      rcases hempty with hnone | hlen
      · cases hnone
      · exact .inr ⟨rfl, List.length_eq_zero_iff.mp hlen⟩
    · exact .inl hpos
  · rintro (hpos | ⟨rfl, rfl⟩)
    · exact ⟨search_ends (le_of_lt hpos), fun _ _ => answers_of_ends hpos⟩
    · refine ⟨⟨_, _, ends_zero⟩, fun result receives hends => ?_⟩
      obtain ⟨rfl, rfl⟩ := eq_of_ends_zero hends
      have hempty : NoData (some []) := .inr rfl
      constructor
      · exact le_refl 0
      · intro n _ hn
        have hnonneg := Int.natCast_nonneg n
        omega
      · exact fun _ => hempty
      · exact fun h => absurd hempty h

/-- With no receives allowed, the query comes back as the answer. -/
theorem query_is_returned :
    ¬ ((∃ result receives,
          Ends (A := String) (fun _ => none) "group" [1, 2] 100 () 0 result receives) ∧
        ∀ result receives,
          Ends (A := String) (fun _ => none) "group" [1, 2] 100 () 0 result receives →
            Answers (A := String) (fun _ => none) 0 result receives) := by
  rintro ⟨-, hanswers⟩
  have hends : Ends (A := String) (fun _ => none) "group" [1, 2] 100 () 0 (some [1, 2]) 0 :=
    ⟨1, rfl⟩
  obtain ⟨n, hn, -⟩ := (hanswers _ _ hends).genuine (by decide)
  exact absurd hn (Nat.not_lt_zero n)

end Pymarko.MCBeacon
