import Mathlib.Data.List.Basic

/-! Sequential programs that compute between external calls. A program says which
calls it makes and what it does with each answer; the answers come from whoever runs
it, a handler for one sequential run or the other parties of a concurrent one. -/
namespace Interaction

structure Signature where
  Call : Type
  Answer : Call → Type

inductive Program (S : Signature) (α : Type) where
  | done (a : α)
  | call (c : S.Call) (k : S.Answer c → Program S α)

/-- An environment with state `σ`: it answers every call and moves to its next state. -/
abbrev Handler (S : Signature) (σ : Type) := (c : S.Call) → σ → S.Answer c × σ

namespace Program

variable {S : Signature} {α β γ σ : Type}

def bind : Program S α → (α → Program S β) → Program S β
  | done a, f => f a
  | call c k, f => call c (fun r => (k r).bind f)

instance : Monad (Program S) where
  pure := done
  bind := bind

def ask (c : S.Call) : Program S (S.Answer c) := call c done

@[simp] theorem pure_eq (a : α) : (pure a : Program S α) = done a := rfl

@[simp] theorem done_bind (a : α) (f : α → Program S β) : (done a >>= f) = f a := rfl

@[simp] theorem call_bind (c : S.Call) (k : S.Answer c → Program S α) (f : α → Program S β) :
    (call c k >>= f) = call c (fun r => k r >>= f) := rfl

/-- Programs that make the same call and go on alike are the same. -/
theorem call_congr {c : S.Call} {k k' : S.Answer c → Program S α} (h : ∀ r, k r = k' r) :
    call c k = call c k' :=
  congrArg (call c) (funext h)

theorem bind_done (p : Program S α) : (p >>= done) = p := by
  induction p with
  | done a => rfl
  | call c k ih =>
    rw [call_bind]
    exact call_congr ih

theorem bind_assoc (p : Program S α) (f : α → Program S β) (g : β → Program S γ) :
    (p >>= f) >>= g = p >>= fun a => f a >>= g := by
  induction p with
  | done a => rfl
  | call c k ih =>
    simp only [call_bind]
    exact call_congr ih

instance : LawfulMonad (Program S) :=
  LawfulMonad.mk' (Program S) bind_done (fun _ _ => rfl) bind_assoc

def exec (h : Handler S σ) : Program S α → σ → α × σ
  | done a, s => (a, s)
  | call c k, s => (k (h c s).1).exec h (h c s).2

def trace (h : Handler S σ) : Program S α → σ → List S.Call
  | done _, _ => []
  | call c k, s => c :: (k (h c s).1).trace h (h c s).2

variable (h : Handler S σ) (s : σ)

@[simp] theorem exec_done (a : α) : (done a).exec h s = (a, s) := rfl

@[simp] theorem exec_call (c : S.Call) (k : S.Answer c → Program S α) :
    (call c k).exec h s = (k (h c s).1).exec h (h c s).2 := rfl

@[simp] theorem trace_done (a : α) : (done a).trace h s = [] := rfl

@[simp] theorem trace_call (c : S.Call) (k : S.Answer c → Program S α) :
    (call c k).trace h s = c :: (k (h c s).1).trace h (h c s).2 := rfl

@[simp] theorem exec_bind (p : Program S α) (f : α → Program S β) :
    (p >>= f).exec h s = (f (p.exec h s).1).exec h (p.exec h s).2 := by
  induction p generalizing s with
  | done a => rfl
  | call c k ih => exact ih _ _

@[simp] theorem trace_bind (p : Program S α) (f : α → Program S β) :
    (p >>= f).trace h s =
      p.trace h s ++ (f (p.exec h s).1).trace h (p.exec h s).2 := by
  induction p generalizing s with
  | done a => rfl
  | call c k ih => exact congrArg (c :: ·) (ih _ _)

@[simp] theorem exec_map (g : α → β) (p : Program S α) :
    (g <$> p).exec h s = (g (p.exec h s).1, (p.exec h s).2) :=
  exec_bind h s p fun a => done (g a)

/-- A loop that makes one call for each element, whatever it is answered. -/
def each (c : β → S.Call) : List β → Program S PUnit
  | [] => done ⟨⟩
  | x :: xs => call (c x) fun _ => each c xs

theorem forM_eq_each (c : β → S.Call) (xs : List β) (body : β → Program S PUnit)
    (hbody : ∀ x, body x = call (c x) fun _ => done ⟨⟩) : forM xs body = each c xs := by
  induction xs with
  | nil => rfl
  | cons x xs ih =>
    rw [List.forM_cons, ih, hbody]
    rfl

@[simp] theorem trace_each (c : β → S.Call) (xs : List β) :
    (each c xs).trace h s = xs.map c := by
  induction xs generalizing s with
  | nil => rfl
  | cons x xs ih => exact congrArg (c x :: ·) (ih _)

/-- The same program with calls and answers of another signature. -/
def translate {T : Signature} (call : S.Call → T.Call)
    (answer : (c : S.Call) → T.Answer (call c) → S.Answer c) : Program S α → Program T α
  | done a => done a
  | Program.call c k => Program.call (call c) fun r => (k (answer c r)).translate call answer

/-- No call stops a program, so what is to be done at its end is always done. -/
instance : MonadFinally (Program S) where
  tryFinally' body final := do
    let a ← body
    let b ← final (some a)
    pure (a, b)

/-- Whether `body` throws or not, `final` is run, and what it throws has precedence. -/
theorem run_tryFinally {ε : Type} (body : ExceptT ε (Program S) α)
    (final : ExceptT ε (Program S) PUnit) :
    (tryFinally body final).run =
      body.run >>= fun r => final.run >>= fun c => pure (c >>= fun _ => r) := by
  show (Prod.fst <$> tryFinally' body fun _ => final : ExceptT ε (Program S) α).run = _
  rw [ExceptT.run_map]
  simp only [tryFinally', ExceptT.run_mk, map_bind, bind_assoc, pure_bind]
  apply bind_congr
  intro r
  cases r with
  | error e =>
    apply bind_congr
    intro c
    cases c <;> rfl
  | ok a =>
    apply bind_congr
    intro c
    cases c <;> rfl

/-- Run a program `n` times in a row and record for each time its result and its calls. -/
def iterate (h : Handler S σ) (p : Program S α) : ℕ → σ → List (α × List S.Call)
  | 0, _ => []
  | n + 1, s => ((p.exec h s).1, p.trace h s) :: iterate h p n (p.exec h s).2

end Program

end Interaction
