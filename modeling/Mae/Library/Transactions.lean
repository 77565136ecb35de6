import Mathlib

/-! Programs made of atomic transactions on a shared state, run alone or interleaved with others. -/

namespace Mae.Library

inductive Proc (σ ε α : Type) where
  | done (a : α)
  | fail (e : ε)
  | atomic (write : σ → σ) (next : σ → Proc σ ε α)

namespace Proc

variable {σ ε α β : Type}

def bind : Proc σ ε α → (α → Proc σ ε β) → Proc σ ε β
  | done a, f => f a
  | fail e, _ => fail e
  | atomic write next, f => atomic write fun s => (next s).bind f

instance : Monad (Proc σ ε) where
  pure := done
  bind := bind

def read (f : σ → α) : Proc σ ε α := atomic id fun s => done (f s)

def modify (f : σ → σ) : Proc σ ε Unit := atomic f fun _ => done ()

/-- The program alone, with nobody between its transactions. -/
def run : Proc σ ε α → σ → Except ε α × σ
  | done a, s => (.ok a, s)
  | fail e, s => (.error e, s)
  | atomic write next, s => (next s).run (write s)

def step : Proc σ ε α → σ → Proc σ ε α × σ
  | atomic write next, s => (next s, write s)
  | p, s => (p, s)

/-- A pool of programs on one state; the schedule names the program that makes its next transaction. -/
def interleave (pool : ℕ → Proc σ ε α) (s : σ) : List ℕ → (ℕ → Proc σ ε α) × σ
  | [] => (pool, s)
  | h :: schedule => interleave (Function.update pool h ((pool h).step s).1) ((pool h).step s).2 schedule

@[simp] lemma run_pure (a : α) (s : σ) : (pure a : Proc σ ε α).run s = (.ok a, s) := rfl

@[simp] lemma run_fail (e : ε) (s : σ) : (fail e : Proc σ ε α).run s = (.error e, s) := rfl

@[simp] lemma run_read (f : σ → α) (s : σ) : (read f : Proc σ ε α).run s = (.ok (f s), s) := rfl

@[simp] lemma run_modify (f : σ → σ) (s : σ) : (modify f : Proc σ ε Unit).run s = (.ok (), f s) := rfl

lemma run_bind (p : Proc σ ε α) (f : α → Proc σ ε β) (s : σ) : (p >>= f).run s = match p.run s with
      | (.ok a, t) => (f a).run t
      | (.error e, t) => (.error e, t) := by
  change (p.bind f).run s = _
  induction p generalizing s with
  | done a => rfl
  | fail e => rfl
  | atomic write next ih => exact ih s (write s)

end Proc

end Mae.Library
