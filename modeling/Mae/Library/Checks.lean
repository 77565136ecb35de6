import Mathlib

/-! Chains of checks, the first of which that fails gives the answer. -/

namespace Mae.Library.Checks

variable {ε ε' α β : Type}

instance existsSome (found : Option α) (P : α → Prop) [DecidablePred P] : Decidable (∃ a, found = some a ∧ P a) :=
  decidable_of_iff (found.any fun a => decide (P a)) (by simp [Option.any_eq_true])

instance forallSome (found : Option α) (P : α → Prop) [DecidablePred P] : Decidable (∀ a, found = some a → P a) :=
  decidable_of_iff (found.all fun a => decide (P a)) (by simp [Option.all_eq_true])

lemma bind_ok_iff {x : Except ε α} {f : α → Except ε β} {b : β} : x >>= f = .ok b ↔ ∃ a, x = .ok a ∧ f a = .ok b := by
  cases x with
  | error e => simp [bind, Except.bind]
  | ok a => simp [bind, Except.bind]

lemma mapError_ok_iff {x : Except ε α} {f : ε → ε'} {a : α} : x.mapError f = .ok a ↔ x = .ok a := by
  cases x with
  | error e => simp [Except.mapError]
  | ok a => simp [Except.mapError]

lemma elim_ok_iff {x : Option α} {e : ε} {a : α} : x.elim (.error e) Except.ok = .ok a ↔ x = some a := by
  cases x with
  | none => simp
  | some b => simp

def requires (holds : Bool) (message : ε) : Except ε Unit := if holds then .ok () else .error message

lemma requires_ok_iff {holds : Bool} {message : ε} {a : Unit} : requires holds message = .ok a ↔ holds = true := by
  cases holds with
  | false => simp [requires]
  | true => simp [requires]

lemma exists_ok_of_mapM {f : α → Except ε β} {xs : List α} {ys : List β} (h : xs.mapM f = .ok ys) :
    ∀ x ∈ xs, ∃ y, f x = .ok y := by
  induction xs generalizing ys with
  | nil => simp
  | cons x xs ih =>
    rw [List.mapM_cons] at h
    obtain ⟨y, hy, h⟩ := bind_ok_iff.mp h
    obtain ⟨zs, hzs, -⟩ := bind_ok_iff.mp h
    exact List.forall_mem_cons.mpr ⟨⟨y, hy⟩, ih hzs⟩

end Mae.Library.Checks
