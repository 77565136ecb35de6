import Mathlib

/-! Words written one after the other: closed by a terminator, or all of one length. -/

namespace Mae.Library.Framing

open List

variable {α β : Type*}

lemma append_terminator_inj {z : α} {x y s t : List α} (hx : z ∉ x) (hy : z ∉ y) (h : x ++ z :: s = y ++ z :: t) :
    x = y ∧ s = t := by
  classical
  have hfront : ∀ {x s : List α}, z ∉ x → (x ++ z :: s).takeWhile (· ≠ z) = x := by
    intro x s hx
    rw [takeWhile_append_of_pos fun a ha => by simpa using ne_of_mem_of_not_mem ha hx]
    simp
  obtain rfl : x = y := by rw [← hfront hx, h, hfront hy]
  exact ⟨rfl, by simpa using h⟩

lemma flatMap_terminated_inj {z : α} {xs ys : List (List α)} (hx : ∀ x ∈ xs, z ∉ x) (hy : ∀ y ∈ ys, z ∉ y)
    (h : xs.flatMap (· ++ [z]) = ys.flatMap (· ++ [z])) : xs = ys := by
  induction xs generalizing ys with
  | nil =>
    cases ys with
    | nil => rfl
    | cons y ys => simp at h
  | cons x xs ih =>
    cases ys with
    | nil => simp at h
    | cons y ys =>
      rw [forall_mem_cons] at hx hy
      simp only [flatMap_cons, append_assoc, singleton_append] at h
      obtain ⟨rfl, hrest⟩ := append_terminator_inj hx.1 hy.1 h
      rw [ih hx.2 hy.2 hrest]

lemma flatMap_terminated_append_inj {z : α} {xs ys : List (List α)} {s t : List α} (hlen : xs.length = ys.length)
    (hx : ∀ x ∈ xs, z ∉ x) (hy : ∀ y ∈ ys, z ∉ y)
    (h : xs.flatMap (· ++ [z]) ++ s = ys.flatMap (· ++ [z]) ++ t) : xs = ys ∧ s = t := by
  induction xs generalizing ys with
  | nil =>
    obtain rfl := eq_nil_of_length_eq_zero hlen.symm
    exact ⟨rfl, h⟩
  | cons x xs ih =>
    cases ys with
    | nil => simp at hlen
    | cons y ys =>
      rw [forall_mem_cons] at hx hy
      simp only [flatMap_cons, append_assoc, singleton_append] at h
      obtain ⟨rfl, hrest⟩ := append_terminator_inj hx.1 hy.1 h
      obtain ⟨rfl, hst⟩ := ih (Nat.succ.inj hlen) hx.2 hy.2 hrest
      exact ⟨rfl, hst⟩

lemma flatMap_injective_of_length {f : α → List β} {k : ℕ} (hf : Function.Injective f)
    (hlen : ∀ a, (f a).length = k + 1) : Function.Injective fun xs : List α => xs.flatMap f := by
  have hne : ∀ a, f a ≠ [] := fun a => ne_nil_of_length_eq_add_one (hlen a)
  intro xs
  induction xs with
  | nil =>
    intro ys h
    cases ys with
    | nil => rfl
    | cons b ys => simp [hne b] at h
  | cons a xs ih =>
    intro ys h
    cases ys with
    | nil => simp [hne a] at h
    | cons b ys =>
      obtain ⟨hab, hrest⟩ := append_inj h ((hlen a).trans (hlen b).symm)
      rw [hf hab, ih hrest]

end Mae.Library.Framing
