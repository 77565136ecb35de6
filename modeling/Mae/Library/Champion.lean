import Mathlib

/-! The element of a list that no other element beats, found in one scan. -/

namespace Mae.Library.Champion

variable {α β : Type*} (beats : α → α → Bool)

def challenge (champion : Option α) (a : α) : Option α :=
  match champion with
  | none => some a
  | some c => if beats a c then some a else some c

def best (l : List α) : Option α := l.foldl (challenge beats) none

@[simp] lemma challenge_none (a : α) : challenge beats none a = some a := rfl

@[simp] lemma challenge_some (c a : α) : challenge beats (some c) a = if beats a c then some a else some c := rfl

@[simp] lemma best_nil : best beats [] = none := rfl

lemma best_concat (l : List α) (a : α) : best beats (l ++ [a]) = challenge beats (best beats l) a := by
  simp [best]

lemma best_filter_concat (p : α → Bool) (l : List α) (a : α) : best beats ((l ++ [a]).filter p) =
      if p a then challenge beats (best beats (l.filter p)) a else best beats (l.filter p) := by
  rw [List.filter_append, List.filter_singleton]
  cases p a with
  | true => exact best_concat beats (l.filter p) a
  | false => simp

lemma best_eq_none_iff (l : List α) : best beats l = none ↔ l = [] := by
  induction l using List.reverseRecOn with
  | nil => simp
  | append_singleton l a _ =>
    rw [best_concat]
    cases best beats l with
    | none => simp
    | some c => cases hb : beats a c <;> simp [hb]

variable {beats}

lemma best_mem {l : List α} {c : α} (hc : best beats l = some c) : c ∈ l := by
  induction l using List.reverseRecOn generalizing c with
  | nil => simp at hc
  | append_singleton l a ih =>
    rw [best_concat] at hc
    cases hl : best beats l with
    | none => simp_all
    | some d =>
      rw [hl, challenge_some] at hc
      split_ifs at hc
      · simp_all
      · cases hc
        exact List.mem_append_left _ (ih hl)

structure IsContest (beats : α → α → Bool) : Prop where
  irrefl : ∀ a, beats a a = false
  trans : ∀ a b c, beats a b = true → beats b c = true → beats a c = true

section

variable {κ : Type*} [LinearOrder κ] (key : α → κ) (hkey : ∀ a b, beats a b = true ↔ key b < key a)
include hkey

lemma isContest_of_key : IsContest beats where
  irrefl a := by
    rw [← Bool.not_eq_true, hkey]
    exact lt_irrefl _
  trans a b c hab hbc := (hkey a c).mpr (((hkey b c).mp hbc).trans ((hkey a b).mp hab))

lemma key_eq_of_unbeaten {a b : α} (hab : beats a b = false) (hba : beats b a = false) : key a = key b := by
  rw [← Bool.not_eq_true, hkey, not_lt] at hab hba
  exact le_antisymm hab hba

end

lemma best_unbeaten (hb : IsContest beats) {l : List α} {c : α} (hc : best beats l = some c) :
    ∀ a ∈ l, beats a c = false := by
  induction l using List.reverseRecOn generalizing c with
  | nil => simp
  | append_singleton l b ih =>
    rw [best_concat] at hc
    intro a ha
    rw [List.mem_append, List.mem_singleton] at ha
    cases hl : best beats l with
    | none =>
      have hnil := (best_eq_none_iff beats l).mp hl
      simp_all [hb.irrefl]
    | some d =>
      rw [hl, challenge_some] at hc
      split_ifs at hc with hbd
      · cases hc
        rcases ha with ha | rfl
        · by_contra hab
          have hda := hb.trans a b d (by simpa using hab) hbd
          rw [ih hl a ha] at hda
          exact Bool.false_ne_true hda
        · exact hb.irrefl a
      · cases hc
        rcases ha with ha | rfl
        · exact ih hl a ha
        · simpa using hbd

lemma best_map_eq_some_iff (hb : IsContest beats) {l : List α} {f : α → β}
    (hf : ∀ a ∈ l, ∀ b ∈ l, beats a b = false → beats b a = false → f a = f b) {x : β} :
    (best beats l).map f = some x ↔ ∃ c ∈ l, f c = x ∧ ∀ a ∈ l, beats a c = false := by
  constructor
  · intro h
    obtain ⟨c, hc, rfl⟩ := Option.map_eq_some_iff.mp h
    exact ⟨c, best_mem hc, rfl, best_unbeaten hb hc⟩
  · rintro ⟨c, hc, rfl, hbest⟩
    cases hl : best beats l with
    | none => simp [(best_eq_none_iff beats l).mp hl] at hc
    | some d => rw [Option.map_some, hf d (best_mem hl) c hc (hbest d (best_mem hl)) (best_unbeaten hb hl c hc)]

lemma best_map_congr (hb : IsContest beats) {l l' : List α} (f : α → β)
    (hf : ∀ a ∈ l, ∀ b ∈ l, beats a b = false → beats b a = false → f a = f b)
    (hm : ∀ a, a ∈ l' ↔ a ∈ l) : (best beats l').map f = (best beats l).map f := by
  ext x
  rw [best_map_eq_some_iff hb hf, best_map_eq_some_iff hb]
  · simp only [hm]
  · simpa only [hm] using hf

end Mae.Library.Champion
