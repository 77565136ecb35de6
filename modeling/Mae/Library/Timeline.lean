import Mathlib.Data.List.Basic

/-! Undo and redo over a linear history. -/

namespace Mae.Library

structure Journal (α τ : Type) where
  redo : α → τ → Option τ
  undo : α → τ → Option τ

namespace Journal

variable {α τ : Type}

def Recorded (J : Journal α τ) (a : α) (s t : τ) : Prop := J.redo a s = some t ∧ J.undo a t = some s

inductive Leads (J : Journal α τ) : List α → τ → τ → Prop
  | nil (t) : Leads J [] t t
  | cons {a as s t u} (h : J.Recorded a s t) (hs : Leads J as t u) : Leads J (a :: as) s u

inductive Past (J : Journal α τ) (P : ℕ → τ → Prop) : List α → τ → Prop
  | start {t} (h : P 0 t) : Past J P [] t
  | step {a us s t} (hr : J.Recorded a s t) (ht : P (us.length + 1) t) (h : Past J P us s) : Past J P (a :: us) t

inductive Future (J : Journal α τ) (P : ℕ → τ → Prop) : ℕ → List α → τ → Prop
  | last {n t} : Future J P n [] t
  | step {a rs n s t} (hr : J.Recorded a s t) (ht : P (n + 1) t) (h : Future J P (n + 1) rs t) : Future J P n (a :: rs) s

variable {J : Journal α τ} {P Q : ℕ → τ → Prop} {a : α} {us rs : List α} {n : ℕ} {s t : τ}

lemma Past.here (h : J.Past P us t) : P us.length t := by
  cases h with
  | start h => exact h
  | step _ ht _ => exact ht

lemma Past.undo (h : J.Past P (a :: us) t) (hrs : J.Future P (us.length + 1) rs t) :
    ∃ s, J.Recorded a s t ∧ J.Past P us s ∧ J.Future P us.length (a :: rs) s := by
  cases h with
  | @step _ _ s _ hr ht h => exact ⟨s, hr, h, .step hr ht hrs⟩

lemma Future.redo (h : J.Future P us.length (a :: rs) s) (hus : J.Past P us s) :
    ∃ t, J.Recorded a s t ∧ J.Past P (a :: us) t ∧ J.Future P (us.length + 1) rs t := by
  cases h with
  | @step _ _ _ _ t hr ht h => exact ⟨t, hr, .step hr ht hus, h⟩

lemma Past.relabel (h : J.Past P us t) (hlt : ∀ k x, k < us.length → P k x → Q k x) (ht : Q us.length t) :
    J.Past Q us t := by
  induction h with
  | start _ => exact .start ht
  | @step a us s t hr _ h ih =>
    refine .step hr ht (ih (fun k x hk => hlt k x (Nat.lt_succ_of_lt hk)) ?_)
    exact hlt _ _ (Nat.lt_succ_self _) h.here

lemma Future.relabel (h : J.Future P n rs t) (hgt : ∀ k x, n < k → P k x → Q k x) : J.Future Q n rs t := by
  induction h with
  | last => exact .last
  | @step a rs n s t hr ht h ih =>
    exact .step hr (hgt _ _ (Nat.lt_succ_self _) ht) (ih fun k x hk => hgt k x (Nat.lt_of_succ_lt hk))

lemma Past.mono (h : J.Past P us t) (hPQ : ∀ k x, P k x → Q k x) : J.Past Q us t :=
  h.relabel (fun k x _ => hPQ k x) (hPQ _ _ h.here)

lemma Future.mono (h : J.Future P n rs t) (hPQ : ∀ k x, P k x → Q k x) : J.Future Q n rs t :=
  h.relabel fun k x _ => hPQ k x

lemma Past.take (h : J.Past P us t) (hP : ∀ k l x, P k x → P l x) (n : ℕ) : J.Past P (us.take n) t := by
  induction h generalizing n with
  | start h =>
    rw [List.take_nil]
    exact .start h
  | @step a us s t hr ht h ih =>
    cases n with
    | zero => exact .start (hP _ _ _ ht)
    | succ n => exact .step hr (hP _ _ _ ht) (ih n)

lemma Future.shift (h : J.Future P n rs t) (hP : ∀ k l x, P k x → P l x) (m : ℕ) : J.Future P m rs t := by
  induction h generalizing m with
  | last => exact .last
  | step hr ht _ ih => exact .step hr (hP _ _ _ ht) (ih (m + 1))

lemma Leads.snoc {as : List α} {r : τ} (h : J.Leads as r s) (ha : J.Recorded a s t) : J.Leads (as ++ [a]) r t := by
  induction h with
  | nil => exact .cons ha (.nil t)
  | cons hr _ ih => exact .cons hr (ih ha)

lemma Past.split {as : List α} (h : J.Past P (as ++ us) t) : ∃ s, J.Past P us s ∧ J.Leads as.reverse s t := by
  induction as generalizing t with
  | nil => exact ⟨t, h, .nil t⟩
  | cons a as ih =>
    cases h with
    | step hr _ h =>
      obtain ⟨s, hs, hleads⟩ := ih h
      rw [List.reverse_cons]
      exact ⟨s, hs, hleads.snoc hr⟩

end Journal

end Mae.Library
