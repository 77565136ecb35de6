import Mathlib.Logic.Basic

/-! Computations over a state that errors keep: an error carries on the state it was raised in, and a run that yields
no result at all (out of fuel, or stuck) is `none`. -/

namespace Mae.Library

def Exec (σ ε α : Type) : Type := σ → Option (Except ε α × σ)

namespace Exec

variable {σ ε α β : Type}

instance : Monad (Exec σ ε) where
  pure a := fun s => some (.ok a, s)
  bind x f := fun s =>
    match x s with
    | none => none
    | some (.error e, s') => some (.error e, s')
    | some (.ok a, s') => f a s'

lemma bind_apply (x : Exec σ ε α) (f : α → Exec σ ε β) (s : σ) : (x >>= f) s = match x s with
      | none => none
      | some (.error e, s') => some (.error e, s')
      | some (.ok a, s') => f a s' :=
  rfl

instance : LawfulMonad (Exec σ ε) :=
  LawfulMonad.mk' (Exec σ ε)
    (fun x => by
      funext s
      change (x >>= pure) s = x s
      rw [bind_apply]
      rcases x s with _ | ⟨_ | _, _⟩ <;> rfl)
    (fun _ _ => rfl)
    (fun x f g => by
      funext s
      rw [bind_apply, bind_apply, bind_apply]
      rcases x s with _ | ⟨_ | _, _⟩ <;> rfl)

def throw (e : ε) : Exec σ ε α := fun s => some (.error e, s)

def get : Exec σ ε σ := fun s => some (.ok s, s)

def modify (f : σ → σ) : Exec σ ε Unit := fun s => some (.ok (), f s)

def stuck : Exec σ ε α := fun _ => none

def require (b : Bool) (e : ε) : Exec σ ε Unit := if b then pure () else throw e

def lift (r : Except ε α) : Exec σ ε α := fun s => some (r, s)

def attempt (x : Exec σ ε α) : Exec σ ε (Except ε α) := fun s => (x s).map fun p => (.ok p.1, p.2)

def ofState (f : σ → Except ε α × σ) : Exec σ ε α := fun s => some (f s)

@[simp] lemma pure_apply (a : α) (s : σ) : (pure a : Exec σ ε α) s = some (.ok a, s) := rfl

@[simp] lemma throw_apply (e : ε) (s : σ) : (throw e : Exec σ ε α) s = some (.error e, s) := rfl

@[simp] lemma get_apply (s : σ) : (get : Exec σ ε σ) s = some (.ok s, s) := rfl

@[simp] lemma modify_apply (f : σ → σ) (s : σ) : (modify f : Exec σ ε Unit) s = some (.ok (), f s) := rfl

@[simp] lemma stuck_apply (s : σ) : (stuck : Exec σ ε α) s = none := rfl

@[simp] lemma lift_apply (r : Except ε α) (s : σ) : (lift r) s = some (r, s) := rfl

@[simp] lemma ofState_apply (f : σ → Except ε α × σ) (s : σ) : ofState f s = some (f s) := rfl

lemma require_of_true {b : Bool} (e : ε) (s : σ) (h : b = true) : (require b e) s = some (.ok (), s) := by
  subst h
  rfl

variable {f : α → Exec σ ε β} {s' : σ} {x : Exec σ ε α}

lemma bind_of_ok {s : σ} {a : α} (h : x s = some (.ok a, s')) : (x >>= f) s = f a s' := by
  rw [bind_apply, h]

lemma bind_of_error {s : σ} {e : ε} (h : x s = some (.error e, s')) : (x >>= f) s = some (.error e, s') := by
  rw [bind_apply, h]

lemma bind_eq_some {s : σ} {r : Except ε β} (h : (x >>= f) s = some (r, s')) :
    (∃ e, x s = some (.error e, s') ∧ r = .error e) ∨ ∃ a t, x s = some (.ok a, t) ∧ f a t = some (r, s') := by
  rw [bind_apply] at h
  cases hx : x s with
  | none => simp [hx] at h
  | some p =>
    obtain ⟨ra, t⟩ := p
    cases ra with
    | error e =>
      rw [hx] at h
      obtain ⟨rfl, rfl⟩ := h
      exact Or.inl ⟨e, rfl, rfl⟩
    | ok a =>
      rw [hx] at h
      exact Or.inr ⟨a, t, rfl, h⟩

lemma bind_eq_ok {s : σ} {b : β} :
    (x >>= f) s = some (.ok b, s') ↔ ∃ a t, x s = some (.ok a, t) ∧ f a t = some (.ok b, s') := by
  constructor
  · intro h
    rcases bind_eq_some h with ⟨e, -, he⟩ | h
    · exact absurd he (by simp)
    · exact h
  · rintro ⟨a, t, hx, hf⟩
    rw [bind_of_ok hx, hf]

def wp (x : Exec σ ε α) (s : σ) (Q : α → σ → Prop) (E : ε → σ → Prop) : Prop :=
  match x s with
  | none => True
  | some (.ok a, s') => Q a s'
  | some (.error e, s') => E e s'

section

variable {Q Q' : α → σ → Prop} {E E' : ε → σ → Prop} {s s' : σ} {x : Exec σ ε α}

lemma wp.of_ok {a : α} (h : wp x s Q E) (hx : x s = some (.ok a, s')) : Q a s' := by
  simpa only [wp, hx] using h

lemma wp.of_error {e : ε} (h : wp x s Q E) (hx : x s = some (.error e, s')) : E e s' := by
  simpa only [wp, hx] using h

lemma wp.mono_eq (h : wp x s Q E) (hQ : ∀ a t, x s = some (.ok a, t) → Q a t → Q' a t)
    (hE : ∀ e t, x s = some (.error e, t) → E e t → E' e t) :
    wp x s Q' E' := by
  unfold wp at h ⊢
  cases hx : x s with
  | none => trivial
  | some p =>
    obtain ⟨r, t⟩ := p
    cases r with
    | ok a => exact hQ a t hx (by simpa only [hx] using h)
    | error e => exact hE e t hx (by simpa only [hx] using h)

lemma wp.mono (h : wp x s Q E) (hQ : ∀ a t, Q a t → Q' a t) (hE : ∀ e t, E e t → E' e t) : wp x s Q' E' :=
  h.mono_eq (fun a t _ => hQ a t) fun e t _ => hE e t

lemma wp_of_forall (hQ : ∀ a t, Q a t) (hE : ∀ e t, E e t) : wp x s Q E := by
  rw [wp]
  split
  · trivial
  · exact hQ _ _
  · exact hE _ _

@[simp] lemma wp_pure (a : α) : wp (pure a) s Q E ↔ Q a s := Iff.rfl

@[simp] lemma wp_throw (e : ε) : wp (throw e) s Q E ↔ E e s := Iff.rfl

@[simp] lemma wp_get {Q : σ → σ → Prop} : wp get s Q E ↔ Q s s := Iff.rfl

@[simp] lemma wp_modify (f : σ → σ) {Q : Unit → σ → Prop} : wp (modify f) s Q E ↔ Q () (f s) :=
  Iff.rfl

@[simp] lemma wp_require (b : Bool) (e : ε) {Q : Unit → σ → Prop} :
    wp (require b e) s Q E ↔ (b = true → Q () s) ∧ (b = false → E e s) := by
  cases b <;> simp [require]

@[simp] lemma wp_lift_ok (a : α) : wp (lift (.ok a)) s Q E ↔ Q a s := Iff.rfl

@[simp] lemma wp_bind (x : Exec σ ε β) (f : β → Exec σ ε α) :
    wp (x >>= f) s Q E ↔ wp x s (fun b t => wp (f b) t Q E) E := by
  unfold wp
  rw [bind_apply]
  cases hx : x s with
  | none => rfl
  | some p =>
    obtain ⟨r, t⟩ := p
    cases r <;> rfl

@[simp] lemma wp_attempt (x : Exec σ ε α) {Q : Except ε α → σ → Prop} :
    wp (attempt x) s Q E ↔ wp x s (fun a t => Q (.ok a) t) (fun e t => Q (.error e) t) := by
  unfold wp attempt
  cases hx : x s with
  | none => rfl
  | some p =>
    obtain ⟨r, t⟩ := p
    cases r <;> rfl

lemma wp_forM {I : σ → Prop} {l : List β} {f : β → Exec σ ε Unit}
    (hf : ∀ b ∈ l, ∀ t, I t → wp (f b) t (fun _ => I) E) (hs : I s) : wp (l.forM f) s (fun _ => I) E := by
  induction l generalizing s with
  | nil => exact hs
  | cons b l ih =>
    change wp (f b >>= fun _ => l.forM f) s _ _
    rw [wp_bind]
    refine (hf b List.mem_cons_self s hs).mono (fun _ t ht => ?_) (fun _ _ h => h)
    exact ih (fun b' hb' => hf b' (List.mem_cons_of_mem b hb')) ht

lemma wp_ite {c : Prop} [Decidable c] {y : Exec σ ε α} :
    wp (if c then x else y) s Q E ↔ (c → wp x s Q E) ∧ (¬ c → wp y s Q E) := by
  split <;> simp_all

end

def Yields (I : σ → Prop) (E : ε → σ → Prop) (P : α → Prop) (x : Exec σ ε α) : Prop :=
  ∀ s, I s → wp x s (fun a t => I t ∧ P a) E

abbrev Preserves (I : σ → Prop) (E : ε → σ → Prop) (x : Exec σ ε α) : Prop := Yields I E (fun _ => True) x

namespace Yields

variable {I : σ → Prop} {E : ε → σ → Prop} {P P' : α → Prop} {Q : β → Prop}

protected lemma pure {a : α} (h : P a) : Yields I E P (pure a) := fun _ hs => ⟨hs, h⟩

protected lemma bind {x : Exec σ ε α} {f : α → Exec σ ε β} (hx : Yields I E P x)
    (hf : ∀ a, P a → Yields I E Q (f a)) : Yields I E Q (x >>= f) := by
  intro s hs
  rw [wp_bind]
  exact (hx s hs).mono (fun a t h => hf a h.2 t h.1) (fun _ _ h => h)

protected lemma mono {x : Exec σ ε α} (hx : Yields I E P x) (h : ∀ a, P a → P' a) : Yields I E P' x := fun s hs =>
  (hx s hs).mono (fun a _ ht => ⟨ht.1, h a ht.2⟩) (fun _ _ ht => ht)

protected lemma throw {e : ε} (h : ∀ s, I s → E e s) : Yields I E P (throw e) := fun s hs => h s hs

protected lemma require {b : Bool} {e : ε} (h : ∀ s, I s → E e s) : Yields I E (fun _ => b = true) (require b e) := by
  cases b with
  | true => exact .pure rfl
  | false => exact .throw h

protected lemma stuck : Yields I E P stuck := fun _ _ => trivial

protected lemma get : Yields I E I get := fun _ hs => ⟨hs, hs⟩

protected lemma modify {f : σ → σ} (hf : ∀ s, I s → I (f s)) : Yields I E (fun _ => True) (modify f) :=
  fun s hs => ⟨hf s hs, trivial⟩

protected lemma lift {r : Except ε α} (hok : ∀ a, r = .ok a → P a) (herr : ∀ e s, I s → E e s) :
    Yields I E P (lift r) := by
  intro s hs
  cases r with
  | ok a => exact ⟨hs, hok a rfl⟩
  | error e => exact herr e s hs

protected lemma recover {x : Exec σ ε α} {k : Except ε α → Exec σ ε β} (hx : Yields I E P x)
    (hok : ∀ a, P a → Yields I E Q (k (.ok a)))
    (herr : ∀ e s, E e s → wp (k (.error e)) s (fun b t => I t ∧ Q b) E) : Yields I E Q (Exec.attempt x >>= k) := by
  intro s hs
  rw [wp_bind, wp_attempt]
  exact (hx s hs).mono (fun a t h => hok a h.2 t h.1) herr

protected lemma mapM {l : List β} {f : β → Exec σ ε α} (hf : ∀ b, Yields I E P (f b)) :
    Yields I E (fun as => ∀ a ∈ as, P a) (l.mapM f) := by
  induction l with
  | nil =>
    exact Yields.pure (by simp)
  | cons b l ih =>
    rw [List.mapM_cons]
    refine (hf b).bind fun a ha => ih.bind fun as has => Yields.pure ?_
    simpa using ⟨ha, has⟩

protected lemma forM {l : List β} {f : β → Exec σ ε Unit} (hf : ∀ b, Yields I E (fun _ => True) (f b)) :
    Yields I E (fun _ => True) (l.forM f) := by
  induction l with
  | nil => exact Yields.pure trivial
  | cons b l ih => exact (hf b).bind fun _ _ => ih

end Yields

end Exec

end Mae.Library
