import Mathlib

/-! Handlers of requests: they work on a state and answer or fail, and what they did to the state stays either way. -/

namespace Mae.Library

def Handler (σ ε α : Type) : Type := σ → σ × Except ε α

namespace Handler

variable {σ τ ε ε' α β : Type}

def answer (a : α) : Handler σ ε α := fun s => (s, .ok a)

def fail (e : ε) : Handler σ ε α := fun s => (s, .error e)

def andThen (m : Handler σ ε α) (f : α → Handler σ ε β) : Handler σ ε β := fun s =>
  match m s with
  | (s', .ok a) => f a s'
  | (s', .error e) => (s', .error e)

instance : Monad (Handler σ ε) where
  pure := answer
  bind := andThen

def look (f : σ → α) : Handler σ ε α := fun s => (s, .ok (f s))

def change (f : σ → σ) : Handler σ ε Unit := fun s => (f s, .ok ())

def ofExcept (r : Except ε α) : Handler σ ε α := fun s => (s, r)

def ofOption (a : Option α) (e : ε) : Handler σ ε α :=
  match a with
  | some a => answer a
  | none => fail e

def check (holds : Bool) (e : ε) : Handler σ ε Unit := if holds then answer () else fail e

def when (c : Bool) (m : Handler σ ε Unit) : Handler σ ε Unit := if c then m else answer ()

def mapError (f : ε → ε') (m : Handler σ ε α) : Handler σ ε' α := fun s => ((m s).1, (m s).2.mapError f)

def attempt (m : Handler σ ε α) : Handler σ ε' (Except ε α) := fun s => ((m s).1, .ok (m s).2)

def each (f : α → Handler σ ε Unit) : List α → Handler σ ε Unit
  | [] => answer ()
  | a :: as => andThen (f a) fun _ => each f as

def Ends (m : Handler σ ε α) (s : σ) (Q : α → σ → Prop) (E : σ → Prop) : Prop :=
  match m s with
  | (s', .ok a) => Q a s'
  | (s', .error _) => E s'

abbrev Keeps (m : Handler σ ε α) (s : σ) (I : σ → Prop) : Prop := m.Ends s (fun _ => I) I

section Rules

variable {s : σ} {Q Q' : α → σ → Prop} {E E' I : σ → Prop} {R : β → σ → Prop} {m : Handler σ ε α}
  {f : α → Handler σ ε β}

lemma Ends.mono (h : m.Ends s Q E) (hQ : ∀ a s', Q a s' → Q' a s') (hE : ∀ s', E s' → E' s') : m.Ends s Q' E' := by
  rw [Ends] at h ⊢
  generalize m s = r at h
  obtain ⟨s', e | a⟩ := r
  · exact hE s' h
  · exact hQ a s' h

lemma ends_answer {a : α} (h : Q a s) : (answer a : Handler σ ε α).Ends s Q E := h

lemma ends_pure {a : α} (h : Q a s) : (pure a : Handler σ ε α).Ends s Q E := h

lemma ends_fail {e : ε} (h : E s) : (fail e).Ends s Q E := h

lemma ends_change {f : σ → σ} {Q : Unit → σ → Prop} (h : Q () (f s)) : (change f : Handler σ ε Unit).Ends s Q E := h

section

variable (hm : m.Ends s Q E) (hf : ∀ a s', Q a s' → (f a).Ends s' R E)
include hm hf

lemma Ends.andThen : (m.andThen f).Ends s R E := by
  rw [Ends] at hm
  rw [Ends, Handler.andThen]
  generalize m s = r at hm
  obtain ⟨s', e | a⟩ := r
  · exact hm
  · exact hf a s' hm

lemma Ends.bind : (m >>= f).Ends s R E := hm.andThen hf

end

lemma Keeps.bind (hm : m.Keeps s I) (hf : ∀ a s', I s' → (f a).Ends s' R I) : (m >>= f).Ends s R I := hm.andThen hf

lemma Keeps.reply {g : α → β} (hm : m.Keeps s I) : (m >>= fun a => pure (g a)).Keeps s I :=
  hm.bind fun _ _ h => h

lemma ends_ofExcept {r : Except ε α} (hok : ∀ a, r = .ok a → Q a s) (herror : E s) : (ofExcept r).Ends s Q E := by
  cases r with
  | ok a => exact hok a rfl
  | error e => exact herror

lemma ends_check {holds : Bool} {e : ε} {Q : Unit → σ → Prop} (h : holds = true → Q () s) (hE : E s) :
    (check holds e).Ends s Q E := by
  cases holds with
  | true => exact h rfl
  | false => exact hE

lemma ends_ofExcept_bind {r : Except ε α} (hE : E s) (hf : ∀ a, r = .ok a → (f a).Ends s R E) :
    (ofExcept r >>= f).Ends s R E := by
  cases r with
  | ok a => exact hf a rfl
  | error e => exact hE

lemma ends_ofOption_bind {a : Option α} {e : ε} (hE : E s) (hf : ∀ x, a = some x → (f x).Ends s R E) :
    (ofOption a e >>= f).Ends s R E := by
  cases a with
  | some x => exact hf x rfl
  | none => exact hE

lemma ends_check_bind {holds : Bool} {e : ε} {f : Unit → Handler σ ε β} (hE : E s)
    (hf : holds = true → (f ()).Ends s R E) : (check holds e >>= f).Ends s R E := by
  cases holds with
  | true => exact hf rfl
  | false => exact hE

lemma ends_look_bind {g : σ → α} (hf : (f (g s)).Ends s R E) : (look g >>= f).Ends s R E := hf

lemma ends_when {c : Bool} {m : Handler σ ε Unit} {Q : Unit → σ → Prop} (h : c = true → m.Ends s Q E)
    (hskip : c = false → Q () s) : (when c m).Ends s Q E := by
  cases c with
  | true => exact h rfl
  | false => exact hskip rfl

lemma Ends.mapError {f : ε → ε'} (h : m.Ends s Q E) : (m.mapError f).Ends s Q E := by
  rw [Ends] at h
  rw [Ends, Handler.mapError]
  generalize m s = r at h
  obtain ⟨s', a | a⟩ := r
  · exact h
  · exact h

lemma Ends.attempt {Q' : Except ε α → σ → Prop} (h : m.Ends s (fun a => Q' (.ok a)) (fun s' => ∀ e, Q' (.error e) s')) :
    (m.attempt : Handler σ ε' (Except ε α)).Ends s Q' E := by
  rw [Ends] at h
  rw [Ends, Handler.attempt]
  generalize m s = r at h
  obtain ⟨s', e | a⟩ := r
  · exact h e
  · exact h

lemma Keeps.attempt (h : m.Keeps s I) : (m.attempt : Handler σ ε' (Except ε α)).Ends s (fun _ => I) E :=
  Ends.attempt (h.mono (fun _ _ h => h) fun _ h _ => h)

lemma ends_each {f : α → Handler σ ε Unit} {as : List α} (h : I s)
    (hstep : ∀ a ∈ as, ∀ s', I s' → (f a).Ends s' (fun _ => I) E) : (each f as).Ends s (fun _ => I) E := by
  induction as generalizing s with
  | nil => exact h
  | cons a as ih =>
    obtain ⟨ha, has⟩ := List.forall_mem_cons.mp hstep
    exact (ha s h).andThen fun _ s' hs' => ih hs' has

lemma Keeps.state (h : m.Keeps s I) : I (m s).1 := by
  rw [Keeps, Ends] at h
  generalize m s = r at h
  obtain ⟨s', e | a⟩ := r
  · exact h
  · exact h

lemma keeps_of_state (h : I (m s).1) : m.Keeps s I := by
  rw [Keeps, Ends]
  generalize m s = r at h
  obtain ⟨s', e | a⟩ := r
  · exact h
  · exact h

end Rules

def Moves (R : σ → σ → Prop) (m : Handler σ ε α) : Prop := ∀ s, R s (m s).1

section Moves

variable {R : σ → σ → Prop} {m : Handler σ ε α}

lemma Moves.mapError (h : m.Moves R) (f : ε → ε') : (m.mapError f).Moves R := h

lemma Moves.attempt (h : m.Moves R) : (m.attempt : Handler σ ε' (Except ε α)).Moves R := h

lemma Moves.ends (h : m.Moves R) (s : σ) : m.Keeps s (R s) := keeps_of_state (h s)

def Preserves (I : σ → Prop) (s s' : σ) : Prop := I s → I s'

instance (I : σ → Prop) : Std.Refl (Preserves I) := ⟨fun _ h => h⟩

instance (I : σ → Prop) : IsTrans σ (Preserves I) := ⟨fun _ _ _ h h' hs => h' (h hs)⟩

lemma Moves.keeps {I : σ → Prop} {s : σ} (h : m.Moves (Preserves I)) (hs : I s) : m.Keeps s I := keeps_of_state (h s hs)

variable [Std.Refl R]

lemma moves_answer (a : α) : (answer a : Handler σ ε α).Moves R := fun s => refl s

lemma moves_pure (a : α) : (pure a : Handler σ ε α).Moves R := fun s => refl s

lemma moves_fail (e : ε) : (fail e : Handler σ ε α).Moves R := fun s => refl s

lemma moves_look (f : σ → α) : (look f : Handler σ ε α).Moves R := fun s => refl s

lemma moves_ofExcept (r : Except ε α) : (ofExcept r).Moves R := fun s => refl s

lemma moves_ofOption (a : Option α) (e : ε) : (ofOption a e).Moves R := by
  cases a with
  | some a => exact moves_answer a
  | none => exact moves_fail e

lemma moves_ofOption_bind {a : Option α} {e : ε} {f : α → Handler σ ε β} (hf : ∀ x, a = some x → (f x).Moves R) :
    (ofOption a e >>= f).Moves R := by
  cases a with
  | some x => exact hf x rfl
  | none => exact moves_fail e

lemma moves_check (holds : Bool) (e : ε) : (check holds e).Moves R := by
  cases holds with
  | true => exact moves_answer ()
  | false => exact moves_fail e

lemma Moves.when {m : Handler σ ε Unit} (h : m.Moves R) (c : Bool) : (Handler.when c m).Moves R := by
  cases c with
  | true => exact h
  | false => exact moves_answer ()

variable [IsTrans σ R]

omit [Std.Refl R] in
lemma Moves.andThen {f : α → Handler σ ε β} (hm : m.Moves R) (hf : ∀ a, (f a).Moves R) : (m.andThen f).Moves R := by
  intro s
  have hs := hm s
  rw [Handler.andThen]
  generalize m s = r at hs
  obtain ⟨s', e | a⟩ := r
  · exact hs
  · exact IsTrans.trans _ _ _ hs (hf a s')

omit [Std.Refl R] in
lemma Moves.bind {f : α → Handler σ ε β} (hm : m.Moves R) (hf : ∀ a, (f a).Moves R) : (m >>= f).Moves R :=
  hm.andThen hf

lemma Moves.reply {g : α → β} (hm : m.Moves R) : (m >>= fun a => pure (g a)).Moves R := hm.bind fun _ => moves_pure _

lemma moves_each {f : α → Handler σ ε Unit} (hf : ∀ a, (f a).Moves R) (as : List α) : (each f as).Moves R := by
  induction as with
  | nil => exact moves_answer ()
  | cons a as ih => exact (hf a).andThen fun _ => ih

end Moves

lemma snd_bind_congr {m : Handler σ ε α} {f : α → Handler σ ε β} {s s' : σ} (h : (m s).2 = (m s').2)
    (hf : ∀ a t t', (f a t).2 = (f a t').2) : ((m >>= f) s).2 = ((m >>= f) s').2 := by
  change (m.andThen f s).2 = (m.andThen f s').2
  rw [andThen, andThen]
  generalize m s = r at h
  generalize m s' = r' at h
  obtain ⟨t, e | a⟩ := r
  · obtain ⟨t', r'⟩ := r'
    obtain rfl := h
    rfl
  · obtain ⟨t', r'⟩ := r'
    obtain rfl := h
    exact hf a t t'

end Handler

end Mae.Library
