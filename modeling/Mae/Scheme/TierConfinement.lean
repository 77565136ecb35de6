import Mae.Scheme.Trail

/-! Permission tiers over whole sessions of evaluations on one machine. -/

namespace Mae.Scheme

open Library Exec List

variable {W : Type}

inductive Session where
  | eval (source : String)
  | within (tier : PermissionTier) (body : Session)
  | both (first second : Session)

def newest (l₀ l : List Invocation) : List Invocation := l.take (l.length - l₀.length)

structure Report where
  result : Except LispError Value
  invocations : List Invocation

namespace Session

def run (host : Host W) (timeout : Option LispError) (fuel : ℕ) : Session → VmM W (List Report)
  | .eval source => do
    let before ← Exec.get
    let result ← Exec.attempt ((calls host timeout fuel).eval source)
    let after ← Exec.get
    return [⟨result, newest before.store.invocations after.store.invocations⟩]
  | .within tier body => withAmbientTier tier (body.run host timeout fuel)
  | .both first second => do
    let reports ← first.run host timeout fuel
    let more ← second.run host timeout fuel
    return reports ++ more

def tiers : PermissionTier → Session → List PermissionTier
  | a, .eval _ => [a]
  | a, .within tier body => body.tiers (min a tier)
  | a, .both first second => first.tiers a ++ second.tiers a

end Session

def Report.EndsAtDenial (r : Report) : Prop :=
  ∀ later f ambient earlier, r.invocations = later ++ .denied f ambient :: earlier →
    later = [] ∧ ∃ e, r.result = .error e ∧ e.isPermissionDenied = true

def Vm.InvokesWithin (m : Vm W) : Prop :=
  ∀ f args ambient required, .granted f args ambient ∈ m.store.invocations → f.tier.required = some required →
    required ≤ ambient

structure Vm.Fresh (m : Vm W) : Prop where
  codePool : m.codePool = []
  submitted : m.submitted = []
  executed : m.executed = []
  invocations : m.store.invocations = []

section

variable {l₀ l : List Invocation} {e : LispError} {m m' : Vm W}

lemma newest_append (new l₀ : List Invocation) : newest l₀ (new ++ l₀) = new := by simp [newest]

lemma not_denied_of_allowed {new later earlier : List Invocation} {f : ForeignFn} {ambient : PermissionTier}
    (h : ∀ i ∈ new, i.Allowed) : new ≠ later ++ .denied f ambient :: earlier := by
  rintro rfl
  exact h (.denied f ambient) (by simp)

lemma endsAtDenial_of_quiet (h : Quiet l₀ l) (r : Except LispError Value) : (⟨r, newest l₀ l⟩ : Report).EndsAtDenial := by
  obtain ⟨new, rfl, hnew⟩ := h
  intro later f ambient earlier hl
  rw [newest_append] at hl
  exact absurd hl (not_denied_of_allowed hnew)

lemma endsAtDenial_of_halts (h : Halts l₀ e l) : (⟨.error e, newest l₀ l⟩ : Report).EndsAtDenial := by
  rcases h with h | ⟨f, ambient, _, rfl, ⟨new, rfl, hnew⟩, he⟩
  · exact endsAtDenial_of_quiet h _
  · intro later f' ambient' earlier hl
    rw [← cons_append, newest_append] at hl
    refine ⟨?_, e, rfl, he⟩
    cases later with
    | nil => rfl
    | cons i later =>
      rw [cons_append, List.cons.injEq] at hl
      exact absurd hl.2 (not_denied_of_allowed hnew)

lemma Vm.InvokesWithin.of_quiet (hm : m.InvokesWithin) (h : Quiet m.store.invocations m'.store.invocations) :
    m'.InvokesWithin := by
  obtain ⟨new, hl, hnew⟩ := h
  intro f args ambient required hf hr
  rw [hl, mem_append] at hf
  rcases hf with hf | hf
  · exact hnew _ hf required hr
  · exact hm f args ambient required hf hr

lemma Vm.InvokesWithin.of_halts (hm : m.InvokesWithin) (h : Halts m.store.invocations e m'.store.invocations) :
    m'.InvokesWithin := by
  rcases h with h | ⟨f, ambient, l, hl, ⟨new, rfl, hnew⟩, -⟩
  · exact hm.of_quiet h
  · intro f' args ambient' required hf hr
    rw [hl] at hf
    simp only [mem_cons, reduceCtorEq, false_or, mem_append] at hf
    rcases hf with hf | hf
    · exact hnew _ hf required hr
    · exact hm f' args ambient' required hf hr

structure Session.Ready (s : Session) (H : Prop) (m : Vm W) : Prop where
  executed : ∀ q ∈ m.executed, q.1 < m.codePool.length
  shaped : ∀ code ∈ m.codePool, code.Shaped
  within : m.InvokesWithin
  confined : H → m.trail.Confined
  below : H → ∀ p ∈ m.submitted, ∀ u ∈ s.tiers m.ambientTier, u ≤ p.2
  falling : H → (s.tiers m.ambientTier).Pairwise (· ≥ ·)

structure Session.Ended (s : Session) (H : Prop) (m : Vm W) (reports : List Report) (m' : Vm W) : Prop where
  ambient : m'.ambientTier = m.ambientTier
  submitted : ∀ p ∈ m'.submitted, p ∈ m.submitted ∨ p.2 ∈ s.tiers m.ambientTier
  executed : ∀ q ∈ m'.executed, q.1 < m'.codePool.length
  shaped : ∀ code ∈ m'.codePool, code.Shaped
  confined : H → m'.trail.Confined
  within : m'.InvokesWithin
  reports : ∀ r ∈ reports, r.EndsAtDenial

variable (host : Host W) (timeout : Option LispError) (fuel : ℕ) {H : Prop}

lemma Session.eval_ended {source : String} (h : (Session.eval source).Ready H m) :
    wp ((Session.eval source).run host timeout fuel) m ((Session.eval source).Ended H m) fun _ _ => False := by
  have hm : Orderly H m.store.invocations m.submitted m.ambientTier m := by
    refine ⟨⟨rfl, fun p hp => Or.inl hp, h.executed, h.shaped, fun hH => ⟨h.confined hH, fun p hp => ?_⟩⟩, Quiet.refl _⟩
    exact h.below hH p hp m.ambientTier (mem_singleton_self _)
  have hend {m' : Vm W} {r : Report} (ht : m'.trail.Tiers H m.submitted m.ambientTier) (hw : m'.InvokesWithin)
      (hr : r.EndsAtDenial) : (Session.eval source).Ended H m [r] m' := by
    refine ⟨ht.ambient, fun p hp => (ht.submitted p hp).imp_right fun hp => ?_, ht.executed, ht.shaped,
      fun hH => (ht.confined hH).1, hw, by simpa using hr⟩
    exact hp ▸ mem_singleton_self _
  simp only [Session.run, wp_bind, wp_get, wp_attempt, wp_pure]
  refine ((calls_confines host timeout fuel).eval source m hm).mono (fun v m' h' => ?_) fun e m' h' => ?_
  · exact hend h'.1.1 (h.within.of_quiet h'.1.2) (endsAtDenial_of_quiet h'.1.2 _)
  · exact hend h'.1 (h.within.of_halts h'.2) (endsAtDenial_of_halts h'.2)

theorem Session.run_ended (s : Session) (h : s.Ready H m) :
    wp (s.run host timeout fuel) m (s.Ended H m) fun _ _ => False := by
  induction s generalizing m with
  | eval source => exact Session.eval_ended host timeout fuel h
  | within tier body ih =>
    have hbody : body.Ready H { m with ambientTier := min m.ambientTier tier } :=
      ⟨h.executed, h.shaped, h.within, h.confined, h.below, h.falling⟩
    simp only [Session.run, withAmbientTier, wp_bind, wp_get, wp_modify, wp_attempt]
    refine (ih hbody).mono (fun reports m' h' => ?_) fun _ _ h' => h'.elim
    exact ⟨rfl, h'.submitted, h'.executed, h'.shaped, h'.confined, h'.within, h'.reports⟩
  | both first second ihf ihs =>
    have hpair (hH : H) := pairwise_append.1 (h.falling hH)
    have hfirst : first.Ready H m :=
      ⟨h.executed, h.shaped, h.within, h.confined,
        fun hH p hp u hu => h.below hH p hp u (mem_append_left _ hu), fun hH => (hpair hH).1⟩
    simp only [Session.run, wp_bind, wp_pure]
    refine (ihf hfirst).mono (fun reports m1 h1 => ?_) fun _ _ h' => h'.elim
    have hsecond : second.Ready H m1 := by
      refine ⟨h1.executed, h1.shaped, h1.within, h1.confined, fun hH p hp u hu => ?_, fun hH => ?_⟩
      · rw [h1.ambient] at hu
        rcases h1.submitted p hp with hp | hp
        · exact h.below hH p hp u (mem_append_right _ hu)
        · exact (hpair hH).2.2 p.2 hp u hu
      · rw [h1.ambient]
        exact (hpair hH).2.1
    refine (ihs hsecond).mono (fun more m2 h2 => ?_) fun _ _ h' => h'.elim
    refine ⟨h2.ambient.trans h1.ambient, fun p hp => ?_, h2.executed, h2.shaped, h2.confined, h2.within, fun r hr => ?_⟩
    · rcases h2.submitted p hp with hp | hp
      · exact (h1.submitted p hp).imp_right fun hp => mem_append_left _ hp
      · exact Or.inr (mem_append_right _ (h1.ambient ▸ hp))
    · rcases mem_append.1 hr with hr | hr
      · exact h1.reports r hr
      · exact h2.reports r hr

end

def guestPrograms : Host (List Value) :=
  .sample [("guest", [.list [sym "begin", sym "nope", .list [sym "shell-command", .string "make"]]]), ("host", [.int 0])]

def shellCommand : ForeignFn := ⟨"shell-command", 1, .fixed 1, .requires .shell⟩

def guestMachine : Vm (List Value) :=
  { Vm.new (.new []) with globals := (∅ : Env).insert "shell-command" (.foreign shellCommand) }

def guestSession (guest host : PermissionTier) : Session :=
  .both (.within guest (.eval "guest")) (.within host (.eval "host"))

def sessionTrail (s : Session) : Option (List (ℕ × PermissionTier) × List (ℕ × PermissionTier) × List Invocation) :=
  (s.run guestPrograms none 20 guestMachine).map fun p => (p.2.executed, p.2.submitted, p.2.store.invocations)

end Mae.Scheme
