import Mae.Scheme.CodeShape
import Mae.Scheme.Invariant

/-! What a machine records of its past, and what every evaluation keeps of it: the tiers of what it runs, the log of the
foreign functions it invokes, and the shape of its code. -/

namespace Mae.Scheme

open Library Exec

def Invocation.Allowed : Invocation → Prop
  | .granted f _ ambient => ∀ required, f.tier.required = some required → required ≤ ambient
  | .denied _ _ => False

variable (H : Prop) (l₀ : List Invocation) (old : List (ℕ × PermissionTier)) (a : PermissionTier)

def Quiet (l : List Invocation) : Prop := ∃ new, l = new ++ l₀ ∧ ∀ i ∈ new, i.Allowed

def Halts (e : LispError) (l : List Invocation) : Prop :=
  Quiet l₀ l ∨ ∃ f ambient l', l = .denied f ambient :: l' ∧ Quiet l₀ l' ∧ e.isPermissionDenied = true

section Log

variable {l₀ l : List Invocation}

lemma Quiet.refl (l : List Invocation) : Quiet l l := ⟨[], rfl, by simp⟩

lemma Quiet.cons {i : Invocation} (h : Quiet l₀ l) (hi : i.Allowed) : Quiet l₀ (i :: l) := by
  obtain ⟨new, rfl, hnew⟩ := h
  exact ⟨i :: new, rfl, by simpa using ⟨hi, hnew⟩⟩

lemma Halts.quiet {e : LispError} (h : Halts l₀ e l) (he : e.isPermissionDenied = false) : Quiet l₀ l := by
  rcases h with h | ⟨_, _, _, _, _, hd⟩
  · exact h
  · simp [he] at hd

end Log

structure Trail where
  ambient : PermissionTier
  submitted : List (ℕ × PermissionTier)
  executed : List (ℕ × PermissionTier)
  codePool : List CodeObject
  invocations : List Invocation

namespace Trail

def Confined (t : Trail) : Prop := ∀ p ∈ t.submitted, ∀ q ∈ t.executed, q.1 = p.1 → q.2 ≤ p.2

structure Tiers (H : Prop) (old : List (ℕ × PermissionTier)) (a : PermissionTier) (t : Trail) : Prop where
  ambient : t.ambient = a
  submitted : ∀ p ∈ t.submitted, p ∈ old ∨ p.2 = a
  executed : ∀ q ∈ t.executed, q.1 < t.codePool.length
  shaped : ∀ code ∈ t.codePool, code.Shaped
  confined : H → t.Confined ∧ ∀ p ∈ t.submitted, a ≤ p.2

variable {H : Prop} {old : List (ℕ × PermissionTier)} {a : PermissionTier} {t : Trail}

lemma Tiers.log (h : t.Tiers H old a) (l : List Invocation) : { t with invocations := l }.Tiers H old a :=
  ⟨h.ambient, h.submitted, h.executed, h.shaped, h.confined⟩

lemma Tiers.execute (h : t.Tiers H old a) {id : ℕ} (hid : id < t.codePool.length) :
    { t with executed := (id, t.ambient) :: t.executed }.Tiers H old a where
  ambient := h.ambient
  submitted := h.submitted
  executed := by simpa using ⟨hid, fun id t' => h.executed (id, t')⟩
  shaped := h.shaped
  confined hH := by
    refine ⟨fun p hp q hq hqp => ?_, (h.confined hH).2⟩
    rcases List.mem_cons.1 hq with rfl | hq
    · exact h.ambient.le.trans ((h.confined hH).2 p hp)
    · exact (h.confined hH).1 p hp q hq hqp

lemma Tiers.submit (h : t.Tiers H old a) (id : ℕ) {new : List CodeObject} (hnew : ∀ code ∈ new, code.Shaped) : { t with
      submitted := (t.codePool.length + id, t.ambient) :: t.submitted
      codePool := t.codePool ++ new }.Tiers H old a where
  ambient := h.ambient
  submitted p hp := by
    rcases List.mem_cons.1 hp with rfl | hp
    · exact Or.inr h.ambient
    · exact h.submitted p hp
  executed q hq := by
    rw [List.length_append]
    exact Nat.lt_add_right _ (h.executed q hq)
  shaped := List.forall_mem_append.2 ⟨h.shaped, hnew⟩
  confined hH := by
    refine ⟨fun p hp q hq hqp => ?_, fun p hp => ?_⟩
    · rcases List.mem_cons.1 hp with rfl | hp
      · have := h.executed q hq
        omega
      · exact (h.confined hH).1 p hp q hq hqp
    · rcases List.mem_cons.1 hp with rfl | hp
      · exact h.ambient.ge
      · exact (h.confined hH).2 p hp

end Trail

variable {W α : Type}

def Vm.trail (m : Vm W) : Trail where
  ambient := m.ambientTier
  submitted := m.submitted
  executed := m.executed
  codePool := m.codePool
  invocations := m.store.invocations

def Orderly (m : Vm W) : Prop :=
  m.trail.Tiers H old a ∧ Quiet l₀ m.store.invocations

def Stopped (e : LispError) (m : Vm W) : Prop :=
  m.trail.Tiers H old a ∧ Halts l₀ e m.store.invocations

def Keeps (x : VmM W α) : Prop :=
  Yields (Orderly H l₀ old a) (Stopped H l₀ old a) (fun _ => True) x

structure Calls.Confines (c : Calls W) : Prop where
  run : ∀ {H l₀ old a}, Keeps H l₀ old a c.run
  runBlocking : ∀ {H l₀ old a}, Keeps H l₀ old a c.runBlocking
  doCall : ∀ {H l₀ old a} argc tail, Keeps H l₀ old a (c.doCall argc tail)
  eval : ∀ {H l₀ old a} source, Keeps H l₀ old a (c.eval source)

def Discipline.rebased {A : Type} (D : Discipline A) (base : ℕ) : Discipline A :=
  { D with
    Allows := fun ops => D.Allows (ops.map (Op.rebase base))
    allows_mono := fun h => D.allows_mono (h.map _)
    topLevelGuard := D.topLevelGuard
    bareGuard := D.bareGuard }

lemma Discipline.segment_rebase {A : Type} {D : Discipline A} {a b : A} {ops : List Op} (base : ℕ)
    (h : (D.rebased base).flow.Segment a ops b) : D.flow.Segment a (ops.map (Op.rebase base)) b := by
  have h' : D.flow.Segment a ops b := h
  refine h'.map (fun op a b hop => ?_) (fun op => ?_) fun op a b hop => ?_
  · cases op <;> exact hop
  · cases op <;> rfl
  · cases op <;> exact hop

lemma CodeObject.Shaped.rebase {code : CodeObject} (h : code.Shaped) (base : ℕ) : (code.rebase base).Shaped :=
  fun A D hD => D.segment_rebase base (h A (D.rebased base) hD)

section Trail

variable {m m' : Vm W} {H : Prop} {l₀ : List Invocation} {old : List (ℕ × PermissionTier)} {a : PermissionTier}
  {e : LispError}

lemma Orderly.congr (h : Orderly H l₀ old a m) (ht : m'.trail = m.trail) : Orderly H l₀ old a m' := by
  have hi : m'.store.invocations = m.store.invocations := congrArg Trail.invocations ht
  exact ⟨ht ▸ h.1, hi ▸ h.2⟩

lemma Stopped.congr (h : Stopped H l₀ old a e m) (ht : m'.trail = m.trail) : Stopped H l₀ old a e m' := by
  have hi : m'.store.invocations = m.store.invocations := congrArg Trail.invocations ht
  exact ⟨ht ▸ h.1, hi ▸ h.2⟩

lemma Orderly.stopped (h : Orderly H l₀ old a m) : Stopped H l₀ old a e m := ⟨h.1, Or.inl h.2⟩

lemma Stopped.orderly (h : Stopped H l₀ old a e m) (he : e.isPermissionDenied = false) : Orderly H l₀ old a m :=
  ⟨h.1, h.2.quiet he⟩

lemma Vm.defineGlobal_trail (name : String) (v : Value) (m : Vm W) : (m.defineGlobal name v).trail = m.trail := by
  rw [Vm.defineGlobal, Vm.mapLibraryEnv]
  split <;> rfl

lemma Vm.trail_of_core (h : m'.core = m.core) : m'.trail = m.trail := by
  have hcore (m : Vm W) : m.trail = m.core.trail := rfl
  rw [hcore, hcore, h]

lemma orderly_runInvariant (self : Calls W) (heval : ∀ source, Keeps H l₀ old a (self.eval source)) :
    RunInvariant self (Orderly H l₀ old a) (Stopped H l₀ old a) where
  core h hc := h.congr (Vm.trail_of_core hc)
  error_core h hc := h.congr (Vm.trail_of_core hc)
  executed h hid := ⟨h.1.execute hid, h.2⟩
  continuation _ h := h
  granted _ h hf := ⟨h.1.log _, h.2.cons hf⟩
  denied f _ h := ⟨h.1.log _, Or.inr ⟨f, _, _, rfl, h.2, rfl⟩⟩
  error _ h := h.stopped
  recovered h he := h.orderly he
  global _ _ _ _ _ v h := h.congr (Vm.defineGlobal_trail _ v _)
  evals _ _ _ _ := heval

end Trail

section Evaluation

variable {host : Host W} {self : Calls W} {H : Prop} {l₀ : List Invocation} {old : List (ℕ × PermissionTier)}
  {a : PermissionTier} (hself : self.Confines)
include hself

lemma registerStdlib_keeps : Keeps H l₀ old a (registerStdlib host self) := by
  refine Yields.bind (.modify fun m h => h.congr rfl) fun _ _ => ?_
  refine Yields.recover (hself.eval _) (fun _ _ => .modify fun m h => h.congr rfl) fun e m _ => ?_
  trivial

lemma evalTemplate_halts {tier : PermissionTier} {form : Value} {store s : Store W} {r : Except LispError Value}
    (hs : Quiet l₀ store.invocations) (h : evalTemplate host self tier form store = some (r, s)) :
    (∀ v, r = .ok v → Quiet l₀ s.invocations) ∧ ∀ e, r = .error e → Halts l₀ e s.invocations := by
  have hnew : Orderly False l₀ [] .privileged (Vm.new store) :=
    ⟨⟨rfl, by simp [Vm.trail, Vm.new], by simp [Vm.trail, Vm.new], by simp [Vm.trail, Vm.new], False.elim⟩, hs⟩
  let body : VmM W Value := do
    registerStdlib host self
    let m ← Exec.get
    withAmbientTier tier (self.eval (host.display m.store.world form))
  have hbody : wp body (Vm.new store) (fun _ m => Quiet l₀ m.store.invocations)
      (fun e m => Halts l₀ e m.store.invocations) := by
    simp only [body, withAmbientTier, wp_bind, wp_get, wp_modify, wp_attempt]
    refine (registerStdlib_keeps hself _ hnew).mono (fun _ m hm => ?_) fun e m hm => hm.2
    have hlow : Orderly False l₀ m.submitted (min m.ambientTier tier) { m with ambientTier := min m.ambientTier tier } :=
      ⟨⟨rfl, fun p hp => Or.inl hp, hm.1.1.executed, hm.1.1.shaped, False.elim⟩, hm.1.2⟩
    refine (hself.eval _ _ hlow).mono (fun v m' hm' => ?_) fun e m' hm' => ?_
    · exact hm'.1.2
    · exact hm'.2
  simp only [evalTemplate, Option.map_eq_some_iff, Prod.mk.injEq] at h
  obtain ⟨⟨_, m⟩, hm, rfl, rfl⟩ := h
  exact ⟨by rintro v rfl; exact hbody.of_ok hm, by rintro e rfl; exact hbody.of_error hm⟩

variable (host) in
lemma compilerInvariant_quiet {A : Type} (D : Discipline A) (l₀ : List Invocation) :
    CompilerInvariant (services host self) D (fun c => Quiet l₀ c.store.invocations)
      (fun e c => Halts l₀ e c.store.invocations) where
  scopes _ h := h
  macros _ h := h
  gensym _ h := h
  code _ h _ := h
  named _ h := h
  included _ h := h
  expanded _ v _ h hs := (evalTemplate_halts hself h hs).1 v rfl
  failed _ e _ h hs := (evalTemplate_halts hself h hs).2 e rfl
  error _ h := Or.inl h

variable (host) in
lemma orderly_evalInvariant : EvalInvariant host self (Orderly H l₀ old a) (Stopped H l₀ old a) where
  toRunInvariant := orderly_runInvariant self fun source => hself.eval source
  compiled {m fuel exprs id c} h hid := by
    have hc := compileTopLevel_yields (compilerInvariant_quiet host hself Discipline.nesting l₀) fuel exprs (.ofVm m) h.2
    have hshaped : ∀ code ∈ c.codePool, code.Shaped := compileTopLevel_shaped (by simp [Compiler.ofVm]) hid
    refine ⟨?_, (hc.of_ok hid).1⟩
    exact (h.1.submit id (List.forall_mem_map.2 fun code hm => (hshaped code hm).rebase _)).log c.store.invocations
  rejected {m fuel exprs e c} h he := by
    have hc := compileTopLevel_yields (compilerInvariant_quiet host hself Discipline.nesting l₀) fuel exprs (.ofVm m) h.2
    exact ⟨h.1.log _, hc.of_error he⟩
  imported _ h := h.congr rfl
  opened h := h.congr rfl
  moduleEnv _ h := h.congr rfl
  closed _ h := h.congr rfl
  library _ h := h.congr rfl

lemma Calls.Confines.preserve : self.Preserve (Orderly H l₀ old a) (Stopped H l₀ old a) :=
  ⟨hself.run, hself.runBlocking, hself.doCall⟩

lemma submit_keeps (fuel : ℕ) (source : String) : Keeps H l₀ old a (submit host self fuel source) :=
  submit_preserves (orderly_evalInvariant host hself) hself.preserve (fun source => hself.eval source) fuel source

end Evaluation

theorem calls_confines (host : Host W) (timeout : Option LispError) (fuel : ℕ) : (calls host timeout fuel).Confines := by
  have h := calls_preserve (ι := Prop × List Invocation × List (ℕ × PermissionTier) × PermissionTier)
    (I := fun i => Orderly i.1 i.2.1 i.2.2.1 i.2.2.2) host
    (fun _ _ _ hm => hm.stopped)
    (fun self hself i => orderly_evalInvariant host
      ⟨(hself (_, _, _, _)).1.run, (hself (_, _, _, _)).1.runBlocking, (hself (_, _, _, _)).1.doCall,
        (hself (_, _, _, _)).2⟩) timeout fuel
  exact ⟨(h (_, _, _, _)).1.run, (h (_, _, _, _)).1.runBlocking, (h (_, _, _, _)).1.doCall, (h (_, _, _, _)).2⟩

end Mae.Scheme
