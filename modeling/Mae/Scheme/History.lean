import Mae.Scheme.CodeShape
import Mae.Scheme.Invariant

/-! What a machine keeps whatever it evaluates: the continuations it has captured, and the environments of the libraries
it has defined. -/

namespace Mae.Scheme

open Library Exec Relation

variable {W : Type}

structure Vm.Retains (m₀ m : Vm W) : Prop where
  continuations : m₀.store.continuations <+: m.store.continuations
  length : m₀.store.envs.length ≤ m.store.envs.length
  envs : ∀ i < m₀.store.envs.length, m₀.libraryEnv ≠ some i → m.store.envs[i]? = m₀.store.envs[i]?
  libraryEnv : ∀ i, m.libraryEnv = some i → m₀.libraryEnv = some i ∨ m₀.store.envs.length ≤ i

namespace Vm.Retains

variable {m₀ m m' : Vm W}

protected lemma refl (m : Vm W) : m.Retains m :=
  ⟨List.prefix_rfl, le_rfl, fun _ _ _ => rfl, fun _ h => Or.inl h⟩

lemma congr (h : m₀.Retains m) (hc : m'.store.continuations = m.store.continuations := by rfl)
    (he : m'.store.envs = m.store.envs := by rfl) (hl : m'.libraryEnv = m.libraryEnv := by rfl) : m₀.Retains m' :=
  ⟨hc ▸ h.continuations, he ▸ h.length, he ▸ h.envs, hl ▸ h.libraryEnv⟩

lemma core (h : m₀.Retains m) (hc : m'.core = m.core) : m₀.Retains m' :=
  h.congr (congrArg (fun c => c.store.continuations) hc) (congrArg (fun c => c.store.envs) hc)
    (congrArg (fun c => c.libraryEnv) hc)

lemma defineGlobal (h : m₀.Retains m) (name : String) (v : Value) : m₀.Retains (m.defineGlobal name v) := by
  rw [Vm.defineGlobal, Vm.mapLibraryEnv]
  split
  · exact h.congr
  · rename_i i hi
    have hi' : m.libraryEnv = some i := hi
    refine ⟨h.continuations, ?_, fun j hj hne => ?_, h.libraryEnv⟩
    · simpa [Vm.mapStore] using h.length
    · have hij : i ≠ j := by
        rintro rfl
        rcases h.libraryEnv i hi' with hi | hi
        · exact hne hi
        · omega
      simpa [Vm.mapStore, hij] using h.envs j hj hne

lemma fresh {store : Store W} (h : m₀.Retains { m with store := store }) : m₀.Retains (Vm.new store) :=
  ⟨h.continuations, h.length, h.envs, by simp [Vm.new]⟩

lemma moduleEnv (h : m₀.Retains m) (env : Env) :
    m₀.Retains { m.mapStore fun s => { s with envs := s.envs ++ [env] } with libraryEnv := some m.store.envs.length } := by
  refine ⟨h.continuations, ?_, fun i hi hne => ?_, ?_⟩
  · simp only [Vm.mapStore, List.length_append]
    exact h.length.trans (Nat.le_add_right _ _)
  · rw [← h.envs i hi hne]
    exact List.getElem?_append_left (hi.trans_le h.length)
  · rintro i ⟨⟩
    exact Or.inr h.length

protected lemma trans {m₁ m₂ : Vm W} (h : m₀.Retains m₁) (h' : m₁.Retains m₂) : m₀.Retains m₂ where
  continuations := h.continuations.trans h'.continuations
  length := h.length.trans h'.length
  envs i hi hne := by
    have hne' : m₁.libraryEnv ≠ some i := by
      intro hl
      rcases h.libraryEnv i hl with hl | hl
      · exact hne hl
      · omega
    rw [h'.envs i (hi.trans_le h.length) hne', h.envs i hi hne]
  libraryEnv i hi := by
    rcases h'.libraryEnv i hi with hi | hi
    · exact h.libraryEnv i hi
    · exact Or.inr (h.length.trans hi)

end Vm.Retains

section

variable {host : Host W} {self : Calls W} {m₀ m : Vm W}

lemma retains_runInvariant (heval : ∀ source, Preserves m₀.Retains (fun _ => m₀.Retains) (self.eval source)) :
    RunInvariant self m₀.Retains fun _ => m₀.Retains where
  core h hc := h.core hc
  error_core h hc := h.core hc
  executed h _ := h.congr
  continuation _ h := ⟨h.continuations.trans (List.prefix_append _ _), h.length, h.envs, h.libraryEnv⟩
  granted _ h _ := h.congr
  denied _ _ h := h.congr
  error _ h := h
  recovered h _ := h
  global _ _ _ _ _ v h := h.defineGlobal _ v
  evals _ _ _ _ := heval

variable (heval : ∀ source, Preserves m₀.Retains (fun _ => m₀.Retains) (self.eval source))
include heval

lemma registerStdlib_retains : Preserves m₀.Retains (fun _ => m₀.Retains) (registerStdlib host self) := by
  refine Yields.bind (.modify fun m h => h.congr) fun _ _ => ?_
  refine Yields.recover (heval _) (fun _ _ => .modify fun m h => h.congr) fun e m _ => ?_
  trivial

lemma evalTemplate_retains {tier : PermissionTier} {form : Value} {store s : Store W} {r : Except LispError Value}
    (h : m₀.Retains (Vm.new store)) (hr : evalTemplate host self tier form store = some (r, s)) :
    m₀.Retains (Vm.new s) := by
  let body : VmM W Value := do
    registerStdlib host self
    let m ← Exec.get
    withAmbientTier tier (self.eval (host.display m.store.world form))
  have hbody : wp body (Vm.new store) (fun _ => m₀.Retains) fun _ => m₀.Retains := by
    simp only [body, withAmbientTier, wp_bind, wp_get, wp_modify, wp_attempt]
    refine (registerStdlib_retains heval _ h).mono (fun _ m hm => ?_) fun _ _ hm => hm
    have hlow : m₀.Retains { m with ambientTier := min m.ambientTier tier } := hm.1.congr
    exact (heval _ _ hlow).mono (fun _ _ hm => hm.1.congr) fun _ _ hm => hm.congr
  simp only [evalTemplate, Option.map_eq_some_iff, Prod.mk.injEq] at hr
  obtain ⟨⟨_ | _, m⟩, hm, rfl, rfl⟩ := hr
  · exact Vm.Retains.fresh (hbody.of_error hm)
  · exact Vm.Retains.fresh (hbody.of_ok hm)

variable (host) in
lemma compilerInvariant_retains :
    CompilerInvariant (services host self) Discipline.nesting (fun c => m₀.Retains (Vm.new c.store))
      fun _ c => m₀.Retains (Vm.new c.store) where
  scopes _ h := h
  macros _ h := h
  gensym _ h := h
  code _ h _ := h
  named _ h := h
  included _ h := h.congr
  expanded _ _ _ h hs := evalTemplate_retains heval h hs
  failed _ _ _ h hs := evalTemplate_retains heval h hs
  error _ h := h

variable (host) in
lemma retains_evalInvariant : EvalInvariant host self m₀.Retains fun _ => m₀.Retains where
  toRunInvariant := retains_runInvariant heval
  compiled {m fuel exprs id c} h hid := by
    have hc := compileTopLevel_yields (compilerInvariant_retains host heval) fuel exprs (.ofVm m) h.fresh
    obtain ⟨hstore, -⟩ := hc.of_ok hid
    exact ⟨hstore.continuations, hstore.length, hstore.envs, h.libraryEnv⟩
  rejected {m fuel exprs e c} h he := by
    have hc := compileTopLevel_yields (compilerInvariant_retains host heval) fuel exprs (.ofVm m) h.fresh
    have hstore := hc.of_error he
    exact ⟨hstore.continuations, hstore.length, hstore.envs, h.libraryEnv⟩
  imported _ h := h.congr
  opened h := ⟨h.continuations, h.length, h.envs, by simp⟩
  moduleEnv env h := h.moduleEnv env
  closed hs h := ⟨h.continuations, h.length, h.envs, hs.libraryEnv⟩
  library _ h := h.congr

end

theorem calls_retain (host : Host W) (m₀ : Vm W) (timeout : Option LispError) (fuel : ℕ) :
    (calls host timeout fuel).Preserve m₀.Retains (fun _ => m₀.Retains) ∧
      ∀ source, Preserves m₀.Retains (fun _ => m₀.Retains) ((calls host timeout fuel).eval source) :=
  calls_preserve host (fun _ _ _ h => h)
    (fun _ hself _ => retains_evalInvariant host (hself ()).2) timeout fuel ()

inductive Happens (host : Host W) (m : Vm W) : Vm W → Prop
  | turn {timeout fuel r m'} (h : step host (calls host timeout fuel) m = some (r, m')) : Happens host m m'
  | call {timeout fuel argc tail r m'} (h : doCall host (calls host timeout fuel) argc tail m = some (r, m')) :
      Happens host m m'
  | eval {timeout fuel source r m'} (h : (calls host timeout fuel).eval source m = some (r, m')) : Happens host m m'
  | context {stack frames handlers winders} :
      Happens host m { m with stack := stack, frames := frames, handlers := handlers, winders := winders }

abbrev Later (host : Host W) : Vm W → Vm W → Prop := ReflTransGen (Happens host)

lemma retains_of_preserves {α : Type} {x : VmM W α} {m₀ m m' : Vm W} {r : Except LispError α}
    (hx : Preserves m₀.Retains (fun _ => m₀.Retains) x) (hm : m₀.Retains m) (h : x m = some (r, m')) :
    m₀.Retains m' := by
  cases r with
  | ok v => exact ((hx m hm).of_ok h).1
  | error e => exact (hx m hm).of_error h

lemma Happens.retains {host : Host W} {m m' : Vm W} (h : Happens host m m') : m.Retains m' := by
  cases h with
  | @turn timeout fuel r _ h =>
    obtain ⟨hself, heval⟩ := calls_retain host m timeout fuel
    exact retains_of_preserves (step_preserves (retains_runInvariant heval) hself) (.refl m) h
  | @call timeout fuel argc tail r _ h =>
    obtain ⟨hself, heval⟩ := calls_retain host m timeout fuel
    exact retains_of_preserves (doCall_preserves (retains_runInvariant heval) hself argc tail) (.refl m) h
  | @eval timeout fuel source r _ h => exact retains_of_preserves ((calls_retain host m timeout fuel).2 source) (.refl m) h
  | context => exact (Vm.Retains.refl m).core rfl

theorem Later.retains {host : Host W} {m m' : Vm W} (h : Later host m m') : m.Retains m' := by
  induction h with
  | refl => exact .refl m
  | tail _ hstep ih => exact ih.trans hstep.retains

end Mae.Scheme
