import Mae.Scheme.Invariant

/-! What a `define-library` form leaves behind. -/

namespace Mae.Scheme

open Library Exec

variable {W : Type}

def Vm.importedEnv (m : Vm W) (env : Env) (sets : List ImportSet) : Option Env :=
  sets.foldlM (fun env s => do
    let lib ← m.library? s.library
    let new ← (resolveImport s lib).toOption
    return env.insertMany new.toList) env

def Vm.inLibrary (m : Vm W) (env : Env) : Vm W :=
  { m.mapStore fun s => { s with envs := s.envs ++ [env] } with
    globals := env
    libraryEnv := some m.store.envs.length }

def Vm.NoEval (m : Vm W) : Prop := ∀ code ∈ m.codePool, ∀ op ∈ code.ops, op ≠ .eval ∧ op ≠ .load
  deriving Decidable

def Vm.Hosts (host : Host W) (self : Calls W) (fuel : ℕ) (m : Vm W) (lib : LibraryDef) : Prop :=
  ∃ env, m.importedEnv ∅ lib.imports = some env ∧
    (∀ e m', runLibraryBody host self fuel lib.body (m.inLibrary env) ≠ some (.error e, m')) ∧
    ∀ id m', compileForms host self fuel lib.body (m.inLibrary env) = some (.ok id, m') → m'.NoEval

def Vm.Atomic (m : Vm W) (r : Except LispError Unit) (m' : Vm W) : Prop :=
  m'.globals = m.globals ∧ m'.libraryEnv = m.libraryEnv ∧
    match r with
    | .error _ => m'.libraries = m.libraries
    | .ok () => ∃ lib, m'.libraries = lib :: m.libraries

variable {host : Host W} {self : Calls W} {m : Vm W}

lemma forM_importSet (unknown : LibraryName → LispError) {sets : List ImportSet} {globals env : Env}
    (h : m.importedEnv globals sets = some env) :
    sets.forM (importSet unknown) { m with globals := globals, libraryEnv := none } =
      some (.ok (), { m with globals := env, libraryEnv := none }) := by
  induction sets generalizing globals with
  | nil =>
    obtain rfl : globals = env := by simpa [Vm.importedEnv] using h
    rfl
  | cons s sets ih =>
    simp only [Vm.importedEnv, List.foldlM_cons, Option.bind_eq_bind, Option.bind_eq_some_iff, Option.pure_def,
      Option.some.injEq] at h
    obtain ⟨_, ⟨lib, hlib, new, hnew, rfl⟩, h⟩ := h
    have hset : importSet unknown s { m with globals := globals, libraryEnv := none } =
        some (.ok (), { m with globals := globals.insertMany new.toList, libraryEnv := none }) := by
      have hlib' : ({ m with globals := globals, libraryEnv := none }).library? s.library = some lib := hlib
      have hnew' : resolveImport s lib = .ok new := by
        cases hr : resolveImport s lib with
        | error e => simp [hr, Except.toOption] at hnew
        | ok env => simpa [hr, Except.toOption] using hnew
      simp only [importSet, bind_apply, get_apply, hlib', hnew', lift_apply, modify_apply]
    change (importSet unknown s >>= fun _ => sets.forM (importSet unknown)) _ = _
    rw [bind_of_ok hset]
    exact ih h

lemma Vm.defineGlobal_libraries (m : Vm W) (name : String) (v : Value) :
    (m.defineGlobal name v).libraries = m.libraries ∧ (m.defineGlobal name v).codePool = m.codePool := by
  rw [Vm.defineGlobal, Vm.mapLibraryEnv]
  split <;> exact ⟨rfl, rfl⟩

lemma noEval_runInvariant (hm : m.NoEval) (self : Calls W) :
    RunInvariant self (fun m' => m'.libraries = m.libraries ∧ m'.codePool = m.codePool)
      fun _ m' => m'.libraries = m.libraries ∧ m'.codePool = m.codePool where
  core h hc := ⟨(congrArg (fun c => c.libraries) hc).trans h.1, (congrArg (fun c => c.codePool) hc).trans h.2⟩
  error_core h hc := ⟨(congrArg (fun c => c.libraries) hc).trans h.1, (congrArg (fun c => c.codePool) hc).trans h.2⟩
  executed h _ := h
  continuation _ h := h
  granted _ h _ := h
  denied _ _ h := h
  error _ h := h
  recovered h _ := h
  global _ _ _ _ m' v h := by
    obtain ⟨hl, hc⟩ := m'.defineGlobal_libraries _ v
    exact ⟨hl.trans h.1, hc.trans h.2⟩
  evals h hcode hop heval := by
    obtain ⟨hne, hnl⟩ := hm _ (h.2 ▸ hcode) _ hop
    rcases heval with rfl | rfl
    · exact absurd rfl hne
    · exact absurd rfl hnl

lemma compileForms_libraries (fuel : ℕ) (exprs : List Value) (m : Vm W) :
    wp (compileForms host self fuel exprs) m (fun _ m' => m'.libraries = m.libraries) fun _ _ => True :=
  wp_compileForms (fun _ _ _ => rfl) fun _ _ _ => trivial

lemma runLibraryBody_libraries {timeout : Option LispError} {n fuel : ℕ} {body : List Value}
    (h : ∀ id m', compileForms host (calls host timeout n) fuel body m = some (.ok id, m') → m'.NoEval) :
    wp (runLibraryBody host (calls host timeout n) fuel body) m (fun _ m' => m'.libraries = m.libraries)
      fun _ _ => True := by
  rw [runLibraryBody]
  split
  · rfl
  · rw [wp_bind]
    refine (compileForms_libraries fuel body m).mono_eq (fun id m1 hid hm1 => ?_) fun _ _ _ h => h
    have hnone := h id m1 hid
    have hself := calls_preserve_run host (fun _ _ h => h) (noEval_runInvariant hnone) timeout n
    have hrun : Preserves _ _ (execute host (calls host timeout n) id) :=
      execute_preserves (noEval_runInvariant hnone _) hself id
    rw [wp_bind]
    exact (hrun m1 ⟨rfl, rfl⟩).mono (fun _ m2 hm2 => hm2.1.1.trans hm1) fun _ _ _ => trivial

lemma collectExports_spec (saved : Vm W) (env : ℕ) (lib : LibraryDef) (specs : List (String × String)) (exports : Env)
    (m : Vm W) :
    wp (collectExports saved env lib specs exports) m (fun _ m' => m' = m) fun _ m' =>
      m' = { m with globals := saved.globals, libraryEnv := saved.libraryEnv } := by
  induction specs generalizing exports with
  | nil => rfl
  | cons spec specs ih =>
    rw [collectExports, wp_bind, wp_get]
    split
    · exact ih _
    · rfl

def libraryPrograms : Host SampleWorld :=
  .primitive [("pair", [.list [sym "define-library", .list [sym "inner"]]])]

def libraryForm (decls : List Value) : List Value := sym "define-library" :: .list [sym "outer"] :: decls

def libraryOutcome (items : List Value) : Option (Bool × Option Value × Option ℕ × List LibraryName) :=
  (processDefineLibrary libraryPrograms (calls libraryPrograms none 20) 20 items .primitive).map fun p =>
    (p.1.toOption.isNone, p.2.globals["display"]?, p.2.libraryEnv, p.2.libraries.map SchemeLibrary.name)

def constantLibrary : List Value :=
  libraryForm [.list [sym "export", sym "f"], .list [sym "begin", .list [sym "define", sym "f", .int 1]]]

end Mae.Scheme
