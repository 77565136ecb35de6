import Mae.Scheme.Frames
import Mae.Scheme.Trail

/-! The code of an expression inside the code of a frame, and the turns of the machine until it has been evaluated. -/

namespace Mae.Scheme

open Library Exec Relation List

variable {W : Type}

section Quiet

variable {host : Host W} {self : Calls W} {m m' : Vm W} {f : Frame} {fs : List Frame}

lemma callOp_handlers (hm : m.store.continuations = []) {argc : ℕ} {tail : Bool}
    (hquiet : ∀ e m', doCall host self argc tail m = some (.error e, m') → e.yieldReason? = none →
      e.isPermissionDenied = true) :
    wp (callOp host self argc tail) m (fun _ m' => m'.handlers = m.handlers) fun _ _ => True := by
  unfold callOp
  rw [wp_bind, wp_attempt]
  refine (doCall_called hm argc tail).mono_eq (fun _ m' _ hc => hc.2.handlers) fun e m' hcall he => ?_
  cases hy : e.yieldReason? with
  | some reason =>
    simp only [hy]
    exact he.handlers
  | none =>
    simp only [hy, hquiet e m' hcall hy, if_true]
    trivial

lemma step_handlers (hm : m.Flat) (hframes : m.frames = f :: fs) (hf : f.Raising m.codePool)
    (hquiet : ¬ m.Raises host self) :
    wp (step host self) m (fun _ m' => m'.handlers = m.handlers) fun _ _ => True := by
  obtain ⟨code, op, hcode, hop, hraise⟩ := hf
  have hcall {m1 : Vm W} {argc : ℕ} {tail : Bool} (hsite : (m.advance f).callSite op = some (m1, argc, tail))
      (hc : m1.store.continuations = []) (hh : m1.handlers = m.handlers) :
      wp (callOp host self argc tail) m1 (fun _ m' => m'.handlers = m.handlers) fun _ _ => True := by
    rw [← hh]
    refine callOp_handlers hc fun e m' he hy => ?_
    by_contra hd
    exact hquiet ⟨f, fs, code, op, hframes, hcode, hop, Or.inr ⟨m1, argc, tail, e, m', hsite, he, hy, by simpa using hd⟩⟩
  unfold step
  simp only [wp_bind, wp_get, hframes, hcode, hop, wp_modify]
  cases op with
  | call argc => exact hcall rfl hm.continuations rfl
  | tailCall argc => exact hcall rfl hm.continuations rfl
  | apply =>
    unfold execOp
    simp only [wp_bind, wp_pop]
    cases hargs : applyArgs ((m.advance f).top .void) with
    | error e => trivial
    | ok args =>
      refine hcall ?_ hm.continuations rfl
      simp only [Vm.callSite, hargs]
  | raise => exact absurd ⟨f, fs, code, .raise, hframes, hcode, hop, Or.inl rfl⟩ hquiet
  | _ => simp [Op.raises] at hraise

lemma Advances.handlers (h : Advances host self m m') (hm : m.Flat) (hframes : m.frames = f :: fs)
    (hf : f.Raising m.codePool) (hquiet : ¬ m.Raises host self) : m'.handlers = m.handlers := by
  have hstep := step_handlers hm hframes hf hquiet
  rcases h with h | ⟨reason, m1, w, h, -, rfl⟩
  · exact hstep.of_ok h
  · have hm1 : m1.handlers = m.handlers := hstep.of_ok h
    exact hm1

end Quiet

def Placed (pool : List CodeObject) (codeId start : ℕ) (ops : List Op) : Prop :=
  ∃ code pre post, pool[codeId]? = some code ∧ code.ops = pre ++ ops ++ post ∧ pre.length = start

def labelsFrom {A : Type} (start : ℕ) (ls : List A) (i : ℕ) : Option A := if i < start then none else ls[i - start]?

section Labels

variable {A : Type} {D : Discipline A} {ls : List A} {a b : A} {ops pre post : List Op} {start i : ℕ}

lemma labelsFrom_add (start : ℕ) (ls : List A) (i : ℕ) : labelsFrom start ls (start + i) = ls[i]? := by
  simp [labelsFrom]

lemma exists_of_labelsFrom (h : labelsFrom start ls i = some a) : ∃ j, i = start + j ∧ ls[j]? = some a := by
  unfold labelsFrom at h
  split at h
  · cases h
  · exact ⟨i - start, by omega, h⟩

lemma covers_of_labels (hls : D.flow.Labels ops ls [b]) :
    D.Covers (labelsFrom pre.length (ls ++ [b])) (pre ++ ops ++ post) (pre.length + ops.length) := by
  intro i a op hi ha hop
  obtain ⟨j, rfl, hj⟩ := exists_of_labelsFrom ha
  rw [append_assoc, getElem?_append_right (by omega), Nat.add_sub_cancel_left,
    getElem?_append_left (by omega)] at hop
  obtain ⟨a', c, ha', hc, hnext, hjump⟩ := hls.at_index hop
  obtain rfl : a' = a := Option.mem_unique ha' hj
  refine ⟨⟨c, by rw [Nat.add_assoc, labelsFrom_add, hc], hnext⟩, fun off hoff => ?_⟩
  obtain ⟨n, rfl, d, hd, hj⟩ := hjump off hoff
  exact ⟨n, rfl, d, by rw [Nat.add_assoc, Nat.add_assoc, labelsFrom_add, ← Nat.add_assoc, hd], hj⟩

end Labels

namespace Reading

variable {A A' : Type} {D : Discipline A} {D' : Discipline A'} (R : Reading D) (R' : Reading D') (L : ℕ → List A)
  (lab : ℕ → Option A') (f : Frame) (fs : List Frame) (base : ℕ) (rest : List ExceptionHandler)

def Resumes (i n : ℕ) (hs : List ExceptionHandler) : Prop :=
  ∃ own b, hs = own ++ rest ∧ lab i = some (D'.val b) ∧ R'.Fits lab f.codeId (fs.length + 1) base own (D'.val b) n

inductive InRegion : Control → Prop
  | here {i cells own a st} (ha : lab i = some a) (hfits : R'.Fits lab f.codeId (fs.length + 1) base own a st.length) :
      InRegion ⟨st, { f with ip := i, localCells := cells } :: fs, own ++ rest⟩
  | above {i cells g gs st hs}
      (hrun : R.Running L (R'.Resumes lab f fs base rest i) (fs.length + 1) g gs st.length hs) :
      InRegion ⟨st, g :: (gs ++ { f with ip := i, localCells := cells } :: fs), hs⟩

inductive Turned (pool : List CodeObject) (c : Control) : Control → Prop
  | stays {c'} (h : R.InRegion R' L lab f fs base rest c') : Turned pool c c'
  | replaced {i a own n g st'} (ha : lab i = some a) (hfits : R'.Fits lab f.codeId (fs.length + 1) base own a n)
      (hexit : D'.exit a) (hip : g.ip = 0) (hbp : g.bp ≤ st'.length) : Turned pool c ⟨st', g :: fs, rest⟩
  | returns {i a own n st'} (ha : lab i = some a) (hfits : R'.Fits lab f.codeId (fs.length + 1) base own a n)
      (hexit : D'.exit a) : Turned pool c ⟨st', fs, rest⟩
  | fails {g gs c' handler hs} (hframes : c.frames = g :: gs) (hop : g.Raising pool) (hrest : c.handlers = rest)
      (hne : rest = handler :: hs) (hs' : c'.handlers = hs) : Turned pool c c'

variable {R R' L lab f fs base rest}

lemma Stacked.inRegion {i : ℕ} {cells : List (ℕ × ℕ)} {c : Control}
    (h : R.Stacked L (R'.Resumes lab f fs base rest i) ({ f with ip := i, localCells := cells } :: fs) c) :
    R.InRegion R' L lab f fs base rest c := by
  obtain ⟨st, frames, hs⟩ := c
  obtain ⟨gs, rfl, h⟩ := h
  cases gs with
  | nil =>
    obtain ⟨own, b, rfl, hb, hfits⟩ := h
    exact .here hb hfits
  | cons g gs => exact .above h

lemma Escapes.turned {pool : List CodeObject} {i : ℕ} {cells : List (ℕ × ℕ)} {g : Frame} {gs : List Frame} {st : List Value}
    {hs : List ExceptionHandler} {c' : Control} (hcount : R'.counted → R.counted)
    (h : R.Escapes pool (R'.Resumes lab f fs base rest i) g ({ f with ip := i, localCells := cells } :: fs) hs c') :
    R.Turned R' L lab f fs base rest pool ⟨st, g :: gs, hs⟩ c' := by
  obtain ⟨n0, st', v, ip, id, s, d, hs', gs', hop, ⟨own, b, hhs, hb, hfits⟩, rfl, hn0, rfl⟩ := h
  cases own with
  | nil =>
    obtain rfl : _ = rest := hhs
    exact .fails rfl hop rfl rfl rfl
  | cons handler own =>
    cases hhs
    obtain ⟨rfl, rfl, c, hc, hlab, hfits⟩ := hfits
    rw [unwound_append]
    refine .stays (.here hlab (hfits.push ?_))
    rw [length_append, length_take]
    exact R'.below 1 hc fun hcounted => hn0 (hcount hcounted)

variable (R R' L) in
structure Site (pool : List CodeObject) (f : Frame) (fs : List Frame) (ops : List Op) (ls : List A') (b : A')
    (base : ℕ) : Prop where
  loose : R.Loose
  height : ∀ n n', n' ≤ n → R.Height n n' → R'.Height n n'
  counted : R'.counted → R.counted
  labelled : D.Labelled pool L
  placed : Placed pool f.codeId f.ip ops
  labels : D'.flow.Labels ops ls [b]
  exit : ∀ a own n, R'.Fits (labelsFrom f.ip (ls ++ [b])) f.codeId (fs.length + 1) base own a n → D'.exit a →
    base = f.bp ∧ ∀ a₀ n, (ls ++ [b]).head? = some a₀ → R'.Since none base a₀ n
  steady : ∀ (j : ℕ) op a own n, ops[j]? = some op → (ls ++ [b])[j]? = some a →
    R'.Fits (labelsFrom f.ip (ls ++ [b])) f.codeId (fs.length + 1) base own a n → R'.Steady f n op

section Site

variable {pool : List CodeObject} {ops : List Op} {ls : List A'} {b : A'} {c c' : Control}

lemma Site.op_at (hsite : R.Site R' L pool f fs ops ls b base) {i : ℕ} {a : A'} (hi : i < f.ip + ops.length)
    (ha : labelsFrom f.ip (ls ++ [b]) i = some a) :
    ∃ code j op, pool[f.codeId]? = some code ∧ D'.Covers (labelsFrom f.ip (ls ++ [b])) code.ops (f.ip + ops.length) ∧
      i = f.ip + j ∧ (ls ++ [b])[j]? = some a ∧ ops[j]? = some op ∧ code.ops[i]? = some op := by
  obtain ⟨code, pre, post, hcode, hops, hpre⟩ := hsite.placed
  obtain ⟨j, rfl, hj⟩ := exists_of_labelsFrom ha
  obtain ⟨op, hop⟩ : ∃ op, ops[j]? = some op := ⟨_, getElem?_eq_getElem (by omega)⟩
  refine ⟨code, j, op, hcode, ?_, rfl, hj, hop, ?_⟩
  · rw [hops, ← hpre]
    exact covers_of_labels hsite.labels
  · rw [hops, ← hpre, append_assoc, getElem?_append_right (by omega), Nat.add_sub_cancel_left,
      getElem?_append_left (by omega), hop]

lemma Site.turned (hsite : R.Site R' L pool f fs ops ls b base)
    (h : R.InRegion R' L (labelsFrom f.ip (ls ++ [b])) f fs base rest c)
    (hend : ∀ i cells, c.frames = { f with ip := i, localCells := cells } :: fs → i < f.ip + ops.length)
    (hmove : Move pool c c') : R.Turned R' L (labelsFrom f.ip (ls ++ [b])) f fs base rest pool c c' := by
  cases h with
  | @here i cells own a st ha hfits =>
    have hi : i < f.ip + ops.length := hend i cells rfl
    obtain ⟨code, j, op, hcode, hcov, rfl, hj, hop, hop'⟩ := hsite.op_at hi ha
    have hout := Fits.outcome (f := { f with ip := f.ip + j, localCells := cells }) hcov hcode hi ha hfits
      (fun hexit => (hsite.exit a own _ hfits hexit).1)
      ⟨op, hop', hsite.steady j op a own _ hop hj hfits⟩ hmove
    cases hout with
    | stays cells' hs hb hfits' => exact .stays (.here hb hfits')
    | calls hip hbp hb hfits' =>
      have hwait : R.Waiting L (R'.Resumes _ f fs base rest _) (fs.length + 1) [] _ _ := ⟨_, _, rfl, hb, hfits'⟩
      exact .stays (.above (running_entry hsite.labelled hsite.loose hip hbp hwait))
    | replaced hexit hip hbp => exact .replaced ha hfits hexit hip hbp
    | returns hexit => exact .returns ha hfits hexit
    | fails hraising hown hrest hlow =>
      subst hown
      exact .fails rfl hraising rfl hrest rfl
  | @above i cells g gs st hs hrun =>
    have hbottom (n n' : ℕ) (hs : List ExceptionHandler) (hn : n' ≤ n)
        (h : R'.Resumes (labelsFrom f.ip (ls ++ [b])) f fs base rest i n hs) (hlen : R.Height n n') :
        R'.Resumes (labelsFrom f.ip (ls ++ [b])) f fs base rest i n' hs := by
      obtain ⟨own, b, hhs, hb, hfits⟩ := h
      exact ⟨own, b, hhs, hb, hfits.height (hsite.height n n' hn hlen)⟩
    rcases Running.move ({ f with ip := i, localCells := cells } :: fs) hsite.labelled hsite.loose hbottom hrun hmove with
      hs | hs
    · exact .stays hs.inRegion
    · exact hs.turned hsite.counted

end Site

end Reading

def CodeOf (tail : Bool) (ops : List Op) : Prop :=
  ∃ (W : Type) (S : Services W) (fuel base : ℕ) (e : Value) (c c' : Compiler W) (ops₀ : List Op),
    compileExpr S fuel e tail c = some (.ok ops₀, c') ∧ ops = ops₀.map (Op.rebase base)

lemma compilerInvariant_true {A : Type} (S : Services W) (D : Discipline A) :
    CompilerInvariant S D (fun _ => True) fun _ _ => True :=
  ⟨fun _ _ => trivial, fun _ _ => trivial, fun _ _ => trivial, fun _ _ _ => trivial, fun _ _ => trivial,
    fun _ _ => trivial, fun _ _ _ _ _ => trivial, fun _ _ _ _ _ => trivial, fun _ _ => trivial⟩

lemma CodeOf.emits {tail : Bool} {ops : List Op} (h : CodeOf tail ops) {A : Type} (D : Discipline A) :
    D.Emits tail ops := by
  obtain ⟨W, S, fuel, base, e, c, c', ops0, hc, rfl⟩ := h
  intro a ha hallows
  have hemits : (D.rebased base).Emits tail ops0 :=
    ((compileExpr_yields (compilerInvariant_true S _) fuel e tail c trivial).of_ok hc).2
  exact D.segment_rebase base (hemits a ha hallows)

section Runs

variable (f : Frame) (fs : List Frame) (ops : List Op) (rest : List ExceptionHandler)

def Vm.Evaluates (m : Vm W) : Prop :=
  ∃ gs i cells, m.frames = gs ++ { f with ip := i, localCells := cells } :: fs ∧ f.ip ≤ i ∧ i ≤ f.ip + ops.length ∧
    (gs = [] → i < f.ip + ops.length)

def Vm.Evaluated (m : Vm W) : Prop := ∃ cells, m.frames = { f with ip := f.ip + ops.length, localCells := cells } :: fs

def CalmTurn (host : Host W) (m m' : Vm W) : Prop :=
  ∃ fuel, m.Calm host (calls host none fuel) ∧ (m.handlers = rest → ¬ m.Raises host (calls host none fuel)) ∧
    Advances host (calls host none fuel) m m'

def EvalRun (host : Host W) : Vm W → Vm W → Prop :=
  ReflTransGen fun m m' => m.Evaluates f fs ops ∧ CalmTurn rest host m m'

variable {f fs ops rest} {host : Host W} {m m' : Vm W}

lemma CalmTurn.moves (h : CalmTurn rest host m m') (hm : m.Flat) : m.Moves m' := by
  obtain ⟨fuel, hcalm, -, hadv⟩ := h
  exact hadv.moves hm hcalm

lemma CalmTurn.not_fails (h : CalmTurn rest host m m') (hm : m.Flat) {g : Frame} {gs : List Frame}
    (hframes : m.frames = g :: gs) (hop : g.Raising m.codePool) (hrest : m.handlers = rest)
    {handler : ExceptionHandler} {hs : List ExceptionHandler} (hne : rest = handler :: hs) : m'.handlers ≠ hs := by
  obtain ⟨fuel, -, hquiet, hadv⟩ := h
  rw [hadv.handlers hm hframes hop (hquiet hrest), hrest, hne]
  exact cons_ne_self handler hs

lemma Vm.At.not_raises {self : Calls W} {code : CodeObject} {op : Op} (h : m.At f fs code op)
    (hraises : op.raises = false) : ¬ m.Raises host self := by
  rintro ⟨f', fs', code', op', hframes', hcode', hop', h'⟩
  obtain ⟨hframes, hcode, hop⟩ := h
  obtain ⟨rfl, rfl⟩ := List.cons.inj (hframes.symm.trans hframes')
  obtain rfl := Option.mem_unique hcode hcode'
  obtain rfl := Option.mem_unique hop hop'
  rcases h' with rfl | ⟨m1, argc, tail, e, m', hsite, -⟩
  · simp [Op.raises] at hraises
  · cases op <;> simp [Op.raises, Vm.callSite] at hraises hsite

def Vm.Silent (f : Frame) (fs : List Frame) (ops : List Op) (m : Vm W) : Prop :=
  ∃ i cells code op, m.frames = { f with ip := f.ip + i, localCells := cells } :: fs ∧ i < ops.length ∧
    m.codePool[f.codeId]? = some code ∧ code.ops[f.ip + i]? = some op ∧ op.raises = false

lemma Vm.Silent.turn {fuel : ℕ} (h : m.Silent f fs ops) (hstep : step host (calls host none fuel) m = some (.ok none, m')) :
    m.Evaluates f fs ops ∧ CalmTurn rest host m m' := by
  obtain ⟨i, cells, code, op, hframes, hi, hcode, hop, hraises⟩ := h
  have hquiet : ¬ m.Raises host (calls host none fuel) :=
    Vm.At.not_raises ⟨hframes, hcode, hop⟩ hraises
  refine ⟨⟨[], f.ip + i, cells, hframes, by omega, by omega, fun _ => by omega⟩, fuel, fun _ _ _ => hquiet, fun _ => hquiet,
    Or.inl hstep⟩

variable {A A' : Type} {D : Discipline A} {D' : Discipline A'} {R : Reading D} {R' : Reading D'} {L : ℕ → List A}
  {ls : List A'} {b : A'} {base : ℕ}

lemma Vm.Evaluates.not_end (h : m.Evaluates f fs ops) (i : ℕ) (cells : List (ℕ × ℕ))
    (hframes : m.frames = { f with ip := i, localCells := cells } :: fs) : i < f.ip + ops.length := by
  obtain ⟨gs, i', cells', hgs, -, -, hlt⟩ := h
  rw [hgs] at hframes
  have hnil : gs = [] := by simpa using congrArg List.length hframes
  subst hnil
  obtain rfl : i' = i := by simpa using congrArg (fun l => l.head?.map Frame.ip) hframes
  exact hlt rfl

lemma Vm.Evaluates.frames (h : m.Evaluates f fs ops ∨ m.Evaluated f fs ops) :
    ∃ gs i cells, m.frames = gs ++ { f with ip := i, localCells := cells } :: fs ∧ f.ip ≤ i := by
  rcases h with ⟨gs, i, cells, hframes, hi, -⟩ | ⟨cells, hframes⟩
  · exact ⟨gs, i, cells, hframes, hi⟩
  · exact ⟨[], f.ip + ops.length, cells, hframes, Nat.le_add_right _ _⟩

lemma Reading.Turned.inRegion (hsite : R.Site R' L m.codePool f fs ops ls b base)
    (h : R.Turned R' L (labelsFrom f.ip (ls ++ [b])) f fs base rest m.codePool m.control m'.control) (hm : m.Flat)
    (hturn : CalmTurn rest host m m') (hm' : m'.Evaluates f fs ops ∨ m'.Evaluated f fs ops) :
    R.InRegion R' L (labelsFrom f.ip (ls ++ [b])) f fs base rest m'.control := by
  obtain ⟨gs, i, cells, hframes, hi⟩ := Vm.Evaluates.frames hm'
  generalize hc : m'.control = c' at h
  have hframes' : c'.frames = gs ++ { f with ip := i, localCells := cells } :: fs := by rw [← hc, ← hframes, Vm.control]
  cases h with
  | stays h => exact h
  | @replaced i' a own n g st' ha hfits hexit hip hbp =>
    -- A tail call that begins where the expression begins.
    have hgs : gs = [] := by simpa using (congrArg List.length hframes').symm
    subst hgs
    obtain rfl : g = { f with ip := i, localCells := cells } := (List.cons.inj hframes').1
    obtain rfl : i = 0 := hip
    obtain ⟨a0, ha0⟩ : ∃ a0, (ls ++ [b]).head? = some a0 := by
      cases ls with
      | nil => exact ⟨b, rfl⟩
      | cons a ls => exact ⟨a, rfl⟩
    have hstart : labelsFrom f.ip (ls ++ [b]) 0 = some a0 := by
      rw [← ha0, head?_eq_getElem?, Nat.le_zero.1 hi]
      exact labelsFrom_add 0 _ 0
    have hfits0 : R'.Fits (labelsFrom f.ip (ls ++ [b])) f.codeId (fs.length + 1) base [] a0 st'.length :=
      (hsite.exit a own n hfits hexit).2 a0 _ ha0
    exact .here hstart hfits0
  | returns =>
    have hlen := congrArg List.length hframes'
    simp at hlen
    omega
  | fails hframes hop hrest hne hs =>
    refine absurd ?_ (hturn.not_fails hm hframes hop hrest hne)
    rw [← hs, ← hc, Vm.control]

lemma Reading.inRegion_start {a : A'} (hhead : (ls ++ [b]).head? = some a) (hframes : m.frames = f :: fs)
    (hsince : R'.Since none base a m.stack.length) :
    R.InRegion R' L (labelsFrom f.ip (ls ++ [b])) f fs base m.handlers m.control := by
  have hstart : labelsFrom f.ip (ls ++ [b]) f.ip = some a := by
    rw [← hhead, head?_eq_getElem?]
    exact labelsFrom_add f.ip _ 0
  have hfits : R'.Fits (labelsFrom f.ip (ls ++ [b])) f.codeId (fs.length + 1) base [] a m.stack.length := hsince
  rw [Vm.control, hframes]
  exact .here hstart hfits

lemma Reading.InRegion.ended (h : R.InRegion R' L (labelsFrom f.ip (ls ++ [b])) f fs base rest m.control)
    (hlen : ls.length = ops.length) (hm : m.Evaluated f fs ops) :
    ∃ own, m.handlers = own ++ rest ∧
      R'.Fits (labelsFrom f.ip (ls ++ [b])) f.codeId (fs.length + 1) base own b m.stack.length := by
  obtain ⟨cells, hframes⟩ := hm
  generalize hc : m.control = c at h
  have hframes' : c.frames = { f with ip := f.ip + ops.length, localCells := cells } :: fs := by
    rw [← hc, ← hframes, Vm.control]
  have hst : m.stack = c.stack := congrArg Control.stack hc
  cases h with
  | @here i cells' own a st ha hfits =>
    obtain rfl : i = f.ip + ops.length := by simpa using congrArg (fun l => l.head?.map Frame.ip) hframes'
    rw [labelsFrom_add, ← hlen, getElem?_concat_length] at ha
    cases ha
    exact ⟨own, congrArg Control.handlers hc, hst ▸ hfits⟩
  | above hrun =>
    have hlen := congrArg List.length hframes'
    simp only [length_cons, length_append] at hlen
    omega

lemma EvalRun.inRegion (hsite : R.Site R' L m.codePool f fs ops ls b base) (hm : m.Flat)
    (hin : R.InRegion R' L (labelsFrom f.ip (ls ++ [b])) f fs base rest m.control) (hrun : EvalRun f fs ops rest host m m') :
    m'.codePool = m.codePool ∧ m'.Flat ∧ (m'.Evaluates f fs ops ∨ m'.Evaluated f fs ops →
      R.InRegion R' L (labelsFrom f.ip (ls ++ [b])) f fs base rest m'.control) := by
  induction hrun with
  | refl => exact ⟨rfl, hm, fun _ => hin⟩
  | tail _ hstep ih =>
    obtain ⟨hpool, hflat, hregion⟩ := ih
    obtain ⟨heval, hturn⟩ := hstep
    have hmoves := hturn.moves hflat
    rw [← hpool] at hsite
    refine ⟨hmoves.codePool.trans hpool, hmoves.flat hflat, fun h => ?_⟩
    exact (hsite.turned (hregion (Or.inl heval)) heval.not_end hmoves.move).inRegion hsite hflat hturn h

end Runs

end Mae.Scheme
