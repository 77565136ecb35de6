import Mae.Scheme.CodeShape
import Mae.Scheme.Rules

/-! What one turn of the machine can do to its stack, its frames and its handlers, as long as no code captures
continuations or evaluates programs and no exception reaches a closure handler. -/

namespace Mae.Scheme

open Library Exec List Vm

structure Control where
  stack : List Value
  frames : List Frame
  handlers : List ExceptionHandler

def Op.isFlat : Op → Bool
  | .captureCc => false
  | .eval => false
  | .load => false
  | _ => true

def Op.pops : Op → ℕ
  | .storeGlobal _ => 1
  | .defineGlobal _ => 1
  | .storeLocal _ => 1
  | .storeUpvalue _ => 1
  | .call argc => argc + 1
  | .tailCall argc => argc + 1
  | .jumpIfFalse _ => 1
  | .pop => 1
  | .dup => 1
  | .yield => 1
  | .apply => 2
  | .raise => 1
  | .pushWinder => 2
  | _ => 0

def Op.pushes : Op → ℕ
  | .const _ => 1
  | .loadGlobal _ => 1
  | .loadLocal _ => 1
  | .loadUpvalue _ => 1
  | .call _ => 1
  | .tailCall _ => 1
  | .dup => 2
  | .makeClosure _ _ => 1
  | .captureCc => 1
  | .yield => 1
  | .apply => 1
  | _ => 0

def Op.Effect (bp : ℕ) (st st' : List Value) : Op → Prop
  | .storeLocal idx =>
    st' = st.dropLast ∨
      ∃ v, st' = (st.dropLast ++ List.replicate (bp + idx + 1 - st.dropLast.length) Value.undefined).set (bp + idx) v
  | op => op.pops ≤ st.length → ∃ vs, vs.length = op.pushes ∧ st' = st.take (st.length - op.pops) ++ vs

def Op.fallsThrough : Op → Bool
  | .jump _ => false
  | .ret => false
  | .raise => false
  | .pushHandler _ => false
  | .popHandler => false
  | .pushClosureHandler => false
  | .popClosureHandler => false
  | _ => true

def Op.branches : Op → Bool
  | .jump _ => true
  | .jumpIfFalse _ => true
  | _ => false

def Op.raises : Op → Bool
  | .call _ => true
  | .tailCall _ => true
  | .apply => true
  | .raise => true
  | _ => false

def unwound (handlerIp codeId frameDepth : ℕ) (frames : List Frame) : List Frame :=
  match frames.drop (frames.length - frameDepth) with
  | [] => []
  | g :: rest => { g with ip := handlerIp, codeId := codeId } :: rest

inductive Move (pool : List CodeObject) : Control → Control → Prop
  | ret {f fs st hs code} (v : Value) (hcode : pool[f.codeId]? = some code)
      (hop : ∀ op, code.ops[f.ip]? = some op → op = .ret) :
      Move pool ⟨st, f :: fs, hs⟩ ⟨st.dropLast.take f.bp ++ [v], fs, hs⟩
  | next {f fs st hs code op cells} (hcode : pool[f.codeId]? = some code) (hop : code.ops[f.ip]? = some op)
      (hfall : op.fallsThrough = true) {st' : List Value} (heffect : op.Effect f.bp st st') :
      Move pool ⟨st, f :: fs, hs⟩ ⟨st', { f with ip := f.ip + 1, localCells := cells } :: fs, hs⟩
  | jump {f fs st hs code op off} (hcode : pool[f.codeId]? = some code) (hop : code.ops[f.ip]? = some op)
      (hbranch : op.branches = true) (hoff : op.offset? = some off) {st' : List Value}
      (heffect : op.Effect f.bp st st') :
      Move pool ⟨st, f :: fs, hs⟩ ⟨st', { f with ip := jumpTarget (f.ip + 1) off } :: fs, hs⟩
  | opened {f fs st hs code off} (hcode : pool[f.codeId]? = some code) (hop : code.ops[f.ip]? = some (.pushHandler off)) :
      Move pool ⟨st, f :: fs, hs⟩ ⟨st, { f with ip := f.ip + 1 } :: fs,
        .guard (jumpTarget (f.ip + 1) off) f.codeId st.length (fs.length + 1) :: hs⟩
  | installed {f fs st hs code} (func : Value) (hcode : pool[f.codeId]? = some code)
      (hop : code.ops[f.ip]? = some .pushClosureHandler) :
      Move pool ⟨st, f :: fs, hs⟩ ⟨st.dropLast, { f with ip := f.ip + 1 } :: fs, .closure func :: hs⟩
  | closed {f fs st hs code op} (hcode : pool[f.codeId]? = some code) (hop : code.ops[f.ip]? = some op)
      (hclose : op = .popHandler ∨ op = .popClosureHandler) :
      Move pool ⟨st, f :: fs, hs⟩ ⟨st, { f with ip := f.ip + 1 } :: fs, hs.tail⟩
  | enter {f fs st hs code op} {g : Frame} (args : List Value) (hcode : pool[f.codeId]? = some code)
      (hop : code.ops[f.ip]? = some op) (hcall : (∃ argc, op = .call argc) ∨ op = .apply) (hip : g.ip = 0)
      (hbp : g.bp = st.length - op.pops) :
      Move pool ⟨st, f :: fs, hs⟩
        ⟨st.take (st.length - op.pops) ++ args, g :: { f with ip := f.ip + 1 } :: fs, hs⟩
  | reenter {f fs st hs code argc} {g : Frame} (args : List Value) (hcode : pool[f.codeId]? = some code)
      (hop : code.ops[f.ip]? = some (.tailCall argc)) (hip : g.ip = 0) (hbp : g.bp = (st.take f.bp).length) :
      Move pool ⟨st, f :: fs, hs⟩ ⟨st.take f.bp ++ args, g :: fs, hs⟩
  | unwind {f fs st hs code op handlerIp codeId stackDepth frameDepth} (v : Value)
      (hcode : pool[f.codeId]? = some code) (hop : code.ops[f.ip]? = some op) (hraise : op.raises = true)
      {st' : List Value} (hst : st'.take (st.length - op.pops) = st.take (st.length - op.pops)) :
      Move pool ⟨st, f :: fs, .guard handlerIp codeId stackDepth frameDepth :: hs⟩
        ⟨st'.take stackDepth ++ [v], unwound handlerIp codeId frameDepth ({ f with ip := f.ip + 1 } :: fs), hs⟩

variable {W : Type}

namespace Vm

def control (m : Vm W) : Control := ⟨m.stack, m.frames, m.handlers⟩

structure Flat (m : Vm W) : Prop where
  code : ∀ code ∈ m.codePool, ∀ op ∈ code.ops, op.isFlat = true
  continuations : m.store.continuations = []

def callSite (m : Vm W) : Op → Option (Vm W × ℕ × Bool)
  | .call argc => some (m, argc, false)
  | .tailCall argc => some (m, argc, true)
  | .apply =>
    match applyArgs (m.top .void) with
    | .ok args =>
      some ({ m.drop.drop with stack := m.drop.drop.stack ++ m.drop.top .void :: args }, args.length, false)
    | .error _ => none
  | _ => none

def Raises (host : Host W) (self : Calls W) (m : Vm W) : Prop :=
  ∃ f fs code op, m.frames = f :: fs ∧ m.codePool[f.codeId]? = some code ∧ code.ops[f.ip]? = some op ∧
    (op = .raise ∨ ∃ m₁ argc tail e m', (m.advance f).callSite op = some (m₁, argc, tail) ∧
      doCall host self argc tail m₁ = some (.error e, m') ∧ e.yieldReason? = none ∧ e.isPermissionDenied = false)

def Calm (host : Host W) (self : Calls W) (m : Vm W) : Prop :=
  ∀ func hs, m.handlers = .closure func :: hs → ¬ m.Raises host self

structure SameCode (m m' : Vm W) : Prop where
  codePool : m'.codePool = m.codePool
  continuations : m'.store.continuations = m.store.continuations

lemma SameCode.trans {m m₁ m' : Vm W} (h : m.SameCode m₁) (h' : m₁.SameCode m') : m.SameCode m' :=
  ⟨h'.codePool.trans h.codePool, h'.continuations.trans h.continuations⟩

structure Moves (m m' : Vm W) : Prop extends SameCode m m' where
  move : Move m.codePool m.control m'.control

def Turn (m : Vm W) : Option EvalResult → Vm W → Prop
  | none, m' => m.Moves m'
  | some (.yield _), m' => ∀ w, m.Moves ((m'.setWorld w).push (.bool true))
  | some (.done _), _ => True

end Vm

namespace Op

variable {op : Op} {bp : ℕ} {st st' vs : List Value}

lemma effect_of_eq (hop : ∀ idx, op ≠ .storeLocal idx) (hvs : vs.length = op.pushes)
    (hst : st' = st.take (st.length - op.pops) ++ vs) : op.Effect bp st st' := by
  cases op with
  | storeLocal idx => exact absurd rfl (hop idx)
  | _ => exact fun _ => ⟨vs, hvs, hst⟩

lemma effect_append (hpops : op.pops = 0 := by rfl) (hvs : vs.length = op.pushes := by rfl) : op.Effect bp st (st ++ vs) := by
  refine effect_of_eq ?_ hvs (by simp [hpops])
  rintro idx rfl
  cases hpops

lemma effect_same (hpops : op.pops = 0 := by rfl) (hpushes : op.pushes = 0 := by rfl) : op.Effect bp st st := by
  have heffect : op.Effect bp st (st ++ []) := effect_append hpops hpushes.symm
  simpa using heffect

lemma effect_drop (hpops : op.pops = 1 := by rfl) (hpushes : op.pushes = 0 := by rfl) : op.Effect bp st st.dropLast := by
  by_cases hstore : ∃ idx, op = .storeLocal idx
  · obtain ⟨idx, rfl⟩ := hstore
    exact Or.inl rfl
  · have hnone : ([] : List Value).length = op.pushes := hpushes.symm
    exact effect_of_eq (not_exists.1 hstore) hnone (by simp [hpops, dropLast_eq_take])

end Op

section Calls

variable {host : Host W} {self : Calls W} {m : Vm W}

structure Called (m m' : Vm W) (argc : ℕ) (tail : Bool) : Prop extends m.SameCode m' where
  handlers : m'.handlers = m.handlers
  result : (∃ v, m'.stack = m.stack.take (m.stack.length - (argc + 1)) ++ [v] ∧ m'.frames = m.frames) ∨
    (tail = false ∧ ∃ (g : Frame) (args : List Value), g.ip = 0 ∧ g.bp = m.stack.length - (argc + 1) ∧
      m'.stack = m.stack.take (m.stack.length - (argc + 1)) ++ args ∧ m'.frames = g :: m.frames) ∨
    (tail = true ∧ ∃ (f g : Frame) (fs : List Frame) (args : List Value), m.frames = f :: fs ∧ g.ip = 0 ∧
      g.bp = (m.stack.take f.bp).length ∧ m'.stack = m.stack.take f.bp ++ args ∧ m'.frames = g :: fs)

structure CallFailed (m : Vm W) (argc : ℕ) (e : LispError) (m' : Vm W) : Prop extends m.SameCode m' where
  handlers : m'.handlers = m.handlers
  frames : m'.frames = m.frames
  stack : m'.stack = m.stack ∨ m'.stack = m.stack.take (m.stack.length - (argc + 1))
  yielded : e.yieldReason?.isSome = true → m'.stack = m.stack.take (m.stack.length - (argc + 1))

lemma CallFailed.same (argc : ℕ) {e : LispError} (he : e.yieldReason? = none) : CallFailed m argc e m :=
  ⟨⟨rfl, rfl⟩, rfl, rfl, Or.inl rfl, by simp [he]⟩

lemma callClosure_called (c : Closure) (argc : ℕ) (tail : Bool) :
    wp (callClosure c argc (m.stack.length - (argc + 1)) tail) m (fun _ m' => Called m m' argc tail)
      (CallFailed m argc) := by
  unfold callClosure
  simp only [wp_bind, wp_require, wp_get]
  refine ⟨fun _ => ?_, fun _ => .same argc rfl⟩
  cases tail with
  | true =>
    simp only [if_true]
    split
    · trivial
    · rename_i f fs hf
      refine ⟨⟨rfl, rfl⟩, rfl, Or.inr (Or.inr ⟨rfl, f, closureFrame c (m.stack.take f.bp).length, fs, _, hf, rfl,
        rfl, rfl, ?_⟩)⟩
      simp [Vm.reenter, hf]
  | false =>
    simp only [Bool.false_eq_true, if_false]
    rw [wp_ite]
    refine ⟨fun _ => .same argc rfl, fun _ => ?_⟩
    exact ⟨⟨rfl, rfl⟩, rfl, Or.inr (Or.inl ⟨rfl, _, _, rfl, rfl, rfl, rfl⟩)⟩

lemma checkTier_called (f : ForeignFn) (argc fnPos : ℕ) (hpos : fnPos = m.stack.length - (argc + 1)) :
    wp (checkTier f fnPos) m (fun _ m' => m' = m) (CallFailed m argc) := by
  subst hpos
  unfold checkTier
  simp only [wp_bind, wp_get]
  split
  · rw [wp_ite]
    simp only [wp_bind, wp_record, wp_modify, wp_throw, wp_pure]
    exact ⟨fun _ => ⟨⟨rfl, rfl⟩, rfl, rfl, Or.inr rfl, fun h => by simp [LispError.yieldReason?,
      LispError.permissionDenied] at h⟩, fun _ => trivial⟩
  · rfl

lemma callForeign_called (f : ForeignFn) (argc : ℕ) (tail : Bool) :
    wp (callForeign host f argc (m.stack.length - (argc + 1))) m (fun _ m' => Called m m' argc tail)
      (CallFailed m argc) := by
  unfold callForeign
  rw [wp_bind]
  refine (checkTier_called f argc _ rfl).mono ?_ fun _ _ h => h
  rintro _ _ rfl
  simp only [wp_bind, wp_require, wp_get, wp_modify, wp_record]
  refine ⟨fun _ => wp_onWorld (fun v w _ => ?_) fun e w _ => ?_, fun _ => .same argc rfl⟩
  · exact ⟨⟨rfl, rfl⟩, rfl, Or.inl ⟨v, rfl, rfl⟩⟩
  · exact ⟨⟨rfl, rfl⟩, rfl, rfl, Or.inr rfl, fun _ => rfl⟩

lemma doCall_called (hm : m.store.continuations = []) (argc : ℕ) (tail : Bool) :
    wp (doCall host self argc tail) m (fun _ m' => argc + 1 ≤ m.stack.length ∧ Called m m' argc tail)
      (CallFailed m argc) := by
  unfold doCall
  simp only [wp_bind, wp_get, wp_require, Nat.sub_sub, decide_eq_true_eq]
  refine ⟨fun hlen => ?_, fun _ => .same argc rfl⟩
  split
  · exact (callClosure_called _ argc tail).mono (fun _ _ h => ⟨hlen, h⟩) fun _ _ h => h
  · exact (callForeign_called _ argc tail).mono (fun _ _ h => ⟨hlen, h⟩) fun _ _ h => h
  · simp only [hm, getElem?_nil]
    trivial
  · exact .same argc rfl

lemma dispatchRaise_unwinds (hm : ∀ func hs, m.handlers ≠ .closure func :: hs) (v : Value) :
    wp (dispatchRaise host self v) m (fun _ m' => m.SameCode m' ∧ ∃ handlerIp codeId stackDepth frameDepth hs,
      m.handlers = .guard handlerIp codeId stackDepth frameDepth :: hs ∧ m'.control =
        ⟨m.stack.take stackDepth ++ [v], unwound handlerIp codeId frameDepth m.frames, hs⟩) fun _ _ => True := by
  unfold dispatchRaise
  simp only [wp_bind, wp_get]
  cases hh : m.handlers with
  | nil => trivial
  | cons handler hs =>
    cases handler with
    | closure func => exact absurd hh (hm func hs)
    | guard handlerIp codeId stackDepth frameDepth =>
      refine ⟨⟨rfl, rfl⟩, handlerIp, codeId, stackDepth, frameDepth, hs, rfl, ?_⟩
      have hpop : m.popHandler.handlers = hs := by rw [Vm.popHandler, hh, tail_cons]
      exact congrArg (Control.mk _ _) hpop

lemma exceptionOf_same (e : LispError) :
    wp (exceptionOf host e) m (fun _ m' => m.SameCode m' ∧ m'.control = m.control) fun _ _ => True := by
  have hworld {f : W → Except LispError Value × W} :
      wp (onWorld f) m (fun _ m' => m.SameCode m' ∧ m'.control = m.control) fun _ _ => True :=
    wp_onWorld (fun _ _ _ => ⟨⟨rfl, rfl⟩, rfl⟩) fun _ _ _ => trivial
  unfold exceptionOf
  simp only [wp_bind, wp_get]
  split
  · exact ⟨⟨rfl, rfl⟩, rfl⟩
  · exact hworld
  · exact hworld
  · exact ⟨⟨rfl, rfl⟩, rfl⟩

end Calls

section Turns

variable {host : Host W} {self : Calls W} {m m' m₁ : Vm W} {f : Frame} {fs : List Frame} {code : CodeObject} {op : Op}

structure Midway (m : Vm W) (op : Op) (f : Frame) (fs : List Frame) (m₁ : Vm W) : Prop extends m.SameCode m₁ where
  frames : m₁.frames = { f with ip := f.ip + 1 } :: fs
  handlers : m₁.handlers = m.handlers
  stack : m₁.stack.take (m.stack.length - op.pops) = m.stack.take (m.stack.length - op.pops)

section Raising

variable (hm : ∀ func hs, m.handlers ≠ .closure func :: hs) (hat : m.At f fs code op) (hraise : op.raises = true)
include hm hat hraise

lemma dispatchRaise_moves (h : Midway m op f fs m₁) (v : Value) :
    wp (dispatchRaise host self v) m₁ (fun _ m' => m.Moves m') fun _ _ => True := by
  refine (dispatchRaise_unwinds (by rw [h.handlers]; exact hm) v).mono (fun _ m' h' => ?_) fun _ _ h' => h'
  obtain ⟨hsame, handlerIp, codeId, stackDepth, frameDepth, hs, hh, hc⟩ := h'
  refine ⟨h.toSameCode.trans hsame, ?_⟩
  have hcontrol : m.control = ⟨m.stack, f :: fs, .guard handlerIp codeId stackDepth frameDepth :: hs⟩ := by
    rw [Vm.control, hat.frames, ← h.handlers, hh]
  rw [hcontrol, hc, h.frames]
  exact .unwind v hat.fetched hat.decoded hraise h.stack

lemma handleException_moves (h : Midway m op f fs m₁) (e : LispError) :
    wp (handleException host self e) m₁ (fun _ m' => m.Moves m') fun _ _ => True := by
  unfold handleException
  rw [wp_bind]
  refine (exceptionOf_same e).mono (fun v m2 h2 => ?_) fun _ _ h' => h'
  obtain ⟨hsame, hc⟩ := h2
  have hc' : m2.stack = m₁.stack ∧ m2.frames = m₁.frames ∧ m2.handlers = m₁.handlers := by
    simpa [Vm.control] using hc
  refine dispatchRaise_moves hm hat hraise ⟨h.toSameCode.trans hsame, hc'.2.1.trans h.frames,
    hc'.2.2.trans h.handlers, ?_⟩ v
  rw [hc'.1, h.stack]

end Raising

section Staying

variable (hat : m.At f fs code op) (heffect : op.Effect f.bp m.stack m'.stack)
include hat heffect

lemma Vm.Moves.next {cells : List (ℕ × ℕ)} (hsame : m.SameCode m' := by exact ⟨rfl, rfl⟩)
    (hhandlers : m'.handlers = m.handlers := by rfl) (hfall : op.fallsThrough = true := by rfl)
    (hframes : m'.frames = { f with ip := f.ip + 1, localCells := cells } :: fs := by rfl) : m.Moves m' := by
  refine ⟨hsame, ?_⟩
  rw [Vm.control, Vm.control, hat.frames, hframes, hhandlers]
  exact .next hat.fetched hat.decoded hfall heffect

lemma Vm.Moves.jump {off : Int} (hsame : m.SameCode m' := by exact ⟨rfl, rfl⟩)
    (hhandlers : m'.handlers = m.handlers := by rfl) (hbranch : op.branches = true := by rfl)
    (hoff : op.offset? = some off := by rfl)
    (hframes : m'.frames = { f with ip := jumpTarget (f.ip + 1) off } :: fs := by rfl) : m.Moves m' := by
  refine ⟨hsame, ?_⟩
  rw [Vm.control, Vm.control, hat.frames, hframes, hhandlers]
  exact .jump hat.fetched hat.decoded hbranch hoff heffect

end Staying

open Op

lemma callOp_moves (hm : m.Flat) (hat : m.At f fs code op) {argc : ℕ} {tail : Bool}
    (hkind : (tail = true ∧ op = .tailCall argc) ∨ (tail = false ∧ ((∃ n, op = .call n) ∨ op = .apply)))
    (hsite : (m.advance f).callSite op = some (m₁, argc, tail)) (hcalm : m.Calm host self)
    (h : Midway m op f fs m₁) (htail : tail = true → m₁.stack = m.stack)
    (hbase : m₁.stack.length - (argc + 1) = m.stack.length - op.pops) :
    wp (callOp host self argc tail) m₁ m.Turn fun _ _ => True := by
  have hraise : op.raises = true := by rcases hkind with ⟨-, rfl⟩ | ⟨-, ⟨n, rfl⟩ | rfl⟩ <;> rfl
  have hfall : op.fallsThrough = true := by rcases hkind with ⟨-, rfl⟩ | ⟨-, ⟨n, rfl⟩ | rfl⟩ <;> rfl
  have hpush : op.pushes = 1 := by rcases hkind with ⟨-, rfl⟩ | ⟨-, ⟨n, rfl⟩ | rfl⟩ <;> rfl
  have hreturn {m' : Vm W} (hsame : m₁.SameCode m') (hf : m'.frames = m₁.frames) (hh : m'.handlers = m₁.handlers)
      {v : Value} (hst : m'.stack = m₁.stack.take (m₁.stack.length - (argc + 1)) ++ [v]) : m.Moves m' := by
    rw [hbase, h.stack] at hst
    have hone : [v].length = op.pushes := hpush.symm
    have heffect : op.Effect f.bp m.stack m'.stack := effect_of_eq (by rintro idx rfl; cases hraise) hone hst
    exact .next hat heffect (h.toSameCode.trans hsame) (hh.trans h.handlers) hfall (hf.trans h.frames)
  unfold callOp
  rw [wp_bind, wp_attempt]
  refine (doCall_called (h.continuations.trans hm.continuations) argc tail).mono_eq (fun _ m' _ hc => ?_)
    fun e m' hcall he => ?_
  · obtain ⟨hlen, hc⟩ := hc
    have hsame := h.toSameCode.trans hc.toSameCode
    rcases hc.result with ⟨v, hst, hf⟩ | ⟨ht, g, args, hip, hbp, hst, hf⟩ | ⟨ht, f', g, fs', args, hf', hip, hbp, hst, hf⟩
    · exact hreturn hc.toSameCode hf hc.handlers hst
    · refine ⟨hsame, ?_⟩
      rw [Vm.control, Vm.control, hat.frames, hf, h.frames, hc.handlers, h.handlers, hst, hbase, h.stack]
      refine .enter args hat.fetched hat.decoded ?_ hip (hbp.trans hbase)
      rcases hkind with ⟨ht', -⟩ | ⟨-, hkind⟩
      · simp [ht] at ht'
      · exact hkind
    · obtain ⟨rfl, rfl⟩ : f' = { f with ip := f.ip + 1 } ∧ fs' = fs := by simpa [h.frames] using hf'.symm
      rw [htail ht] at hbp hst
      refine ⟨hsame, ?_⟩
      rw [Vm.control, Vm.control, hat.frames, hf, hc.handlers, h.handlers, hst]
      rcases hkind with ⟨-, rfl⟩ | ⟨ht', -⟩
      · exact .reenter args hat.fetched hat.decoded hip hbp
      · simp [ht] at ht'
  · cases hy : e.yieldReason? with
    | some reason =>
      simp only [hy]
      intro w
      have hst : ((m'.setWorld w).push (.bool true)).stack = m₁.stack.take (m₁.stack.length - (argc + 1)) ++ [.bool true] :=
        congrArg (· ++ [Value.bool true]) (he.yielded (by simp [hy]))
      exact hreturn ⟨he.codePool, he.continuations⟩ he.frames he.handlers hst
    | none =>
      simp only [hy, wp_ite, wp_throw, wp_bind, wp_pure]
      refine ⟨fun _ => trivial, fun hd => ?_⟩
      have hguard (func : Value) (hs : List ExceptionHandler) : m.handlers ≠ .closure func :: hs := fun hh =>
        hcalm func hs hh ⟨f, fs, code, op, hat.frames, hat.fetched, hat.decoded, Or.inr ⟨m₁, argc, tail, e, m', hsite,
          hcall, hy, by simpa using hd⟩⟩
      refine handleException_moves hguard hat hraise ⟨h.toSameCode.trans he.toSameCode, he.frames.trans h.frames,
        he.handlers.trans h.handlers, ?_⟩ e
      rcases he.stack with hst | hst
      · rw [hst, h.stack]
      · rw [hst, hbase, take_take, min_self, h.stack]

structure Captured (m m' : Vm W) (f : Frame) (fs : List Frame) : Prop extends m.SameCode m' where
  frames : ∃ cells, m'.frames = { f with localCells := cells } :: fs
  stack : m'.stack = m.stack
  handlers : m'.handlers = m.handlers

lemma captureCell_captured (hframes : m.frames = f :: fs) (g : Frame) (desc : UpvalueDesc) :
    Captured m (m.captureCell g desc).2 f fs := by
  have hm : Captured m m f fs := ⟨⟨rfl, rfl⟩, ⟨f.localCells, hframes⟩, rfl, rfl⟩
  unfold captureCell
  split
  · split
    · exact hm
    · rename_i idx _ _
      refine ⟨⟨rfl, rfl⟩, ⟨(idx, m.store.cells.length) :: f.localCells, ?_⟩, rfl, rfl⟩
      simp [newCell, mapFrame, mapStore, hframes]
  · split
    · exact hm
    · exact ⟨⟨rfl, rfl⟩, ⟨f.localCells, hframes⟩, rfl, rfl⟩

lemma captureCells_captured (hframes : m.frames = f :: fs) (g : Frame) (descs : List UpvalueDesc) :
    Captured m (m.captureCells g descs).2 f fs := by
  induction descs generalizing m f with
  | nil => exact ⟨⟨rfl, rfl⟩, ⟨f.localCells, hframes⟩, rfl, rfl⟩
  | cons desc descs ih =>
    have h1 := captureCell_captured hframes g desc
    obtain ⟨cells, hc⟩ := h1.frames
    have h2 := ih hc
    exact ⟨h1.toSameCode.trans h2.toSameCode, h2.frames, h2.stack.trans h1.stack, h2.handlers.trans h1.handlers⟩

lemma append_of_getLast? {st : List Value} {v : Value} (h : st.getLast? = some v) :
    st ++ [v] = st.take (st.length - 1) ++ [v, v] := by
  obtain ⟨st, rfl⟩ := getLast?_eq_some_iff.1 h
  simp

lemma dropLast_dropLast_eq_take (st : List Value) : st.dropLast.dropLast = st.take (st.length - 2) := by
  rw [dropLast_eq_take, dropLast_eq_take, length_take, take_take]
  congr 1
  omega

lemma advance_midway (hframes : m.frames = f :: fs) : Midway m op f fs (m.advance f) := by
  refine ⟨⟨rfl, rfl⟩, ?_, rfl, rfl⟩
  simp [advance, mapFrame, hframes]

lemma execOp_moves (hm : m.Flat) (hat : m.At f fs code op) (hflat : op.isFlat = true) (hcalm : m.Calm host self) :
    wp (execOp host self f op) (m.advance f) m.Turn fun _ _ => True := by
  have hmid : Midway m op f fs (m.advance f) := advance_midway hat.frames
  have hcall {argc : ℕ} {tail : Bool} (hkind : (tail = true ∧ op = .tailCall argc) ∨ (tail = false ∧ op = .call argc)) :
      wp (callOp host self argc tail) (m.advance f) m.Turn fun _ _ => True := by
    refine callOp_moves hm hat ?_ ?_ hcalm hmid (fun _ => rfl) ?_
    · exact hkind.imp_right fun h => ⟨h.1, Or.inl ⟨argc, h.2⟩⟩
    · rcases hkind with ⟨rfl, rfl⟩ | ⟨rfl, rfl⟩ <;> rfl
    · rcases hkind with ⟨-, rfl⟩ | ⟨-, rfl⟩ <;> rfl
  -- With the frames of the machine at hand, its updates compute.
  rcases m with ⟨stack, frames, globals, pool, maxFrames, macros, libraries, handlers, winders, libraryEnv, ambientTier,
    store, submitted, executed⟩
  obtain ⟨hframes, hcode, hop⟩ := id hat
  obtain rfl : frames = f :: fs := hframes
  unfold execOp
  cases op with
  | const v => exact .next hat effect_append
  | loadGlobal name =>
    simp only [wp_bind, wp_get]
    cases resolveGlobal name _ with
    | error e => trivial
    | ok v => exact .next hat effect_append
  | storeGlobal name =>
    simp only [wp_bind, wp_pop, wp_modify, wp_pure, Vm.defineGlobal, mapLibraryEnv]
    split <;> exact .next hat effect_drop
  | defineGlobal name =>
    simp only [wp_bind, wp_pop, wp_modify, wp_pure, Vm.defineGlobal, mapLibraryEnv]
    split <;> exact .next hat effect_drop
  | loadLocal idx =>
    simp only [wp_bind, wp_modify, wp_pure, Vm.loadLocal]
    split <;> exact .next hat effect_append
  | storeLocal idx =>
    simp only [wp_bind, wp_modify, wp_pure, Vm.storeLocal]
    split
    · exact .next hat (Or.inl rfl)
    · exact .next hat (Or.inr ⟨_, rfl⟩)
  | loadUpvalue idx =>
    simp only [wp_bind, wp_modify, wp_pure, Vm.loadUpvalue]
    split <;> exact .next hat effect_append
  | storeUpvalue idx =>
    simp only [wp_bind, wp_modify, wp_pure, Vm.storeUpvalue]
    split <;> exact .next hat effect_drop
  | call argc => exact hcall (Or.inr ⟨rfl, rfl⟩)
  | tailCall argc => exact hcall (Or.inl ⟨rfl, rfl⟩)
  | ret =>
    refine ⟨⟨rfl, rfl⟩, .ret _ hcode fun op hop' => ?_⟩
    simpa [hop] using hop'.symm
  | jump offset => exact .jump hat effect_same
  | jumpIfFalse offset =>
    simp only [wp_bind, wp_modify, wp_pure, Vm.jumpIfFalse]
    split
    · exact .next hat effect_drop
    · exact .jump hat effect_drop
  | pop => exact .next hat effect_drop
  | dup =>
    simp only [wp_bind, wp_modify, wp_pure, Vm.dup]
    split
    · rename_i v hv
      exact .next hat (fun _ => ⟨[v, v], rfl, append_of_getLast? hv⟩)
    · rename_i hv
      refine .next hat (fun hlen => ?_)
      obtain rfl : stack = [] := by simpa [advance, mapFrame] using hv
      simp [pops] at hlen
  | makeClosure codeId descs =>
    simp only [wp_bind, wp_get]
    split
    · obtain ⟨⟨hpool, hconts⟩, ⟨cells, hf⟩, hst, hh⟩ := captureCells_captured hmid.frames f descs
      have hlen : stack.take (stack.length - 0) = stack := take_length
      exact .next hat (fun _ => ⟨[_], rfl, congrArg (· ++ [_]) (hst.trans hlen.symm)⟩) ⟨hpool, hconts⟩ hh rfl hf
    · trivial
  | captureCc => simp [isFlat] at hflat
  | yield =>
    intro w
    refine .next hat (fun _ => ⟨[.bool true], rfl, ?_⟩)
    exact congrArg (· ++ [Value.bool true]) dropLast_eq_take
  | nop => exact .next hat effect_same
  | apply =>
    simp only [wp_bind, wp_pop, wp_modify]
    cases hargs : applyArgs _ with
    | error e => trivial
    | ok args =>
      refine callOp_moves hm hat (Or.inr ⟨rfl, Or.inr rfl⟩) (by simp only [Vm.callSite, hargs]) hcalm
        ⟨⟨rfl, rfl⟩, rfl, rfl, ?_⟩ (by simp) ?_
      · change (stack.dropLast.dropLast ++ _ :: args).take (stack.length - 2) = stack.take (stack.length - 2)
        rw [dropLast_dropLast_eq_take, take_append_of_le_length (by simp), take_take, min_self]
      · change (stack.dropLast.dropLast ++ _ :: args).length - (args.length + 1) = stack.length - 2
        simp [dropLast_dropLast_eq_take]
  | pushHandler offset => exact ⟨⟨rfl, rfl⟩, .opened hcode hop⟩
  | popHandler => exact ⟨⟨rfl, rfl⟩, .closed hcode hop (Or.inl rfl)⟩
  | raise =>
    simp only [wp_bind, wp_pop]
    have hst : stack.dropLast.take (stack.length - 1) = stack.take (stack.length - 1) := by
      rw [dropLast_eq_take, take_take, min_self]
    refine dispatchRaise_moves (fun func hs hh => ?_) hat rfl ?_ _
    · exact hcalm func hs hh ⟨f, fs, code, .raise, rfl, hcode, hop, Or.inl rfl⟩
    exact ⟨⟨rfl, rfl⟩, rfl, rfl, hst⟩
  | values => trivial
  | callWithValues => trivial
  | eval => simp [isFlat] at hflat
  | load => simp [isFlat] at hflat
  | pushWinder =>
    refine .next hat (fun _ => ⟨[], rfl, ?_⟩)
    exact (dropLast_dropLast_eq_take stack).trans (append_nil _).symm
  | popWinder => exact .next hat effect_same
  | pushClosureHandler => exact ⟨⟨rfl, rfl⟩, .installed _ hcode hop⟩
  | popClosureHandler => exact ⟨⟨rfl, rfl⟩, .closed hcode hop (Or.inr rfl)⟩

theorem step_moves (hm : m.Flat) (hcalm : m.Calm host self) : wp (step host self) m m.Turn fun _ _ => True := by
  unfold step
  simp only [wp_bind, wp_get]
  split
  · trivial
  · rename_i f fs hframes
    split
    · trivial
    · rename_i code hcode
      split
      · rename_i hop
        refine ⟨⟨rfl, rfl⟩, ?_⟩
        have hcontrol : m.control = ⟨m.stack, f :: fs, m.handlers⟩ := by rw [Vm.control, hframes]
        have hcontrol' : (m.doReturn f).control = ⟨m.stack.dropLast.take f.bp ++ [m.top .void], fs, m.handlers⟩ := by
          simp [Vm.control, doReturn, push, hframes]
        rw [hcontrol, hcontrol']
        exact .ret _ hcode (by simp [hop])
      · rename_i op hop
        exact execOp_moves hm ⟨hframes, hcode, hop⟩ (hm.code code (mem_of_getElem? hcode) op (mem_of_getElem? hop))
          hcalm

end Turns

def Advances (host : Host W) (self : Calls W) (m m' : Vm W) : Prop :=
  step host self m = some (.ok none, m') ∨
    ∃ reason m₁ w, step host self m = some (.ok (some (.yield reason)), m₁) ∧
      host.await reason m₁.store.world = (.ok (), w) ∧ m' = (m₁.setWorld w).push (.bool true)

variable {host : Host W} {self : Calls W} {m m' : Vm W}

lemma Advances.moves (hm : m.Flat) (hcalm : m.Calm host self) (h : Advances host self m m') : m.Moves m' := by
  have hstep : wp (step host self) m m.Turn fun _ _ => True := step_moves hm hcalm
  rcases h with h | ⟨reason, m1, w, h, -, rfl⟩
  · exact hstep.of_ok h
  · exact hstep.of_ok h w

section

variable {pool : List CodeObject} {c' : Control} {st : List Value} {f : Frame} {fs : List Frame}
  {hs : List ExceptionHandler}

lemma Move.frames_ne_nil {c : Control} (h : Move pool c c') : c.frames ≠ [] := by cases h <;> simp

lemma Move.code_exists (h : Move pool ⟨st, f :: fs, hs⟩ c') : ∃ code, pool[f.codeId]? = some code := by
  generalize hc : Control.mk st (f :: fs) hs = c at h
  cases h with
  | ret v hcode | next hcode | jump hcode | opened hcode | installed func hcode | closed hcode | enter args hcode
  | reenter args hcode | unwind v hcode =>
    cases hc
    exact ⟨_, hcode⟩

lemma Move.at_end {code : CodeObject} (h : Move pool ⟨st, f :: fs, hs⟩ c') (hcode : pool[f.codeId]? = some code)
    (hop : code.ops[f.ip]? = none) : ∃ v, c' = ⟨st.dropLast.take f.bp ++ [v], fs, hs⟩ := by
  generalize hc : Control.mk st (f :: fs) hs = c at h
  cases h with
  | ret v hcode' =>
    cases hc
    exact ⟨v, rfl⟩
  | next hcode' hop' | jump hcode' hop' | opened hcode' hop' | installed func hcode' hop' | closed hcode' hop'
  | enter args hcode' hop' | reenter args hcode' hop' | unwind v hcode' hop' =>
    cases hc
    obtain rfl := Option.mem_unique hcode hcode'
    simp [hop] at hop'

end

lemma Vm.Moves.flat (hm : m.Flat) (h : m.Moves m') : m'.Flat where
  code := by
    rw [h.codePool]
    exact hm.code
  continuations := h.continuations.trans hm.continuations

end Mae.Scheme
