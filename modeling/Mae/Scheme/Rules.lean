import Mae.Scheme.Machine

/-! Rules for the operations of the machine. -/

namespace Mae.Scheme

open Library Exec

variable {W α : Type} {m : Vm W} {E : LispError → Vm W → Prop}

@[simp] lemma wp_pop (d : Value) {Q : Value → Vm W → Prop} : wp (pop d) m Q E ↔ Q (m.top d) m.drop := Iff.rfl

@[simp] lemma wp_record (i : Invocation) {Q : Unit → Vm W → Prop} :
    wp (record i) m Q E ↔ Q () (m.mapStore fun s => { s with invocations := i :: s.invocations }) :=
  Iff.rfl

lemma wp_onWorld {f : W → Except LispError α × W} {Q : α → Vm W → Prop}
    (hQ : ∀ a w, f m.store.world = (.ok a, w) → Q a (m.setWorld w))
    (hE : ∀ e w, f m.store.world = (.error e, w) → E e (m.setWorld w)) : wp (onWorld f) m Q E := by
  unfold wp onWorld
  rw [ofState_apply]
  rcases hf : f m.store.world with ⟨_ | _, w⟩
  · exact hE _ w hf
  · exact hQ _ w hf

lemma wp_compileForms {host : Host W} {self : Calls W} {fuel : ℕ} {exprs : List Value} {Q : ℕ → Vm W → Prop}
    (hQ : ∀ id c, compileTopLevel (services host self) fuel exprs (.ofVm m) = some (.ok id, c) →
      Q (m.codePool.length + id) (m.install c id))
    (hE : ∀ e c, compileTopLevel (services host self) fuel exprs (.ofVm m) = some (.error e, c) →
      E e { m with store := c.store }) :
    wp (compileForms host self fuel exprs) m Q E := by
  unfold wp compileForms
  rcases hc : compileTopLevel (services host self) fuel exprs (.ofVm m) with _ | ⟨_ | _, c⟩
  · trivial
  · exact hE _ c hc
  · exact hQ _ c hc

structure Vm.At (m : Vm W) (f : Frame) (fs : List Frame) (code : CodeObject) (op : Op) : Prop where
  frames : m.frames = f :: fs
  fetched : m.codePool[f.codeId]? = some code
  decoded : code.ops[f.ip]? = some op

lemma Vm.At.step_eq (host : Host W) (self : Calls W) {f : Frame} {fs : List Frame} {code : CodeObject} {op : Op}
    (h : m.At f fs code op) : step host self m = execOp host self f op (m.advance f) := by
  simp only [step, bind_apply, get_apply, h.frames, h.fetched, h.decoded, modify_apply]

end Mae.Scheme
