import Mathlib.Data.Nat.Notation
import Mathlib.Logic.Function.Basic

/-! The lock file beside a file and the updates under it, one file-system call at a time: `acquire_lock`, `check_lock`
and `release_lock`, and `locked_update` with its operating-system lock over the same lock file. -/

namespace Mae.Mcp.FileLock

open Function

/-- An `update` is a round of `UpdateLock::try_acquire`, the first or the second one. -/
inductive Call
  | acquire
  | check
  | release
  | update (second : Bool)

@[grind] def Call.modern : Call → Bool
  | .update _ => true
  | _ => false

/-- Where a process stands in its call; `ok` is what the update will return. -/
inductive Phase
  | idle
  | locking
  | creating (call : Call)
  | writing (call : Call)
  | reading (call : Call)
  | testing (call : Call) (owner : ℕ)
  | removing (call : Call)
  | updating
  | dropping (ok : Bool)
  | unlocking (ok : Bool)

/-- It `holds` from the `Ok` of `acquire_lock` to its call of `release_lock`, and while it updates. -/
structure Process (T : Type) where
  alive : Bool
  phase : Phase
  holds : Bool
  loaded : Option T
  saved : Bool
  result : Option Bool

/-- The process that created the file, whether it has written its id into it, and whether that is for an update. -/
structure LockFile where
  pid : ℕ
  written : Bool
  modern : Bool

structure World (T : Type) where
  file : Option LockFile
  os : Option ℕ
  disk : T
  log : List (T → T)
  procs : ℕ → Process T

inductive Action (T : Type)
  | call (p : ℕ) (call : Call)
  | advance (p : ℕ)
  | load (p : ℕ)
  | save (p : ℕ) (mutate : T → T)
  | fail (p : ℕ)
  | die (p : ℕ)

namespace World

variable {T : Type} (w : World T) (p : ℕ)

def put (x : Process T) : World T := { w with procs := update w.procs p x }

def goTo (phase : Phase) : World T := w.put p { w.procs p with phase := phase }

/-- `try_acquire` returns `Ok(None)`, and the update waits for its next attempt. -/
def retreat : World T := { w.goTo p .locking with os := none }

def advance : World T :=
  match (w.procs p).phase with
  | .idle | .updating => w
  | .locking => if w.os.isNone then { w.goTo p (.creating (.update false)) with os := some p } else w
  | .creating call =>
    match w.file with
    | none => { w.goTo p (.writing call) with file := some ⟨p, false, call.modern⟩ }
    | some _ => w.goTo p (.reading call)
  | .writing call =>
    -- the text goes to the file this process has created, which may be gone from the directory
    { w.put p { w.procs p with phase := if call.modern then .updating else .idle, holds := true, loaded := none } with
      file := w.file.map fun f => if f.pid = p then { f with written := true } else f }
  | .reading call =>
    match w.file with
    | some ⟨owner, true, _⟩ => w.goTo p (.testing call owner)
    | _ => w.goTo p (if call.modern then .removing call else .idle)
  | .testing .acquire owner => w.goTo p (if (w.procs owner).alive then .idle else .removing .acquire)
  | .testing .check owner => w.goTo p (if owner = p ∨ (w.procs owner).alive then .idle else .removing .check)
  | .testing .release owner => w.goTo p (if owner = p then .removing .release else .idle)
  | .testing (.update second) owner =>
    if owner ≠ p ∧ (w.procs owner).alive then w.retreat p else w.goTo p (.removing (.update second))
  | .removing .acquire => { w.goTo p (.creating .acquire) with file := none }
  | .removing (.update false) => { w.goTo p (.creating (.update true)) with file := none }
  | .removing (.update true) => { w.retreat p with file := none }
  | .removing _ => { w.goTo p .idle with file := none }
  | .dropping ok => { w.goTo p (.unlocking ok) with file := none }
  | .unlocking ok => { w.put p { w.procs p with phase := .idle, result := some ok } with os := none }

def start (call : Call) : World T :=
  match call with
  | .acquire => w.goTo p (.creating .acquire)
  | .check => w.goTo p (.reading .check)
  | .release => w.put p { w.procs p with phase := .reading .release, holds := false, loaded := none }
  | .update _ =>
    if (w.procs p).holds then w
    else w.put p { w.procs p with phase := .locking, loaded := none, saved := false, result := none }

def step : Action T → World T
  | .call p call =>
    match (w.procs p).alive, (w.procs p).phase with
    | true, .idle => w.start p call
    | _, _ => w
  | .advance p => if (w.procs p).alive then w.advance p else w
  | .load p =>
    if (w.procs p).alive ∧ (w.procs p).holds then w.put p { w.procs p with loaded := some w.disk } else w
  | .save p mutate =>
    match (w.procs p).alive, (w.procs p).holds, (w.procs p).phase, (w.procs p).loaded with
    | true, true, .idle, some value =>
      { w.put p { w.procs p with loaded := none } with disk := mutate value, log := w.log ++ [mutate] }
    | true, true, .updating, some value =>
      { w.put p { w.procs p with phase := .dropping true, holds := false, loaded := none, saved := true } with
        disk := mutate value, log := w.log ++ [mutate] }
    | _, _, _, _ => w
  | .fail p =>
    match (w.procs p).alive, (w.procs p).phase with
    | true, .locking => w.put p { w.procs p with phase := .idle, result := some false }
    | true, .updating | true, .writing (.update _) =>
      w.put p { w.procs p with phase := .dropping false, holds := false, loaded := none }
    | true, .creating (.update _) | true, .removing (.update _) => w.goTo p (.unlocking false)
    | _, _ => w
  | .die p => { w.put p { w.procs p with alive := false } with os := w.os.filter (· ≠ p) }

def run (actions : List (Action T)) : World T := actions.foldl step w

/-- The lock file is not one that an `acquire_lock` of another live process has made. -/
def removable (modern : Bool) : Bool :=
  w.file.all fun f => modern && f.modern || !(w.procs f.pid).alive || f.pid = p && !(w.procs p).holds

def careful : Action T → Bool
  | .advance p =>
    match (w.procs p).phase with
    | .removing call => w.removable p call.modern
    | .dropping _ => w.removable p true
    | _ => true
  | _ => true

def carefulRun : World T → List (Action T) → Bool
  | _, [] => true
  | w, a :: actions => w.careful a && carefulRun (w.step a) actions

end World

/-- The phases of an update that has the operating-system lock. -/
@[grind] def Phase.Locked : Phase → Prop
  | .creating call | .writing call | .reading call | .testing call _ | .removing call => call.modern = true
  | .updating | .dropping _ | .unlocking _ => True
  | _ => False

@[grind] def Phase.Updates (phase : Phase) : Prop := phase = .locking ∨ phase.Locked

/-- Those in which its lock file is there. -/
@[grind] def Phase.Owns : Phase → Prop
  | .writing call => call.modern = true
  | .updating | .dropping _ => True
  | _ => False

lemma Phase.Owns.locked {phase : Phase} (h : phase.Owns) : phase.Locked := by
  cases phase <;> first | exact h | exact h.elim

@[grind cases] structure World.Sound {T : Type} (init : T) (w : World T) : Prop where
  locked : ∀ q, (w.procs q).alive = true → (w.procs q).phase.Locked → w.os = some q
  writing : ∀ q call, (w.procs q).alive = true → (w.procs q).phase = .writing call → w.file = some ⟨q, false, call.modern⟩
  holding : ∀ q, (w.procs q).alive = true → (w.procs q).holds = true → ∃ f, w.file = some f ∧ f.pid = q ∧ f.written = true
  modern : ∀ f, w.file = some f → f.modern = true → (w.procs f.pid).alive = true → (w.procs f.pid).phase.Owns
  dropping : ∀ q ok, (w.procs q).alive = true → (w.procs q).phase = .dropping ok → (w.procs q).holds = false
  loaded : ∀ q v, (w.procs q).alive = true → (w.procs q).holds = true → (w.procs q).loaded = some v → v = w.disk
  log : w.disk = w.log.foldl (fun v f => f v) init
  saved : ∀ q, (w.procs q).saved = true → (w.procs q).phase = .dropping true ∨ (w.procs q).phase = .unlocking true ∨
    (w.procs q).result = some true ∧ ¬ (w.procs q).phase.Updates
  running : ∀ q, (w.procs q).phase.Updates → (w.procs q).result = none

namespace World.Sound

variable {T : Type} {init : T} {w : World T} {p : ℕ} (h : w.Sound init)
include h

lemma goTo {phase : Phase} (hlocked : phase.Locked → w.os = some p) (hwriting : ∀ call, phase ≠ .writing call)
    (howns : ∀ f, w.file = some f → f.modern = true → f.pid = p → phase.Owns) (hdropping : ∀ ok, phase ≠ .dropping ok)
    (hsaved : (w.procs p).saved = true → phase = .unlocking true ∨ (w.procs p).result = some true ∧ ¬ phase.Updates)
    (hrunning : phase.Updates → (w.procs p).result = none) :
    (w.goTo p phase).Sound init := by
  constructor <;> simp only [World.goTo, put, update_apply] <;> grind

/-- A lock file for an update is that of the process with the operating-system lock, so what goes
is the file of a dead process, or one that this process does not need. -/
lemma removed {modern : Bool} (hr : w.removable p modern = true) (hlocked : modern = true → w.os = some p)
    (hwriting : ∀ call, (w.procs p).phase ≠ .writing call) (howns : (w.procs p).phase.Owns → (w.procs p).holds = false) :
    Sound init { w with file := none } := by
  have hfree : ∀ f, w.file = some f → (w.procs f.pid).alive = true → f.pid = p ∧ (w.procs p).holds = false := by
    intro f hf halive
    simp only [removable, hf, Option.all_some, Bool.or_eq_true, Bool.and_eq_true, halive, Bool.not_true,
      decide_eq_true_eq, Bool.not_eq_true'] at hr
    rcases hr with (⟨hm, hfm⟩ | hdead) | hown
    · have hf' := h.modern f hf hfm halive
      have hos := h.locked f.pid halive hf'.locked
      obtain rfl : f.pid = p := Option.mem_unique hos (hlocked hm)
      exact ⟨rfl, howns hf'⟩
    · cases hdead
    · exact hown
  constructor <;> grind

lemma retreat (hos : w.os = some p) (howns : ∀ f, w.file = some f → f.modern = true → f.pid ≠ p)
    (hsaved : (w.procs p).saved = false) (hrunning : (w.procs p).result = none) :
    (w.retreat p).Sound init := by
  constructor <;> simp only [World.retreat, World.goTo, put, update_apply] <;> grind

section

variable (halive : (w.procs p).alive = true)
include halive

lemma advance_locking (hphase : (w.procs p).phase = .locking) : (w.advance p).Sound init := by
  rw [World.advance, hphase]
  dsimp only
  split
  · constructor <;> simp only [World.goTo, put, update_apply] <;> grind
  · exact h

variable {call : Call}

lemma advance_creating (hphase : (w.procs p).phase = .creating call) : (w.advance p).Sound init := by
  rw [World.advance, hphase]
  dsimp only
  split
  · constructor <;> simp only [World.goTo, put, update_apply] <;> grind
  · apply h.goTo <;> grind

lemma advance_writing (hphase : (w.procs p).phase = .writing call) : (w.advance p).Sound init := by
  have hfile := h.writing p call halive hphase
  rw [World.advance, hphase]
  cases hmodern : call.modern <;> constructor <;>
    simp only [put, update_apply, hfile, hmodern, Option.map_some, reduceIte] <;> grind

lemma advance_testing {owner : ℕ} (hphase : (w.procs p).phase = .testing call owner) : (w.advance p).Sound init := by
  have hsaved := h.saved p
  have hrunning := h.running p
  rw [World.advance, hphase]
  cases call with
  | acquire => apply h.goTo <;> grind
  | check => apply h.goTo <;> grind
  | release => apply h.goTo <;> grind
  | update second =>
    dsimp only
    split
    · apply h.retreat <;> grind
    · apply h.goTo <;> grind

lemma advance_removing (hphase : (w.procs p).phase = .removing call)
    (hcareful : w.removable p call.modern = true) : (w.advance p).Sound init := by
  have hremoved := h.removed hcareful (by grind) (by grind) (by grind)
  rw [World.advance, hphase]
  cases call with
  | acquire => apply hremoved.goTo <;> grind
  | check => apply hremoved.goTo <;> grind
  | release => apply hremoved.goTo <;> grind
  | update second =>
    cases second with
    | false => apply hremoved.goTo <;> grind
    | true => apply hremoved.retreat <;> grind

lemma advance (hcareful : w.careful (.advance p) = true) : (w.advance p).Sound init := by
  have hsaved := h.saved p
  rw [careful] at hcareful
  cases hphase : (w.procs p).phase with rw [hphase] at hcareful
  | idle => rw [World.advance, hphase]; exact h
  | locking => exact h.advance_locking halive hphase
  | creating call => exact h.advance_creating halive hphase
  | writing call => exact h.advance_writing halive hphase
  | reading call =>
    rw [World.advance, hphase]
    dsimp only
    split <;> apply h.goTo <;> grind
  | testing call owner => exact h.advance_testing halive hphase
  | removing call => exact h.advance_removing halive hphase hcareful
  | updating => rw [World.advance, hphase]; exact h
  | dropping ok =>
    rw [World.advance, hphase]
    apply (h.removed hcareful (by grind) (by grind) fun _ => h.dropping p ok halive hphase).goTo <;> grind
  | unlocking ok =>
    rw [World.advance, hphase]
    constructor <;> simp only [put, update_apply] <;> grind

end

lemma start (halive : (w.procs p).alive = true) (hphase : (w.procs p).phase = .idle) (call : Call) :
    (w.start p call).Sound init := by
  have howns : ∀ f, w.file = some f → f.modern = true → f.pid ≠ p := by
    rintro f hf hmodern rfl
    have := h.modern f hf hmodern halive
    simp [hphase, Phase.Owns] at this
  have hsaved := h.saved p
  have hrunning := h.running p
  unfold World.start
  split
  next => apply h.goTo <;> grind
  next => apply h.goTo <;> grind
  next => constructor <;> simp only [put, update_apply] <;> grind
  next =>
    split
    · exact h
    · constructor <;> simp only [put, update_apply] <;> grind

lemma save (mutate : T → T) : (w.step (.save p mutate)).Sound init := by
  rw [World.step]
  split
  · constructor <;> simp only [put, update_apply] <;> grind
  · constructor <;> simp only [put, update_apply] <;> grind
  · exact h

lemma drop (halive : (w.procs p).alive = true) (howns : (w.procs p).phase.Owns) (hsaved : (w.procs p).saved = false) :
    (w.put p { w.procs p with phase := .dropping false, holds := false, loaded := none }).Sound init := by
  have hlocked := h.locked p halive howns.locked
  have hrunning := h.running p (.inr howns.locked)
  constructor <;> simp only [put, update_apply] <;> grind

lemma fail : (w.step (.fail p)).Sound init := by
  rw [World.step]
  split
  next => constructor <;> simp only [put, update_apply] <;> grind
  next => apply h.drop <;> grind
  next => apply h.drop <;> grind
  next => apply h.goTo <;> grind
  next => apply h.goTo <;> grind
  next => exact h

lemma step {a : Action T} (hcareful : w.careful a = true) : (w.step a).Sound init := by
  cases a with
  | call p call =>
    rw [World.step]
    split
    · next halive hphase => exact h.start halive hphase call
    · exact h
  | advance p =>
    rw [World.step]
    split
    · next halive => exact h.advance halive hcareful
    · exact h
  | load p =>
    rw [World.step]
    split
    · constructor <;> simp only [put, update_apply] <;> grind
    · exact h
  | save p mutate => exact h.save mutate
  | fail p => exact h.fail
  | die p => constructor <;> simp only [World.step, put, update_apply] <;> grind

lemma run {actions : List (Action T)} (hcareful : w.carefulRun actions = true) : (w.run actions).Sound init := by
  induction actions generalizing w with
  | nil => exact h
  | cons a actions ih =>
    rw [carefulRun, Bool.and_eq_true] at hcareful
    exact ih (h.step hcareful.1) hcareful.2

end World.Sound

def initial {T : Type} (init : T) : World T := ⟨none, none, init, [], fun _ => ⟨true, .idle, false, none, false, none⟩⟩

lemma sound_initial {T : Type} (init : T) : (initial init).Sound init := by
  constructor <;> simp [initial, Phase.Locked, Phase.Updates]

def Process.Holder {T : Type} (x : Process T) : Prop := x.alive = true ∧ x.holds = true
  deriving Decidable

/-- There is one live holder at most, if no process removes the lock file of another live one. -/
theorem live_holders_agree {T : Type} (init : T) (actions : List (Action T))
    (hcareful : (initial init).carefulRun actions = true) (p q : ℕ)
    (hp : (((initial init).run actions).procs p).Holder) (hq : (((initial init).run actions).procs q).Holder) : p = q := by
  have h := (sound_initial init).run hcareful
  obtain ⟨f, hf, rfl, -⟩ := h.holding p hp.1 hp.2
  obtain ⟨f', hf', rfl, -⟩ := h.holding q hq.1 hq.2
  exact congrArg LockFile.pid (Option.mem_unique hf hf')

/-- Process 0 takes the lock and dies with it, and process 1 finds it dead. -/
def abandoned : List (Action (List ℕ)) :=
  [.call 0 .acquire, .advance 0, .advance 0, .die 0, .call 1 .acquire, .advance 1, .advance 1, .advance 1]

/-- Process 2 finds it too, and removes the file that 1 has put in its place. -/
theorem two_recover_one_lock :
    let w := (initial []).run (abandoned ++ [.call 2 .acquire, .advance 2, .advance 2, .advance 2, .advance 1, .advance 1,
      .advance 1, .advance 2, .advance 2, .advance 2])
    (w.procs 1).Holder ∧ (w.procs 2).Holder := by
  decide

theorem second_comer_is_refused :
    let w := (initial []).run (abandoned ++ [.advance 1, .advance 1, .advance 1, .call 2 .acquire, .advance 2, .advance 2])
    (w.procs 1).Holder ∧ ¬ (w.procs 2).Holder := by
  intro w
  exact ⟨by decide, fun h => absurd (live_holders_agree [] _ (by decide) 1 2 (by decide) h) (by decide)⟩

/-- What is on the disk is what the saved updates make of the first state, one after the other, and an
update that returns an error has saved nothing, if no process removes the lock file of another live one. -/
theorem updates_are_serial {T : Type} (init : T) (actions : List (Action T))
    (hcareful : (initial init).carefulRun actions = true) :
    let w := (initial init).run actions
    w.disk = w.log.foldl (fun value mutate => mutate value) init ∧
      ∀ p, (w.procs p).result = some false → (w.procs p).saved = false := by
  have h := (sound_initial init).run hcareful
  refine ⟨h.log, fun p hresult => Bool.eq_false_iff.mpr fun hsaved => ?_⟩
  have hrunning := h.running p
  rcases h.saved p hsaved with hphase | hphase | ⟨hok, -⟩
  · simp [hphase, hresult, Phase.Updates, Phase.Locked] at hrunning
  · simp [hphase, hresult, Phase.Updates, Phase.Locked] at hrunning
  · simp [hresult] at hok

/-- An older process has created its lock file and not written it yet; the update takes it for a leftover. -/
theorem update_beside_older_process_is_lost :
    let w := (initial []).run [.call 0 .acquire, .advance 0, .call 1 (.update false), .advance 1, .advance 1, .advance 1,
      .advance 1, .advance 1, .advance 1, .load 1, .advance 0, .load 0, .save 1 (· ++ [1]), .save 0 (· ++ [0])]
    w.disk = [0] ∧ w.log.foldl (fun value mutate => mutate value) [] = [1, 0] := by
  decide

theorem older_process_after_update :
    let w := (initial []).run [.call 1 (.update false), .advance 1, .advance 1, .advance 1, .load 1, .save 1 (· ++ [1]),
      .advance 1, .advance 1, .call 0 .acquire, .advance 0, .advance 0, .load 0, .save 0 (· ++ [0])]
    w.disk = [1, 0] := by
  intro w
  exact (updates_are_serial [] _ (by decide)).1.trans (by decide)

end Mae.Mcp.FileLock
