import Mathlib.Logic.Function.Basic

/-!
# Code that may halt the machine

`Code σ α` is a stateful computation over the states `σ`.  A run either returns, or stops the
machine for ever (`halt`), or hands control to another program (`leave`); in each case it says in
which state.

* `bind_of_ret`, `bind_eq_ret`   a sequence returns exactly if both parts do;
* `Keeps f x`   the code `x` leaves the view `f` of the state alone, HOWEVER it ends; `Keeps` is
                closed under sequencing, branching and iteration, so a frame property of a long
                program is one of its statements;
* `Preserves P x`   the code does not leave `P`, closed under the same.
-/

/-- how a run ends -/
inductive Outcome (σ α : Type) where
  | ret (a : α) (s : σ)
  | halt (s : σ)
  | leave (s : σ)

/-- the state a run ends in -/
def Outcome.state {σ α : Type} : Outcome σ α → σ
  | .ret _ s => s
  | .halt s => s
  | .leave s => s

theorem Outcome.ret_state {σ α : Type} {a b : α} {s t : σ} (h : Outcome.ret a s = .ret b t) :
    s = t := by
  cases h
  rfl

/-- the outcome for one who waits for the control that was handed over -/
def Outcome.resumed {σ α : Type} : Outcome σ α → Outcome σ Unit
  | .ret _ s => .halt s
  | .halt s => .halt s
  | .leave s => .ret () s

/-- a stateful computation -/
def Code (σ α : Type) := σ → Outcome σ α

namespace Code

variable {σ α β γ : Type}

/-- the run of `x` from `s` -/
def run (x : Code σ α) (s : σ) : Outcome σ α := x s

protected def pure (a : α) : Code σ α := fun s => .ret a s

protected def bind (x : Code σ α) (f : α → Code σ β) : Code σ β := fun s =>
  match x.run s with
  | .ret a s' => (f a).run s'
  | .halt s' => .halt s'
  | .leave s' => .leave s'

instance : Monad (Code σ) where
  pure := Code.pure
  bind := Code.bind

def gets (f : σ → α) : Code σ α := fun s => .ret (f s) s

def modify (f : σ → σ) : Code σ Unit := fun s => .ret () (f s)

/-- stop for ever -/
def halt : Code σ α := fun s => .halt s

/-- hand control over in the state `f s` -/
def leave (f : σ → σ) : Code σ α := fun s => .leave (f s)

/-- run `f` on every element of a list, in order -/
def each (f : β → Code σ Unit) : List β → Code σ Unit
  | [] => Code.pure ()
  | b :: bs => Code.bind (f b) fun _ => each f bs

-- the proof is no `rfl` to `simp`: rewriting with it by unification would unfold the whole program
theorem run_bind (x : Code σ α) (f : α → Code σ β) (s : σ) :
    (x >>= f).run s = match x.run s with
      | .ret a s' => (f a).run s'
      | .halt s' => .halt s'
      | .leave s' => .leave s' := (rfl)

/-! the simp set that runs a program step by step, with `run_bind` -/

@[simp] theorem run_pure (a : α) (s : σ) : (pure a : Code σ α).run s = .ret a s := rfl
@[simp] theorem run_gets (f : σ → α) (s : σ) : (gets f).run s = .ret (f s) s := rfl
@[simp] theorem run_modify (f : σ → σ) (s : σ) : (modify f).run s = .ret () (f s) := rfl
@[simp] theorem run_halt (s : σ) : (halt : Code σ α).run s = .halt s := rfl
@[simp] theorem run_leave (f : σ → σ) (s : σ) : (leave f : Code σ α).run s = .leave (f s) := rfl

@[simp] theorem run_ite (c : Prop) [Decidable c] (x y : Code σ α) (s : σ) :
    (if c then x else y).run s = if c then x.run s else y.run s := by
  split <;> rfl

instance : LawfulMonad (Code σ) := LawfulMonad.mk' _
  (fun x => funext fun s => by
    show (x >>= pure).run s = x.run s
    rw [run_bind]
    cases x.run s <;> rfl)
  (fun _ _ => rfl)
  (fun x f g => funext fun s => by
    show (x >>= f >>= g).run s = (x >>= fun a => f a >>= g).run s
    rw [run_bind, run_bind, run_bind]
    cases x.run s with
    | ret a t => exact (run_bind _ _ t).symm
    | halt t => rfl
    | leave t => rfl)

theorem bind_of_ret {x : Code σ α} {s s' : σ} {a : α} (h : x.run s = .ret a s')
    (f : α → Code σ β) : (x >>= f).run s = (f a).run s' := by
  rw [run_bind, h]

theorem bind_of_halt {x : Code σ α} {s s' : σ} (h : x.run s = .halt s') (f : α → Code σ β) :
    (x >>= f).run s = .halt s' := by
  rw [run_bind, h]

/-- **a sequence returns exactly if its two parts do** -/
theorem bind_eq_ret {x : Code σ α} {f : α → Code σ β} {s s'' : σ} {b : β} :
    (x >>= f).run s = .ret b s'' ↔ ∃ a s', x.run s = .ret a s' ∧ (f a).run s' = .ret b s'' := by
  rw [run_bind]
  cases x.run s with
  | ret a s' =>
    constructor
    · intro h
      exact ⟨a, s', rfl, h⟩
    · rintro ⟨a', t, ht, h⟩
      cases ht
      exact h
  | halt s' => simp
  | leave s' => simp

theorem each_cons (f : β → Code σ Unit) (b : β) (bs : List β) :
    each f (b :: bs) = (f b >>= fun _ => each f bs) := rfl

theorem each_append (f : β → Code σ Unit) (bs cs : List β) :
    each f (bs ++ cs) = (each f bs >>= fun _ => each f cs) := by
  funext s
  show (each f (bs ++ cs)).run s = (each f bs >>= fun _ => each f cs).run s
  induction bs generalizing s with
  | nil => rfl
  | cons b bs ih =>
    rw [List.cons_append, each_cons, each_cons, run_bind, run_bind, run_bind]
    cases (f b).run s with
    | ret a t => exact (ih t).trans (run_bind _ _ t)
    | halt t => rfl
    | leave t => rfl

/-! ## frames -/

/-- `x` leaves the view `f` of the state alone -/
def Keeps (f : σ → γ) (x : Code σ α) : Prop := ∀ s, f (x.run s).state = f s

theorem Keeps.pure (f : σ → γ) (a : α) : Keeps f (Pure.pure a : Code σ α) := fun _ => rfl

theorem Keeps.gets (f : σ → γ) (g : σ → α) : Keeps f (Code.gets g) := fun _ => rfl

theorem Keeps.halt (f : σ → γ) : Keeps f (Code.halt : Code σ α) := fun _ => rfl

theorem Keeps.modify {f : σ → γ} {g : σ → σ} (h : ∀ s, f (g s) = f s) : Keeps f (Code.modify g) := h

theorem Keeps.leave {f : σ → γ} {g : σ → σ} (h : ∀ s, f (g s) = f s) :
    Keeps f (Code.leave g : Code σ α) := h

theorem Keeps.bind {f : σ → γ} {x : Code σ α} {g : α → Code σ β} (hx : Keeps f x)
    (hg : ∀ a, Keeps f (g a)) : Keeps f (x >>= g) := by
  intro s
  have h := hx s
  rw [run_bind]
  cases hr : x.run s with
  | ret a s' =>
    rw [hr] at h
    exact (hg a s').trans h
  | halt s' =>
    rw [hr] at h
    exact h
  | leave s' =>
    rw [hr] at h
    exact h

theorem Keeps.ite {f : σ → γ} {c : Prop} [Decidable c] {x y : Code σ α} (hx : Keeps f x)
    (hy : Keeps f y) : Keeps f (if c then x else y) := by
  split
  · exact hx
  · exact hy

theorem Keeps.each {f : σ → γ} {x : β → Code σ Unit} {bs : List β} (h : ∀ b ∈ bs, Keeps f (x b)) :
    Keeps f (Code.each x bs) := by
  induction bs with
  | nil => exact fun _ => rfl
  | cons b bs ih =>
    rw [each_cons]
    exact (h b List.mem_cons_self).bind fun _ => ih fun b' hb' => h b' (List.mem_cons_of_mem _ hb')

theorem Keeps.of_ret {f : σ → γ} {x : Code σ α} (h : Keeps f x) {s s' : σ} {a : α}
    (hr : x.run s = .ret a s') : f s' = f s := by
  have h' := h s
  rwa [hr] at h'

/-! ## invariants -/

/-- `x` does not leave `P`, however it ends -/
def Preserves (P : σ → Prop) (x : Code σ α) : Prop := ∀ s, P s → P (x.run s).state

theorem Preserves.of_ret {P : σ → Prop} {x : Code σ α} (h : Preserves P x) {s s' : σ} {a : α}
    (hs : P s) (hr : x.run s = .ret a s') : P s' := by
  have h' := h s hs
  rwa [hr] at h'

theorem Preserves.bind {P : σ → Prop} {x : Code σ α} {g : α → Code σ β} (hx : Preserves P x)
    (hg : ∀ a, Preserves P (g a)) : Preserves P (x >>= g) := by
  intro s hs
  have h := hx s hs
  rw [run_bind]
  cases hr : x.run s with
  | ret a s' =>
    rw [hr] at h
    exact hg a s' h
  | halt s' =>
    rw [hr] at h
    exact h
  | leave s' =>
    rw [hr] at h
    exact h

theorem Preserves.ite {P : σ → Prop} {c : Prop} [Decidable c] {x y : Code σ α} (hx : Preserves P x)
    (hy : Preserves P y) : Preserves P (if c then x else y) := by
  split
  · exact hx
  · exact hy

end Code
