import HyperC.Lib.Code

/-!
# Code that simulates an abstract machine

An abstract machine takes one input after the other; it goes on, or it stops for good.  Code
simulates it if from related states it returns in related states where the machine goes on, and
halts where the machine stops.

* `runFrom`, `runFrom_append`   runs of the machine, `none` if it stops on the way;
* `runFrom_none_iff`            it stops at one of the inputs;
* `inv_run`                     what every step keeps, a run keeps;
* `Simulates`                   one input;
* `returns_run`, `halts_run`    a run of inputs, and `halts_iff`: it halts just where the machine stops;
* `outputs`, `writes_run`       what the machine puts out on the way is what the code writes;
* `same_view`                   two codes that simulate one machine cannot be told apart by what the
                                machine knows.
-/

namespace Simulation
open Code

section
variable {α ι ν : Type} {step : α → ι → Option α} {ok : ι → Prop} {a a' : α} {is js : List ι}

def runFrom (step : α → ι → Option α) : α → List ι → Option α
  | a, [] => some a
  | a, i :: is => (step a i).bind fun a' => runFrom step a' is

theorem runFrom_cons (i : ι) : runFrom step a (i :: is)
    = (step a i).bind fun a' => runFrom step a' is := rfl

theorem runFrom_append : runFrom step a (is ++ js)
    = (runFrom step a is).bind fun a' => runFrom step a' js := by
  induction is generalizing a with
  | nil => rfl
  | cons i is ih =>
    rw [List.cons_append, runFrom_cons, runFrom_cons, Option.bind_assoc]
    exact congrArg _ (funext fun _ => ih)

/-- **a run stops at one of its inputs** -/
theorem runFrom_none_iff : runFrom step a is = none ↔
    ∃ pre i post b, is = pre ++ i :: post ∧ runFrom step a pre = some b ∧ step b i = none := by
  constructor
  · intro h
    induction is generalizing a with
    | nil => cases h
    | cons i is ih =>
      cases hb : step a i with
      | none => exact ⟨[], i, is, a, rfl, rfl, hb⟩
      | some b =>
        rw [runFrom_cons, hb] at h
        obtain ⟨pre, j, post, b', rfl, hpre, hnone⟩ := ih h
        refine ⟨i :: pre, j, post, b', rfl, ?_, hnone⟩
        rw [runFrom_cons, hb]
        exact hpre
  · rintro ⟨pre, i, post, b, rfl, hpre, hnone⟩
    rw [runFrom_append, hpre]
    show (step b i).bind _ = none
    rw [hnone]
    rfl

/-- **an invariant of the steps is one of the runs** -/
theorem inv_run {P : α → Prop} (h : ∀ a i a', ok i → P a → step a i = some a' → P a')
    (hok : ∀ i ∈ is, ok i) (ha : P a) (hr : runFrom step a is = some a') : P a' := by
  induction is generalizing a with
  | nil =>
    cases hr
    exact ha
  | cons i is ih =>
    obtain ⟨hi, his⟩ := List.forall_mem_cons.mp hok
    obtain ⟨b, hb, hr⟩ := Option.bind_eq_some_iff.mp hr
    exact ih his (h a i b hi ha hb) hr

end

section
variable {σ α ι ν : Type} {R : σ → α → Prop} {ok : ι → Prop} {step : α → ι → Option α}
  {x : ι → Code σ Unit} {s t : σ} {a a' : α} {is : List ι}

/-- the code `x i` does for related states what the machine does on the input `i` -/
structure Simulates (R : σ → α → Prop) (ok : ι → Prop) (step : α → ι → Option α)
    (x : ι → Code σ Unit) : Prop where
  returns : ∀ {s a i a'}, R s a → ok i → step a i = some a' → ∃ s', (x i).run s = .ret () s' ∧ R s' a'
  halts : ∀ {s a i}, R s a → ok i → step a i = none → ∃ s', (x i).run s = .halt s'

theorem simulates_of_cases (h : ∀ s a i, R s a → ok i →
    (∃ a' s', step a i = some a' ∧ (x i).run s = .ret () s' ∧ R s' a') ∨
      (step a i = none ∧ ∃ s', (x i).run s = .halt s')) : Simulates R ok step x where
  returns := fun {s a i a'} hR hi hstep => by
    rcases h s a i hR hi with ⟨b, s', hb, hrun, hR'⟩ | ⟨hnone, -⟩
    · rw [hb] at hstep
      cases hstep
      exact ⟨s', hrun, hR'⟩
    · rw [hnone] at hstep
      cases hstep
  halts := fun {s a i} hR hi hstep => by
    rcases h s a i hR hi with ⟨b, s', hb, -, -⟩ | ⟨-, hhalt⟩
    · rw [hb] at hstep
      cases hstep
    · exact hhalt

/-- **a run of the machine is a run of the code** -/
theorem Simulates.returns_run (h : Simulates R ok step x) (hR : R s a) (hok : ∀ i ∈ is, ok i)
    (hr : runFrom step a is = some a') : ∃ s', (each x is).run s = .ret () s' ∧ R s' a' := by
  induction is generalizing s a with
  | nil =>
    cases hr
    exact ⟨s, rfl, hR⟩
  | cons i is ih =>
    obtain ⟨hi, his⟩ := List.forall_mem_cons.mp hok
    obtain ⟨b, hb, hr⟩ := Option.bind_eq_some_iff.mp hr
    obtain ⟨s₁, hrun₁, hR₁⟩ := h.returns hR hi hb
    obtain ⟨s', hrun', hR'⟩ := ih hR₁ his hr
    exact ⟨s', (bind_of_ret hrun₁ _).trans hrun', hR'⟩

/-- **a machine that stops on the way stops the code** -/
theorem Simulates.halts_run (h : Simulates R ok step x) (hR : R s a) (hok : ∀ i ∈ is, ok i)
    (hr : runFrom step a is = none) : ∃ s', (each x is).run s = .halt s' := by
  induction is generalizing s a with
  | nil => cases hr
  | cons i is ih =>
    obtain ⟨hi, his⟩ := List.forall_mem_cons.mp hok
    cases hb : step a i with
    | none =>
      obtain ⟨s', hrun⟩ := h.halts hR hi hb
      exact ⟨s', bind_of_halt hrun _⟩
    | some b =>
      rw [runFrom_cons, hb] at hr
      obtain ⟨s₁, hrun₁, hR₁⟩ := h.returns hR hi hb
      obtain ⟨s', hrun'⟩ := ih hR₁ his hr
      exact ⟨s', (bind_of_ret hrun₁ _).trans hrun'⟩

/-- a run that returns is one of the machine -/
theorem Simulates.returns_inv (h : Simulates R ok step x) (hR : R s a) (hok : ∀ i ∈ is, ok i)
    (hrun : (each x is).run s = .ret () t) : ∃ a', runFrom step a is = some a' ∧ R t a' := by
  cases hr : runFrom step a is with
  | none =>
    obtain ⟨s', hs'⟩ := h.halts_run hR hok hr
    cases hrun.symm.trans hs'
  | some a' =>
    obtain ⟨s', hs', hR'⟩ := h.returns_run hR hok hr
    cases hrun.symm.trans hs'
    exact ⟨a', rfl, hR'⟩

/-- **the code halts just where the machine stops** -/
theorem Simulates.halts_iff (h : Simulates R ok step x) (hR : R s a) (hok : ∀ i ∈ is, ok i) :
    (∃ s', (each x is).run s = .halt s') ↔ runFrom step a is = none := by
  constructor
  · rintro ⟨s', hrun⟩
    by_contra hne
    obtain ⟨a', hr⟩ := Option.ne_none_iff_exists'.mp hne
    obtain ⟨t, ht, -⟩ := h.returns_run hR hok hr
    cases hrun.symm.trans ht
  · exact h.halts_run hR hok

end

section
variable {σ α ι ω : Type} {R : σ → α → Prop} {ok : ι → Prop} {step : α → ι → Option α}
  {x : ι → Code σ Unit} {s : σ} {a : α} {is : List ι}

/-- what the machine puts out on the way, at the input it stops at included -/
def outputs (step : α → ι → Option α) (out : α → ι → List ω) : α → List ι → List ω
  | _, [] => []
  | a, i :: is => out a i ++ (step a i).elim [] fun a' => outputs step out a' is

/-- **what the code writes for every input, it writes for a run**; `P` is what the writing needs -/
theorem Simulates.writes_run {out : α → ι → List ω} {f : σ → List ω} {P : σ → Prop}
    (h : Simulates R ok step x)
    (hout : ∀ {s a i}, R s a → P s → ok i → f ((x i).run s).state = f s ++ out a i)
    (hP : ∀ {s i s'}, P s → (x i).run s = .ret () s' → P s') (hR : R s a) (hs : P s)
    (hok : ∀ i ∈ is, ok i) : f ((each x is).run s).state = f s ++ outputs step out a is := by
  induction is generalizing s a with
  | nil => exact (List.append_nil _).symm
  | cons i is ih =>
    obtain ⟨hi, his⟩ := List.forall_mem_cons.mp hok
    have hwrites := hout hR hs hi
    cases hb : step a i with
    | none =>
      obtain ⟨s', hrun⟩ := h.halts hR hi hb
      rw [hrun] at hwrites
      rw [each_cons, bind_of_halt hrun, outputs, hb]
      exact hwrites.trans (congrArg _ (List.append_nil _).symm)
    | some b =>
      obtain ⟨s', hrun, hR'⟩ := h.returns hR hi hb
      rw [hrun] at hwrites
      have hwrites' : f s' = f s ++ out a i := hwrites
      rw [each_cons, bind_of_ret hrun, outputs, hb, ih hR' (hP hs hrun) his, hwrites',
        List.append_assoc]
      rfl

end

section
variable {σ τ α ι ν : Type} {R : σ → α → Prop} {Q : τ → α → Prop} {ok : ι → Prop}
  {step : α → ι → Option α} {x : ι → Code σ Unit} {y : ι → Code τ Unit} {s : σ} {t : τ} {a : α}
  {is : List ι}

/-- **two codes for one machine cannot be told apart**: from states for one state of the machine, either
both runs return, with the same view, or both halt -/
theorem same_view {f : σ → ν} {g : τ → ν} {view : α → ν} (hx : Simulates R ok step x)
    (hy : Simulates Q ok step y) (hf : ∀ {s a}, R s a → f s = view a)
    (hg : ∀ {t a}, Q t a → g t = view a) (hs : R s a) (ht : Q t a) (hok : ∀ i ∈ is, ok i) :
    (∃ s' t', (each x is).run s = .ret () s' ∧ (each y is).run t = .ret () t' ∧ f s' = g t') ∨
      ∃ s' t', (each x is).run s = .halt s' ∧ (each y is).run t = .halt t' := by
  cases hr : runFrom step a is with
  | none =>
    obtain ⟨s', hs'⟩ := hx.halts_run hs hok hr
    obtain ⟨t', ht'⟩ := hy.halts_run ht hok hr
    exact Or.inr ⟨s', t', hs', ht'⟩
  | some a' =>
    obtain ⟨s', hs', hRs⟩ := hx.returns_run hs hok hr
    obtain ⟨t', ht', hQt⟩ := hy.returns_run ht hok hr
    exact Or.inl ⟨s', t', hs', ht', (hf hRs).trans (hg hQt).symm⟩

end

end Simulation
