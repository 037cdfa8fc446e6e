import Mathlib.Data.List.Induction

/-!
# The last write wins

A run of updates is a left fold.  If each update either sets a view of the state (the update
`hit`s it) or leaves it alone, then after the run the view is what the LAST hit set, or its first
value when nothing hit it.
-/

namespace LastWrite

variable {σ α ν : Type}

/-- the last update of a run that hits -/
def last (hit : α → Bool) (cs : List α) : Option α := cs.reverse.find? hit

theorem last_append_singleton (hit : α → Bool) (cs : List α) (c : α) :
    last hit (cs ++ [c]) = if hit c then some c else last hit cs := by
  unfold last
  rw [List.reverse_append, List.reverse_singleton, List.singleton_append, List.find?_cons]
  cases hit c <;> rfl

theorem exists_last (hit : α → Bool) {cs : List α} {c : α} (hc : c ∈ cs) (h : hit c = true) :
    ∃ c', last hit cs = some c' := by
  have hsome : (cs.reverse.find? hit).isSome :=
    List.find?_isSome.mpr ⟨c, List.mem_reverse.mpr hc, h⟩
  exact Option.isSome_iff_exists.mp hsome

/-- **the last hit decides the view** -/
theorem foldl_view (view : σ → ν) {upd : σ → α → σ} {hit : α → Bool} {val : α → ν} (cs : List α)
    (h : ∀ c ∈ cs, ∀ s, view (upd s c) = if hit c then val c else view s) (s : σ) :
    view (cs.foldl upd s) = ((last hit cs).map val).getD (view s) := by
  induction cs using List.reverseRecOn with
  | nil => rfl
  | append_singleton cs c ih =>
    have ih' := ih fun c' h' => h c' (List.mem_append_left _ h')
    rw [List.foldl_append, List.foldl_cons, List.foldl_nil, h c (by simp), last_append_singleton]
    cases hit c with
    | true => rfl
    | false => exact ih'

end LastWrite
