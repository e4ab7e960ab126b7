import Mathlib.Data.List.Basic

/-!
Runs of a machine given by an executable step function. An event that is not
enabled has no successor; a run is a list of events that are enabled one after
the other. An invariant of the steps is an invariant of the runs, also when
every step of the run is known to meet a side condition.
-/
namespace Gargantuan
universe u v

section
variable {σ : Type u} {ε : Type v} (step : σ → ε → Option σ)

/-- The state after a list of events, if each was enabled in turn. -/
def run (s : σ) : List ε → Option σ
  | [] => some s
  | e :: rest => (step s e).bind fun t => run t rest

/-- Every step of the run is taken from a state where its event meets the condition. -/
def RunMeets (condition : σ → ε → Prop) : σ → List ε → Prop
  | _, [] => True
  | s, e :: rest => condition s e ∧ ∀ t, step s e = some t → RunMeets condition t rest

instance decidableRunMeets (condition : σ → ε → Prop) [∀ s e, Decidable (condition s e)] :
    ∀ s events, Decidable (RunMeets step condition s events)
  | _, [] => isTrue trivial
  | s, e :: rest =>
    have := fun t => decidableRunMeets condition t rest
    inferInstanceAs (Decidable (condition s e ∧ ∀ t ∈ step s e, RunMeets step condition t rest))

variable {step}

@[simp] theorem run_nil (s : σ) : run step s [] = some s := rfl

theorem run_cons_eq_some {s t : σ} {e : ε} {rest : List ε} :
    run step s (e :: rest) = some t ↔ ∃ m, step s e = some m ∧ run step m rest = some t := by
  rw [run,Option.bind_eq_some_iff]

theorem run_append_eq_some {s t : σ} {first second : List ε} :
    run step s (first ++ second) = some t ↔ ∃ m, run step s first = some m ∧ run step m second = some t := by
  induction first generalizing s with
  | nil => simp
  | cons e rest ih =>
    simp only [List.cons_append,run_cons_eq_some,ih]
    constructor
    · rintro ⟨a,stepped,b,left,right⟩
      exact ⟨b,⟨a,stepped,left⟩,right⟩
    · rintro ⟨b,⟨a,stepped,left⟩,right⟩
      exact ⟨a,stepped,b,left,right⟩

variable {condition : σ → ε → Prop}

theorem RunMeets.split {s m : σ} {first second : List ε}
    (meets : RunMeets step condition s (first ++ second)) (reached : run step s first = some m) :
    RunMeets step condition s first ∧ RunMeets step condition m second := by
  induction first generalizing s with
  | nil =>
    cases reached
    exact ⟨trivial,meets⟩
  | cons e rest ih =>
    obtain ⟨n,stepped,onward⟩ := run_cons_eq_some.mp reached
    obtain ⟨before,after⟩ := ih (meets.2 n stepped) onward
    refine ⟨⟨meets.1,?_⟩,after⟩
    intro t stepped'
    have same : t = n := Option.some.inj (stepped'.symm.trans stepped)
    rwa [same]

variable {invariant : σ → Prop}

theorem run_preserves_where
    (preserved : ∀ s e t, condition s e → invariant s → step s e = some t → invariant t) {s t : σ} {events : List ε}
    (start : invariant s) (meets : RunMeets step condition s events) (reached : run step s events = some t) :
    invariant t := by
  induction events generalizing s with
  | nil => cases reached; exact start
  | cons e rest ih =>
    obtain ⟨m,stepped,onward⟩ := run_cons_eq_some.mp reached
    exact ih (preserved s e m meets.1 start stepped) (meets.2 m stepped) onward

theorem runMeets_true (s : σ) (events : List ε) : RunMeets step (fun _ _ => True) s events := by
  induction events generalizing s with
  | nil => trivial
  | cons e rest ih => exact ⟨trivial,fun t _ => ih t⟩

theorem run_preserves
    (preserved : ∀ s e t, invariant s → step s e = some t → invariant t) {s t : σ} {events : List ε}
    (start : invariant s) (reached : run step s events = some t) : invariant t :=
  run_preserves_where (fun s e t _ => preserved s e t) start (runMeets_true s events) reached

end
end Gargantuan
