import Mathlib.Tactic.Common

/-!
Runs of a machine given by a partial step function. A step that is not enabled
answers `none`, so a run is a list of labels whose steps were all enabled.
The rules below turn a fact about one step into a fact about every run; the
guarded form serves results that hold only of runs whose steps meet a
condition on the state they are taken from.
-/

namespace MacMu
namespace TransitionSystem

universe u v
variable {σ : Type u} {ι : Type v}

/-- The state after the given steps, when all of them are enabled. -/
def exec (step : σ → ι → Option σ) : σ → List ι → Option σ
  | s, [] => some s
  | s, a :: as => (step s a).bind (fun s' => exec step s' as)

def Reachable (step : σ → ι → Option σ) (start s : σ) : Prop :=
  ∃ as, exec step start as = some s

/-- Every step of the run is taken from a state that admits it under `ok`. -/
def Meets (step : σ → ι → Option σ) (ok : σ → ι → Prop) : σ → List ι → Prop
  | _, [] => True
  | s, a :: as => ok s a ∧ ∀ s', step s a = some s' → Meets step ok s' as

@[simp] theorem exec_nil (step : σ → ι → Option σ) (s : σ) : exec step s [] = some s := rfl

theorem exec_cons (step : σ → ι → Option σ) (s : σ) (a : ι) (as : List ι) :
    exec step s (a :: as) = (step s a).bind (fun s' => exec step s' as) := rfl

theorem exec_cons_of_step {step : σ → ι → Option σ} {s s' : σ} {a : ι}
    (h : step s a = some s') (as : List ι) :
    exec step s (a :: as) = exec step s' as := by
  rw [exec_cons, h, Option.bind_some]

theorem exec_append (step : σ → ι → Option σ) (s : σ) (as bs : List ι) :
    exec step s (as ++ bs) = (exec step s as).bind (fun s' => exec step s' bs) := by
  induction as generalizing s with
  | nil => rfl
  | cons a as ih =>
    simp only [List.cons_append, exec_cons, Option.bind_assoc]
    congr 1
    funext s'
    exact ih s'

theorem exec_append_of_exec {step : σ → ι → Option σ} {s s' : σ} {as : List ι}
    (h : exec step s as = some s') (bs : List ι) :
    exec step s (as ++ bs) = exec step s' bs := by
  rw [exec_append, h, Option.bind_some]

theorem Reachable.tail {step : σ → ι → Option σ} {start s s' : σ} {a : ι}
    (h : Reachable step start s) (hs : step s a = some s') :
    Reachable step start s' := by
  obtain ⟨as, has⟩ := h
  refine ⟨as ++ [a], ?_⟩
  rw [exec_append_of_exec has, exec_cons_of_step hs, exec_nil]

theorem exec_guarded_invariant {step : σ → ι → Option σ} {ok : σ → ι → Prop} {I : σ → Prop}
    (keep : ∀ s a s', I s → ok s a → step s a = some s' → I s')
    (as : List ι) {s s' : σ} (hI : I s) (hok : Meets step ok s as)
    (hrun : exec step s as = some s') : I s' := by
  induction as generalizing s with
  | nil =>
    cases hrun
    exact hI
  | cons a as ih =>
    rw [exec_cons] at hrun
    obtain ⟨t, ht, hrest⟩ := Option.bind_eq_some_iff.mp hrun
    exact ih (keep s a t hI hok.1 ht) (hok.2 t ht) hrest

theorem meets_of_forall {step : σ → ι → Option σ} {ok : σ → ι → Prop} {as : List ι}
    (h : ∀ a ∈ as, ∀ s, ok s a) (s : σ) : Meets step ok s as := by
  induction as generalizing s with
  | nil => trivial
  | cons a as ih =>
    have hrest : ∀ b ∈ as, ∀ s, ok s b := fun b hb => h b (List.mem_cons_of_mem a hb)
    exact ⟨h a List.mem_cons_self s, fun s' _ => ih hrest s'⟩

theorem Meets.and {step : σ → ι → Option σ} {ok ok' : σ → ι → Prop} {as : List ι} {s : σ}
    (h : Meets step ok s as) (h' : Meets step ok' s as) :
    Meets step (fun s a => ok s a ∧ ok' s a) s as := by
  induction as generalizing s with
  | nil => trivial
  | cons a as ih => exact ⟨⟨h.1, h'.1⟩, fun s' hs => ih (h.2 s' hs) (h'.2 s' hs)⟩

theorem meets_cons_iff (step : σ → ι → Option σ) (ok : σ → ι → Prop) (s : σ) (a : ι) (as : List ι) :
    Meets step ok s (a :: as) ↔
      ok s a ∧ (step s a).elim True fun s' => Meets step ok s' as := by
  rw [Meets]
  cases step s a with
  | none => simp only [reduceCtorEq, false_implies, implies_true, Option.elim_none]
  | some t => simp only [Option.some.injEq, forall_eq', Option.elim_some]

instance decidableMeets (step : σ → ι → Option σ) (ok : σ → ι → Prop)
    [∀ s a, Decidable (ok s a)] : ∀ s as, Decidable (Meets step ok s as)
  | _, [] => isTrue trivial
  | s, a :: as =>
    have : Decidable ((step s a).elim True fun s' => Meets step ok s' as) :=
      match step s a with
      | none => isTrue trivial
      | some t => decidableMeets step ok t as
    decidable_of_iff _ (meets_cons_iff step ok s a as).symm

theorem exists_of_map_decide {o : Option σ} {p : σ → Prop} [DecidablePred p]
    (h : o.map (fun s => decide (p s)) = some true) : ∃ s, o = some s ∧ p s := by
  obtain ⟨s, hs, hp⟩ := Option.map_eq_some_iff.mp h
  exact ⟨s, hs, of_decide_eq_true hp⟩

/-- The conditions on the steps of a run are what the property of its states
needs, if a step that meets its condition keeps an invariant that gives the
property, and no other step does. -/
theorem meets_iff_forall_take {step : σ → ι → Option σ} {ok : σ → ι → Prop} {I P : σ → Prop}
    (hgives : ∀ s, I s → P s) (keep : ∀ s a s', I s → ok s a → step s a = some s' → I s')
    (need : ∀ s a s', I s → step s a = some s' → P s' → ok s a)
    {as : List ι} {s last : σ} (hI : I s) (hrun : exec step s as = some last) :
    Meets step ok s as ↔ ∀ k t, exec step s (as.take k) = some t → P t := by
  induction as generalizing s with
  | nil =>
    refine ⟨fun _ k t ht => ?_, fun _ => trivial⟩
    rw [List.take_nil, exec_nil] at ht
    exact Option.some.inj ht ▸ hgives s hI
  | cons a as ih =>
    rw [exec_cons] at hrun
    obtain ⟨next, hnext, hrest⟩ := Option.bind_eq_some_iff.mp hrun
    constructor
    · rintro ⟨hok, hmeets⟩ k t ht
      cases k with
      | zero =>
        rw [List.take_zero, exec_nil] at ht
        exact Option.some.inj ht ▸ hgives s hI
      | succ k =>
        rw [List.take_succ_cons, exec_cons_of_step hnext] at ht
        exact (ih (keep s a next hI hok hnext) hrest).mp (hmeets next hnext) k t ht
    · intro h
      have hok : ok s a := by
        refine need s a next hI hnext (h 1 next ?_)
        rw [List.take_succ_cons, exec_cons_of_step hnext, List.take_zero, exec_nil]
      refine ⟨hok, fun s' hs' => ?_⟩
      cases hnext.symm.trans hs'
      refine (ih (keep s a next hI hok hnext) hrest).mpr fun k t ht => h (k + 1) t ?_
      rw [List.take_succ_cons, exec_cons_of_step hnext]
      exact ht

theorem Reachable.invariant {step : σ → ι → Option σ} {I : σ → Prop} {start s : σ}
    (keep : ∀ s a s', I s → step s a = some s' → I s')
    (hI : I start) (h : Reachable step start s) : I s := by
  obtain ⟨as, hrun⟩ := h
  exact exec_guarded_invariant (fun s a s' hs _ => keep s a s' hs) as hI
    (meets_of_forall (fun _ _ _ => trivial) start) hrun

end TransitionSystem
end MacMu
