import Mathlib.Data.List.Basic

/-! Noninterference of a deterministic machine by unwinding.  An observer sees the outputs of its
own events and a view of the state.  When the events of the others leave the view alone, and
outputs and views after its own events depend on the view only, no sequence of events of the
others changes what the observer sees. -/

universe u v w x

namespace A2Wave.Noninterference

variable {σ : Type u} {ε : Type v} {ρ : Type w} {ν : Type x}

def outputs (step : σ → ε → σ × ρ) (mine : ε → Bool) : σ → List ε → List ρ
  | _, [] => []
  | s, e :: es =>
    if mine e then (step s e).2 :: outputs step mine (step s e).1 es
    else outputs step mine (step s e).1 es

def final (step : σ → ε → σ × ρ) (s : σ) (es : List ε) : σ := es.foldl (fun s e => (step s e).1) s

/-- Each event meets `ok` in the state it is performed in. -/
def Along (step : σ → ε → σ × ρ) (ok : σ → ε → Prop) : σ → List ε → Prop
  | _, [] => True
  | s, e :: es => ok s e ∧ Along step ok (step s e).1 es

instance decidableAlong (step : σ → ε → σ × ρ) (ok : σ → ε → Prop) [∀ s e, Decidable (ok s e)] :
    (s : σ) → (es : List ε) → Decidable (Along step ok s es)
  | _, [] => isTrue trivial
  | s, e :: es =>
    have := decidableAlong step ok (step s e).1 es
    inferInstanceAs (Decidable (ok s e ∧ Along step ok (step s e).1 es))

structure Unwinding (step : σ → ε → σ × ρ) (mine : ε → Bool) (view : σ → ν) (ok : σ → ε → Prop)
    (inv : σ → Prop) : Prop where
  keeps : ∀ s e, inv s → ok s e → inv (step s e).1
  others : ∀ s e, inv s → ok s e → mine e = false → view (step s e).1 = view s
  own : ∀ s t e, inv s → inv t → ok s e → ok t e → mine e = true → view s = view t →
    view (step s e).1 = view (step t e).1 ∧ (step s e).2 = (step t e).2

namespace Unwinding

variable {step : σ → ε → σ × ρ} {mine : ε → Bool} {view : σ → ν} {ok : σ → ε → Prop} {inv : σ → Prop}

theorem silent (h : Unwinding step mine view ok inv) {s : σ} {es : List ε} (hinv : inv s)
    (hok : Along step ok s es) (hes : es.filter mine = []) :
    outputs step mine s es = [] ∧ view (final step s es) = view s := by
  induction es generalizing s with
  | nil => exact ⟨rfl, rfl⟩
  | cons e es ih =>
    have he : mine e = false := by
      simpa using List.filter_eq_nil_iff.mp hes e List.mem_cons_self
    rw [List.filter_cons_of_neg (by simp [he])] at hes
    obtain ⟨hout, hview⟩ := ih (h.keeps s e hinv hok.1) hok.2 hes
    refine ⟨?_, ?_⟩
    · rw [outputs, if_neg (by simp [he])]
      exact hout
    · exact hview.trans (h.others s e hinv hok.1 he)

theorem outputs_eq (h : Unwinding step mine view ok inv) {s t : σ} {es es' : List ε} (hs : inv s)
    (ht : inv t) (hok : Along step ok s es) (hok' : Along step ok t es')
    (hmine : es.filter mine = es'.filter mine) (hview : view s = view t) :
    outputs step mine s es = outputs step mine t es' ∧ view (final step s es) = view (final step t es') := by
  induction es generalizing s t es' with
  | nil =>
    obtain ⟨hout, hfinal⟩ := h.silent ht hok' hmine.symm
    exact ⟨hout.symm, hview.trans hfinal.symm⟩
  | cons e es ih =>
    cases he : mine e with
    | false =>
      rw [List.filter_cons_of_neg (by simp [he])] at hmine
      rw [outputs, if_neg (by simp [he])]
      exact ih (h.keeps s e hs hok.1) ht hok.2 hok' hmine ((h.others s e hs hok.1 he).trans hview)
    | true =>
      -- the other run first does some events of the others, then `e` as well
      induction es' generalizing t with
      | nil =>
        rw [List.filter_cons_of_pos he] at hmine
        cases hmine
      | cons e' es' ih' =>
        cases he' : mine e' with
        | false =>
          rw [List.filter_cons_of_neg (l := es') (by simp [he'])] at hmine
          rw [outputs.eq_2 step mine t, if_neg (by simp [he'])]
          exact ih' (h.keeps t e' ht hok'.1) hok'.2 hmine (hview.trans (h.others t e' ht hok'.1 he').symm)
        | true =>
          rw [List.filter_cons_of_pos he, List.filter_cons_of_pos he'] at hmine
          obtain ⟨rfl, hrest⟩ := List.cons.inj hmine
          obtain ⟨hnext, hout⟩ := h.own s t e hs ht hok.1 hok'.1 he hview
          obtain ⟨houts, hfinal⟩ :=
            ih (h.keeps s e hs hok.1) (h.keeps t e ht hok'.1) hok.2 hok'.2 hrest hnext
          rw [outputs, outputs, if_pos he, if_pos he, hout, houts]
          exact ⟨rfl, hfinal⟩

end Unwinding

end A2Wave.Noninterference
