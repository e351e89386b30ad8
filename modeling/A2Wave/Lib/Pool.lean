import A2Wave.Lib.Transition

/-! Threads over one shared state.  A thread is its own local state; one action of one
thread is atomic, and an action names the nondeterministic choice it makes.  New threads
may start at any moment, so a run is an interleaving of any number of calls. -/

universe u v w

namespace A2Wave

structure Pool (σ : Type u) (τ : Type v) where
  shared : σ
  threads : List τ

namespace Pool

open Transition

inductive Event (τ : Type v) (χ : Type w)
  | spawn (t : τ)
  | act (i : Nat) (c : χ)

/-- What the threads of a pool may do: which threads may start in a state, and the action
of a thread under a choice, if it has one. -/
structure Program (σ : Type u) (τ : Type v) (χ : Type w) where
  start : σ → List τ → τ → Bool
  act : σ → τ → χ → Option (σ × τ)

variable {σ : Type u} {τ : Type v} {χ : Type w}

def step (P : Program σ τ χ) (p : Pool σ τ) : Event τ χ → Option (Pool σ τ)
  | .spawn t => if P.start p.shared p.threads t then some ⟨p.shared, p.threads ++ [t]⟩ else none
  | .act i c => p.threads[i]?.bind fun t =>
      (P.act p.shared t c).map fun r => ⟨r.1, p.threads.set i r.2⟩

variable {P : Program σ τ χ} {p q : Pool σ τ}

theorem step_cases {e : Event τ χ} (h : step P p e = some q) :
    (∃ t, e = .spawn t ∧ P.start p.shared p.threads t = true ∧ q = ⟨p.shared, p.threads ++ [t]⟩) ∨
    (∃ i c t s' t', e = .act i c ∧ p.threads[i]? = some t ∧
      P.act p.shared t c = some (s', t') ∧ q = ⟨s', p.threads.set i t'⟩) := by
  cases e with
  | spawn t =>
    simp only [step] at h
    split at h
    · rename_i hs
      exact .inl ⟨t, rfl, hs, (Option.some.inj h).symm⟩
    · cases h
  | act i c =>
    obtain ⟨t, ht, h'⟩ := Option.bind_eq_some_iff.mp h
    obtain ⟨⟨s', t'⟩, hr, hq⟩ := Option.map_eq_some_iff.mp h'
    exact .inr ⟨i, c, t, s', t', rfl, ht, hr, hq.symm⟩

theorem getElem?_set_cases {l : List τ} {i j : Nat} {t' u : τ} (h : (l.set i t')[j]? = some u) :
    (j = i ∧ u = t') ∨ (j ≠ i ∧ l[j]? = some u) := by
  rw [List.getElem?_set] at h
  split at h
  · rename_i heq
    split at h
    · exact .inl ⟨heq.symm, (Option.some.inj h).symm⟩
    · cases h
  · rename_i hne
    exact .inr ⟨Ne.symm hne, h⟩

theorem getElem?_append_of {l : List τ} {i : Nat} {x y : τ} (h : l[i]? = some x) : (l ++ [y])[i]? = some x :=
  (List.getElem?_append_left (List.getElem?_eq_some_iff.mp h).1).trans h

theorem getElem?_append_cases {l : List τ} {i : Nat} {x y : τ} (h : (l ++ [y])[i]? = some x) :
    l[i]? = some x ∨ i = l.length ∧ x = y := by
  by_cases hi : i < l.length
  · rw [List.getElem?_append_left hi] at h
    exact .inl h
  · have hlt := (List.getElem?_eq_some_iff.mp h).1
    rw [List.length_append, List.length_singleton] at hlt
    have heq : i = l.length := by omega
    subst heq
    simp only [List.getElem?_concat_length] at h
    exact .inr ⟨rfl, (Option.some.inj h).symm⟩

def Holds (G : σ → Prop) (L : σ → τ → Prop) (p : Pool σ τ) : Prop :=
  G p.shared ∧ ∀ t ∈ p.threads, L p.shared t

theorem Holds.stepAt {G : σ → Prop} {L : σ → τ → Prop} {e : Event τ χ}
    (hstart : ∀ t, e = .spawn t → P.start p.shared p.threads t = true → L p.shared t)
    (hact : ∀ i c t s' t', e = .act i c → p.threads[i]? = some t → G p.shared → L p.shared t →
      P.act p.shared t c = some (s', t') →
      G s' ∧ L s' t' ∧ ∀ j u, j ≠ i → p.threads[j]? = some u → L p.shared u → L s' u)
    (h : Holds G L p) (hs : Pool.step P p e = some q) : Holds G L q := by
  obtain ⟨hG, hL⟩ := h
  obtain ⟨t, he, ht, rfl⟩ | ⟨i, c, t, s', t', he, hi, ha, rfl⟩ := step_cases hs
  · refine ⟨hG, ?_⟩
    intro u hu
    rcases List.mem_append.mp hu with hu | hu
    · exact hL u hu
    · rw [List.mem_singleton.mp hu]
      exact hstart t he ht
  · obtain ⟨hG', ht', hu⟩ := hact i c t s' t' he hi hG (hL t (List.mem_of_getElem? hi)) ha
    refine ⟨hG', ?_⟩
    intro u hmem
    obtain ⟨j, hj⟩ := List.mem_iff_getElem?.mp hmem
    rcases getElem?_set_cases hj with ⟨-, rfl⟩ | ⟨hne, hj⟩
    · exact ht'
    · exact hu j u hne hj (hL u (List.mem_of_getElem? hj))

theorem Holds.step {G : σ → Prop} {L : σ → τ → Prop} {e : Event τ χ}
    (hstart : ∀ t, e = .spawn t → P.start p.shared p.threads t = true → L p.shared t)
    (hact : ∀ i c t s' t', e = .act i c → p.threads[i]? = some t → G p.shared → L p.shared t →
      P.act p.shared t c = some (s', t') →
      G s' ∧ L s' t' ∧ ∀ u ∈ p.threads, L p.shared u → L s' u)
    (h : Holds G L p) (hs : Pool.step P p e = some q) : Holds G L q := by
  refine Holds.stepAt hstart ?_ h hs
  intro i c t s' t' he hi hG hL ha
  obtain ⟨hG', ht', hu⟩ := hact i c t s' t' he hi hG hL ha
  exact ⟨hG', ht', fun j u _ hj => hu u (List.mem_of_getElem? hj)⟩

/-- A flag that is taken only when it is free and freed only by its owner: at most one thread
owns it, whatever the threads do otherwise. -/
structure Exclusive {κ : Type*} (flag : σ → κ → Prop) (owns : τ → κ → Prop) (p : Pool σ τ) : Prop where
  flagged : ∀ t ∈ p.threads, ∀ k, owns t k → flag p.shared k
  apart : ∀ (i j : Nat) (t u : τ), i ≠ j → p.threads[i]? = some t → p.threads[j]? = some u → ∀ k, owns t k → ¬owns u k

section Exclusive

variable {κ : Type*} {flag : σ → κ → Prop} {owns : τ → κ → Prop}

theorem Exclusive.spawn {t : τ} (h : Exclusive flag owns p) (ht : ∀ k, ¬owns t k) :
    Exclusive flag owns ⟨p.shared, p.threads ++ [t]⟩ := by
  have hsplit : ∀ (i : Nat) (u : τ), (p.threads ++ [t])[i]? = some u → p.threads[i]? = some u ∨ u = t := by
    intro i u hu
    rw [List.getElem?_append] at hu
    split at hu
    · exact .inl hu
    · have hmem := List.mem_of_getElem? hu
      exact .inr (List.mem_singleton.mp hmem)
  constructor
  · intro u hu k hk
    rcases List.mem_append.mp hu with hu | hu
    · exact h.flagged u hu k hk
    · rw [List.mem_singleton.mp hu] at hk
      exact absurd hk (ht k)
  · intro i j u v hij hi hj k hk hk'
    rcases hsplit i u hi with hi | rfl
    · rcases hsplit j v hj with hj | rfl
      · exact h.apart i j u v hij hi hj k hk hk'
      · exact ht k hk'
    · exact ht k hk

theorem Exclusive.act {i : Nat} {t t' : τ} {s' : σ} (h : Exclusive flag owns p)
    (hi : p.threads[i]? = some t)
    (htake : ∀ k, owns t' k → owns t k ∨ ¬flag p.shared k)
    (hown : ∀ k, owns t' k → flag s' k)
    (hfree : ∀ (j : Nat) (u : τ) (k : κ), j ≠ i → p.threads[j]? = some u → owns u k → flag s' k) :
    Exclusive flag owns ⟨s', p.threads.set i t'⟩ := by
  -- another owner of a key holds the flag, so the thread did not take it
  have hother : ∀ (j : Nat) (u : τ) (k : κ), j ≠ i → p.threads[j]? = some u → owns u k → flag s' k ∧ ¬owns t' k := by
    intro j u k hj hu hk
    refine ⟨hfree j u k hj hu hk, fun ht' => ?_⟩
    rcases htake k ht' with ht | hno
    · exact h.apart i j t u (Ne.symm hj) hi hu k ht hk
    · exact hno (h.flagged u (List.mem_of_getElem? hu) k hk)
  constructor
  · intro u hu k hk
    obtain ⟨j, hj⟩ := List.mem_iff_getElem?.mp hu
    rcases getElem?_set_cases hj with ⟨-, rfl⟩ | ⟨hne, hj⟩
    · exact hown k hk
    · exact (hother j u k hne hj hk).1
  · intro j l u v hjl hj hl k hk hk'
    rcases getElem?_set_cases hj with ⟨rfl, rfl⟩ | ⟨hne, hu⟩
    · rcases getElem?_set_cases hl with ⟨rfl, -⟩ | ⟨hne, hv⟩
      · exact hjl rfl
      · exact (hother l v k hne hv hk').2 hk
    · rcases getElem?_set_cases hl with ⟨rfl, rfl⟩ | ⟨-, hv⟩
      · exact (hother j u k hne hu hk).2 hk'
      · exact h.apart j l u v hjl hu hv k hk hk'

theorem Exclusive.kept {i j : Nat} {t u : τ} {k : κ} {s' : σ} (h : Exclusive flag owns p)
    (hi : p.threads[i]? = some t) (hfree : flag p.shared k → ¬owns t k → flag s' k) (hj : j ≠ i)
    (hu : p.threads[j]? = some u) (hk : owns u k) : flag s' k := by
  apply hfree (h.flagged u (List.mem_of_getElem? hu) k hk)
  intro ht
  exact h.apart i j t u (Ne.symm hj) hi hu k ht hk

end Exclusive

end Pool

end A2Wave
