import VoxelWorld.Checked

/-!
# Proofs.Ensures — what a checked computation gives

`Ensures faulty m P` says that `m` gives a result with the property `P`, or that it stops
and then `faulty` holds. One statement serves both readings:

1. with the result at hand (`Ensures.of_eq_ok`) it is a fact about that result;
2. where `faulty` is excluded (`Ensures.exists_ok`) it says that there is a result.

The rules follow the way in which computations are put together: `bind`, `ite` and
`foldlM`, whose invariant is indexed by the elements that are still to come. `Refines` compares
two computations by the same rules.
-/

namespace VoxelWorld

variable {α β σ : Type} {faulty : Prop}

theorem Checked.ne_error {m : Checked α} (h : ∃ a, m = .ok a) (e : Fault) : m ≠ .error e := by
  rcases h with ⟨a, rfl⟩
  nofun

/-- One more round at the end of a loop. -/
theorem foldlM_snoc_eq_ok {ε : Type} {f : σ → α → Except ε σ} {l : List α} {a : α} {s₀ t : σ} :
    (l ++ [a]).foldlM f s₀ = .ok t ↔ ∃ s, l.foldlM f s₀ = .ok s ∧ f s a = .ok t := by
  rw [List.foldlM_append]
  simp only [List.foldlM_cons, List.foldlM_nil, bind_pure]
  cases l.foldlM f s₀ with
  | error e => exact ⟨nofun, nofun⟩
  | ok s => exact ⟨fun h => ⟨s, rfl, h⟩, fun ⟨_, hs, h⟩ => Except.ok.inj hs ▸ h⟩

/-- One more round at the end of a run. -/
theorem Checked.foldlM_snoc {f : σ → α → Checked σ} {l : List α} {a : α} {s₀ s t : σ}
    (h : l.foldlM f s₀ = .ok s) (hstep : f s a = .ok t) : (l ++ [a]).foldlM f s₀ = .ok t :=
  foldlM_snoc_eq_ok.2 ⟨s, h, hstep⟩

/-- A loop whose every round leaves the state as it is. -/
theorem Checked.foldlM_fixed {f : σ → α → Checked σ} {l : List α} {s : σ}
    (h : ∀ a ∈ l, f s a = .ok s) : l.foldlM f s = .ok s := by
  induction l with
  | nil => rfl
  | cons a rest ih =>
    rw [List.foldlM_cons, h a List.mem_cons_self]
    exact ih fun b hb => h b (List.mem_cons_of_mem a hb)

/-- The computation gives a result with the property, unless it stops and `faulty` holds. -/
def Ensures (faulty : Prop) (m : Checked α) (P : α → Prop) : Prop :=
  match m with
  | .ok a => P a
  | .error _ => faulty

namespace Ensures

/-! ## Reading -/

/-- What is ensured of a computation holds of its result. -/
theorem of_eq_ok {m : Checked α} {P : α → Prop} (h : Ensures faulty m P) {a : α}
    (hm : m = .ok a) : P a := by
  subst hm
  exact h

/-- A computation that may not stop has a result. -/
theorem exists_ok {m : Checked α} {P : α → Prop} (h : Ensures faulty m P) (hf : ¬ faulty) :
    ∃ a, m = .ok a ∧ P a := by
  cases m with
  | ok a => exact ⟨a, rfl, h⟩
  | error e => exact absurd h hf

/-- Both readings, where all that can go wrong is a condition that does not hold. -/
theorem total {m : Checked α} {P : α → Prop} {c : Prop} (h : Ensures (¬ c) m P) :
    (c → ∃ a, m = .ok a) ∧ ∀ a, m = .ok a → P a := by
  constructor
  · intro hc
    rcases h.exists_ok (not_not_intro hc) with ⟨a, heq, -⟩
    exact ⟨a, heq⟩
  · intro a heq
    exact h.of_eq_ok heq

/-! ## Building -/

theorem pure {a : α} {P : α → Prop} (h : P a) : Ensures faulty (Pure.pure a) P := h

theorem ok {a : α} {P : α → Prop} (h : P a) : Ensures faulty (.ok a) P := h

/-- A computation that stops only under `faulty` ensures whatever its result shows. -/
theorem intro {m : Checked α} {P : α → Prop} (hok : ∀ a, m = .ok a → P a)
    (herror : ∀ e, m = .error e → faulty) : Ensures faulty m P := by
  cases m with
  | ok a => exact hok a rfl
  | error e => exact herror e rfl

/-- Where it may stop, nothing is needed to know nothing. -/
theorem anyhow {m : Checked α} (h : faulty) : Ensures faulty m fun _ => True :=
  intro (fun _ _ => trivial) fun _ _ => h

theorem mono {m : Checked α} {P Q : α → Prop} (h : Ensures faulty m P)
    (hPQ : ∀ a, P a → Q a) : Ensures faulty m Q := by
  cases m with
  | ok a => exact hPQ a h
  | error e => exact h

/-- What the first computation ensures is all that the second may rely on. -/
theorem bind {m : Checked α} {f : α → Checked β} {P : α → Prop} {Q : β → Prop}
    (hm : Ensures faulty m P) (hf : ∀ a, P a → Ensures faulty (f a) Q) :
    Ensures faulty (m >>= f) Q := by
  cases m with
  | ok a => exact hf a hm
  | error e => exact hm

/-- The result is at hand as a result. -/
theorem and_eq_ok {m : Checked α} {P : α → Prop} (h : Ensures faulty m P) :
    Ensures faulty m fun a => P a ∧ m = .ok a := by
  cases m with
  | ok a => exact ⟨h, rfl⟩
  | error e => exact h

/-- Binding a computation whose only possible result is known. -/
theorem bind_eq {m : Checked α} {f : α → Checked β} {a : α} {Q : β → Prop}
    (hm : Ensures faulty m (· = a)) (hf : Ensures faulty (f a) Q) :
    Ensures faulty (m >>= f) Q :=
  hm.bind fun _ h => h ▸ hf

/-- Both branches have to ensure the property, each where it is taken. -/
theorem ite {c : Prop} [Decidable c] {m n : Checked α} {P : α → Prop}
    (ht : c → Ensures faulty m P) (he : ¬ c → Ensures faulty n P) :
    Ensures faulty (if c then m else n) P := by
  by_cases hc : c
  · rw [if_pos hc]
    exact ht hc
  · rw [if_neg hc]
    exact he hc

/-- A loop keeps an invariant that may speak of the elements still to come. -/
theorem foldlM {f : σ → α → Checked σ} {I : List α → σ → Prop} {l : List α} {s : σ}
    (hstep : ∀ a rest s, a ∈ l → I (a :: rest) s → Ensures faulty (f s a) (I rest))
    (h : I l s) : Ensures faulty (l.foldlM f s) (I []) := by
  induction l generalizing s with
  | nil => exact h
  | cons a rest ih =>
    rw [List.foldlM_cons]
    apply (hstep a rest s List.mem_cons_self h).bind
    intro t ht
    exact ih (fun b rest' s' hb => hstep b rest' s' (List.mem_cons_of_mem a hb)) ht

/-- The invariant of a loop, where a step may also speak of the run that led to it. -/
theorem foldlM_run {f : σ → α → Checked σ} {I : List α → σ → Prop} {l : List α} {s₀ : σ}
    (hstep : ∀ pre a rest s, l = pre ++ a :: rest → pre.foldlM f s₀ = .ok s → I (a :: rest) s →
      Ensures faulty (f s a) (I rest))
    (h : I l s₀) : Ensures faulty (l.foldlM f s₀) (I []) := by
  -- along the run we also keep which elements led to the state at hand
  refine (Ensures.foldlM (I := fun rest s => (∃ pre, l = pre ++ rest ∧
    pre.foldlM f s₀ = .ok s) ∧ I rest s) ?_ ⟨⟨[], rfl, rfl⟩, h⟩).mono fun s hs => hs.2
  rintro a rest s - ⟨⟨pre, hl, hpre⟩, hI⟩
  apply (hstep pre a rest s hl hpre hI).and_eq_ok.mono
  rintro t ⟨ht, hok⟩
  refine ⟨⟨pre ++ [a], ?_, Checked.foldlM_snoc hpre hok⟩, ht⟩
  rw [hl, List.append_assoc, List.singleton_append]

/-- A loop keeps an invariant of its state. -/
theorem foldlM_inv {f : σ → α → Checked σ} {I : σ → Prop} {l : List α} {s : σ}
    (hstep : ∀ a s, a ∈ l → I s → Ensures faulty (f s a) I) (h : I s) :
    Ensures faulty (l.foldlM f s) I :=
  Ensures.foldlM (I := fun _ => I) (fun a _ s ha hs => hstep a s ha hs) h

/-- A loop over the numbers below `n` keeps an invariant that counts the rounds. -/
theorem foldlM_range {f : σ → Nat → Checked σ} {I : Nat → σ → Prop} {n : Nat} {s : σ}
    (hstep : ∀ k s, k < n → I k s → Ensures faulty (f s k) (I (k + 1))) (h : I 0 s) :
    Ensures faulty ((List.range n).foldlM f s) (I n) := by
  induction n with
  | zero => exact h
  | succ n ih =>
    rw [List.range_succ, List.foldlM_append]
    apply (ih fun k s hk => hstep k s (Nat.lt_succ_of_lt hk)).bind
    intro t ht
    rw [List.foldlM_cons]
    apply (hstep n t (Nat.lt_succ_self n) ht).bind
    intro u hu
    exact Ensures.pure hu

/-- A loop brings about a property for each element, if what one step brings about is kept by
the later ones. All that is kept is kept along a relation between states. -/
theorem foldlM_all {f : σ → α → Checked σ} {G : σ → Prop} {T : σ → σ → Prop}
    {P : α → σ → Prop} {l : List α} {s : σ} (hrefl : ∀ s, T s s)
    (htrans : ∀ s t u, T s t → T t u → T s u) (hkeep : ∀ a s t, T s t → P a s → P a t)
    (hstep : ∀ a s, a ∈ l → G s → Ensures faulty (f s a) fun t => G t ∧ T s t ∧ P a t)
    (h : G s) : Ensures faulty (l.foldlM f s) fun t => G t ∧ T s t ∧ ∀ a ∈ l, P a t := by
  -- an element is either still to come, or has its property already
  refine (Ensures.foldlM (I := fun rest t => G t ∧ T s t ∧ ∀ a ∈ l, a ∈ rest ∨ P a t)
    ?_ ⟨h, hrefl s, fun a ha => .inl ha⟩).mono ?_
  · rintro a rest t ha ⟨hG, hT, hP⟩
    apply (hstep a t ha hG).mono
    intro u hu
    rcases hu with ⟨hG', hT', hPa⟩
    refine ⟨hG', htrans _ _ _ hT hT', fun b hb => ?_⟩
    rcases hP b hb with hmem | hPb
    · rcases List.mem_cons.1 hmem with rfl | hmem
      · exact .inr hPa
      · exact .inl hmem
    · exact .inr (hkeep b t u hT' hPb)
  · intro t ht
    rcases ht with ⟨hG, hT, hP⟩
    exact ⟨hG, hT, fun a ha => (hP a ha).resolve_left List.not_mem_nil⟩

end Ensures

/-! ## Arithmetic -/

/-- A number is checked to be a coordinate; the check leaves it as it is. -/
theorem checkCoord_ensures (n : Int) (h : ¬ FitsCoord n → faulty) :
    Ensures faulty (checkCoord n) (· = n) := by
  unfold checkCoord
  refine Ensures.ite (fun _ => Ensures.ok rfl) fun hn => ?_
  exact h hn

/-! ## Two computations -/

/-- If the first computation gives a result, then so does the second, and it is the same. -/
def Refines (m n : Checked α) : Prop := ∀ a, m = .ok a → n = .ok a

namespace Refines

theorem refl {m : Checked α} : Refines m m := fun _ h => h

theorem of_eq {m n : Checked α} (h : m = n) : Refines m n := by
  intro a ha
  rw [← h, ha]

/-- Computations may be refined step by step. -/
theorem bind {m n : Checked α} {f g : α → Checked β} (h : Refines m n)
    (hfg : ∀ a, Refines (f a) (g a)) : Refines (m >>= f) (n >>= g) := by
  intro b hb
  cases m with
  | error e => cases hb
  | ok a =>
    rw [h a rfl]
    exact hfg a b hb

theorem ite {c : Prop} [Decidable c] {m m' n n' : Checked α} (ht : c → Refines m n)
    (he : ¬ c → Refines m' n') : Refines (if c then m else m') (if c then n else n') := by
  by_cases hc : c
  · rw [if_pos hc, if_pos hc]
    exact ht hc
  · rw [if_neg hc, if_neg hc]
    exact he hc

/-- Loops refine each other if their rounds do. -/
theorem foldlM {f g : σ → α → Checked σ} {l : List α} (h : ∀ a ∈ l, ∀ s, Refines (f s a) (g s a))
    (s : σ) : Refines (l.foldlM f s) (l.foldlM g s) := by
  induction l generalizing s with
  | nil => exact refl
  | cons a rest ih =>
    rw [List.foldlM_cons, List.foldlM_cons]
    apply bind (h a List.mem_cons_self s)
    intro t
    exact ih (fun b hb => h b (List.mem_cons_of_mem a hb)) t

end Refines

/-! ## Results of a chain -/

/-- A chain gives a result just if its parts do. -/
theorem Checked.bind_eq_ok {m : Checked α} {f : α → Checked β} {b : β} :
    (m >>= f) = .ok b ↔ ∃ a, m = .ok a ∧ f a = .ok b := by
  cases m with
  | ok a => exact ⟨fun h => ⟨a, rfl, h⟩, fun ⟨_, ha, h⟩ => by cases ha; exact h⟩
  | error e => exact ⟨nofun, fun ⟨_, ha, _⟩ => by cases ha⟩

/-- A chain gives a result if its first part does and the rest does with that. -/
theorem Checked.bind_isOk_iff {m : Checked α} {f : α → Checked β} :
    (∃ b, (m >>= f) = .ok b) ↔ ∃ a, m = .ok a ∧ ∃ b, f a = .ok b := by
  simp only [bind_eq_ok]
  exact ⟨fun ⟨b, a, ha, hb⟩ => ⟨a, ha, b, hb⟩, fun ⟨a, ha, b, hb⟩ => ⟨b, a, ha, hb⟩⟩

/-- A loop whose rounds give a result or not whatever the state, gives one if all rounds do. -/
theorem Checked.foldlM_isOk_iff {f : σ → α → Checked σ} {P : α → Prop} {l : List α}
    (h : ∀ a ∈ l, ∀ s, (∃ t, f s a = .ok t) ↔ P a) (s : σ) :
    (∃ t, l.foldlM f s = .ok t) ↔ ∀ a ∈ l, P a := by
  induction l generalizing s with
  | nil => exact ⟨fun _ => nofun, fun _ => ⟨s, rfl⟩⟩
  | cons a rest ih =>
    have hrest := ih fun b hb => h b (List.mem_cons_of_mem a hb)
    rw [List.foldlM_cons, bind_isOk_iff, List.forall_mem_cons, ← h a List.mem_cons_self s]
    constructor
    · rintro ⟨t, ht, hrun⟩
      exact ⟨⟨t, ht⟩, (hrest t).1 hrun⟩
    · rintro ⟨⟨t, ht⟩, hall⟩
      exact ⟨t, ht, (hrest t).2 hall⟩

/-- A loop that gives a result gave one in each round. -/
theorem Checked.exists_of_mem_foldlM {f : σ → α → Checked σ} {l : List α} {a : α} {s t : σ}
    (h : l.foldlM f s = .ok t) (ha : a ∈ l) : ∃ s' t', f s' a = .ok t' := by
  induction l generalizing s with
  | nil => cases ha
  | cons b rest ih =>
    rw [List.foldlM_cons] at h
    obtain ⟨s', hs', hrest⟩ := bind_eq_ok.1 h
    rcases List.mem_cons.1 ha with rfl | ha
    · exact ⟨s, s', hs'⟩
    · exact ih hrest ha

theorem Checked.pure_eq_ok {a b : α} : (Pure.pure a : Checked α) = .ok b ↔ a = b := by
  constructor
  · intro h
    exact Except.ok.inj h
  · rintro rfl
    rfl

end VoxelWorld
