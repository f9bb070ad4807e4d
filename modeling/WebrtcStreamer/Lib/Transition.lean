import Mathlib.Data.List.Induction

/-!
# `Lib.Transition` — labelled transition systems given by a partial step function

A system is a function `step : S → A → Option S`: `step s a = none` says that the action `a` is not
enabled in `s`. All nondeterminism sits in the choice of the action, so a run is a list of actions and
`exec` replays it.

## Contents
- **Runs.** `exec`, its composition lemmas, and `exec_induction` (induction that peels the *last* action,
  the form in which an invariant speaks about a history).
- **Histories.** `trace`, what the steps of a run show, `forall_mem_trace` and `trace_induction`.
- **Invariants.** `exec_invariant` for every run; `Always` for the runs all of whose steps meet a side
  condition, `always_imp` and `always_congr` from one side condition to another, `always_keeps_iff` for a
  property that the steps keep or lose, `final_iff_always` for one whose loss stops the system,
  `always_exec` for the state such a run ends in; `trace_eq_nil` and `silent_exec` for runs that show nothing.
- **Measures.** `countP_add_le` bounds how often steps of a kind are taken, `length_trace_add_eq` counts
  what is shown, `exists_trace_ne_nil` leads to a step that shows something.
-/

namespace Transition

variable {S A : Type} (step : S → A → Option S)

/-- Replay a list of actions; `none` as soon as one of them is not enabled. -/
def exec : S → List A → Option S
  | s, [] => some s
  | s, a :: as => (step s a).bind (fun s' => exec s' as)

/-- `s` is reachable from `s₀`: some run leads there. -/
def Reachable (s₀ s : S) : Prop := ∃ as, exec step s₀ as = some s

variable {step}

@[simp] theorem exec_nil (s : S) : exec step s [] = some s := rfl

theorem exec_cons (s : S) (a : A) (as : List A) :
    exec step s (a :: as) = (step s a).bind (fun s' => exec step s' as) := rfl

theorem exec_cons_some {s t : S} {a : A} {as : List A} :
    exec step s (a :: as) = some t ↔ ∃ s', step s a = some s' ∧ exec step s' as = some t := by
  rw [exec_cons, Option.bind_eq_some_iff]

theorem exec_append (s : S) (as bs : List A) :
    exec step s (as ++ bs) = (exec step s as).bind (fun s' => exec step s' bs) := by
  induction as generalizing s with
  | nil => rfl
  | cons a as ih =>
      rw [List.cons_append, exec_cons, exec_cons, Option.bind_assoc]
      congr 1; funext s'; exact ih s'

theorem exec_append_some {s t : S} {as bs : List A} :
    exec step s (as ++ bs) = some t ↔ ∃ s', exec step s as = some s' ∧ exec step s' bs = some t := by
  rw [exec_append, Option.bind_eq_some_iff]

theorem exec_snoc_some {s t : S} {as : List A} {a : A} :
    exec step s (as ++ [a]) = some t ↔ ∃ s', exec step s as = some s' ∧ step s' a = some t := by
  rw [exec_append_some]
  constructor
  · rintro ⟨s', h₁, h₂⟩
    obtain ⟨s'', hst, hnil⟩ := exec_cons_some.mp h₂
    rw [exec_nil] at hnil
    exact ⟨s', h₁, Option.some.inj hnil ▸ hst⟩
  · rintro ⟨s', h₁, h₂⟩
    exact ⟨s', h₁, exec_cons_some.mpr ⟨t, h₂, rfl⟩⟩

theorem exec_one {s s' : S} {a : A} (h : step s a = some s') : exec step s [a] = some s' :=
  exec_cons_some.mpr ⟨s', h, rfl⟩

theorem exec_two {s s' s'' : S} {a b : A} (h : step s a = some s') (h' : step s' b = some s'') :
    exec step s [a, b] = some s'' :=
  exec_cons_some.mpr ⟨s', h, exec_one h'⟩

/-- **Induction on a run from its end.** The motive sees the history as well as the state reached. -/
theorem exec_induction {s₀ : S} {motive : List A → S → Prop} (init : motive [] s₀)
    (next : ∀ as s a s', exec step s₀ as = some s → motive as s → step s a = some s' →
      motive (as ++ [a]) s') :
    ∀ as s, exec step s₀ as = some s → motive as s := by
  intro as
  induction as using List.reverseRecOn with
  | nil =>
      intro s h
      rw [exec_nil] at h
      exact Option.some.inj h ▸ init
  | append_singleton as a ih =>
      intro s h
      obtain ⟨s', h', hst⟩ := exec_snoc_some.mp h
      exact next as s' a s h' (ih s' h') hst

/-! ## Histories -/

variable (step) in
/-- What the steps of a run show, in order: `f s a` is what the step `a` taken in `s` shows. -/
def trace {B : Type} (f : S → A → List B) : S → List A → List B
  | _, [] => []
  | s, a :: as =>
      f s a ++
        match step s a with
        | some s' => trace f s' as
        | none => []

theorem trace_cons {B : Type} {f : S → A → List B} {s s' : S} {a : A} {as : List A}
    (h : step s a = some s') : trace step f s (a :: as) = f s a ++ trace step f s' as := by
  rw [trace, h]

theorem trace_singleton {B : Type} (f : S → A → List B) (s : S) (a : A) : trace step f s [a] = f s a := by
  unfold trace
  cases step s a <;> simp [trace]

theorem trace_snoc {B : Type} {f : S → A → List B} {s s' : S} {as : List A}
    (h : exec step s as = some s') (a : A) : trace step f s (as ++ [a]) = trace step f s as ++ f s' a := by
  induction as generalizing s with
  | nil =>
      obtain rfl := Option.some.inj h
      exact trace_singleton f s a
  | cons b as ih =>
      obtain ⟨s₁, hst, hrest⟩ := exec_cons_some.mp h
      rw [List.cons_append, trace_cons hst, trace_cons hst, ih hrest, List.append_assoc]

theorem trace_append {B : Type} {f : S → A → List B} {s s' : S} {as : List A}
    (h : exec step s as = some s') (bs : List A) :
    trace step f s (as ++ bs) = trace step f s as ++ trace step f s' bs := by
  induction as generalizing s with
  | nil =>
      obtain rfl := Option.some.inj h
      rfl
  | cons a as ih =>
      obtain ⟨s₁, hst, hrest⟩ := exec_cons_some.mp h
      rw [List.cons_append, trace_cons hst, trace_cons hst, ih hrest, List.append_assoc]

/-- **Invariant rule for histories.** Under an invariant, what every step shows has the property. -/
theorem forall_mem_trace {B : Type} {f : S → A → List B} {I : S → Prop} {P : B → Prop}
    (next : ∀ s a s', I s → step s a = some s' → I s')
    (shows : ∀ s a s', I s → step s a = some s' → ∀ b ∈ f s a, P b) :
    ∀ as s t, I s → exec step s as = some t → ∀ b ∈ trace step f s as, P b := by
  intro as
  induction as with
  | nil => intro s t _ _ b hb; exact absurd hb (by simp [trace])
  | cons a as ih =>
      intro s t hi h b hb
      obtain ⟨s', hst, hrest⟩ := exec_cons_some.mp h
      rw [trace_cons hst] at hb
      rcases List.mem_append.mp hb with hb | hb
      · exact shows s a s' hi hst b hb
      · exact ih s' t (next s a s' hi hst) hrest b hb

/-- **Induction on a history.** A property of what is shown that holds when it is shown and stays. -/
theorem trace_induction {B : Type} {f : S → A → List B} {s₀ : S} {P : List A → B → Prop}
    (shows : ∀ as s a s', exec step s₀ as = some s → step s a = some s' → ∀ b ∈ f s a, P (as ++ [a]) b)
    (stays : ∀ as s a b, exec step s₀ as = some s → P as b → P (as ++ [a]) b) :
    ∀ as s, exec step s₀ as = some s → ∀ b ∈ trace step f s₀ as, P as b := by
  apply exec_induction
  · intro b hb
    exact absurd hb (by simp [trace])
  · intro as s a s' has ih hst b hb
    rw [trace_snoc has] at hb
    rcases List.mem_append.mp hb with hb | hb
    · exact stays as s a b has (ih b hb)
    · exact shows as s a s' has hst b hb

/-! ## Invariants -/

/-- **Invariant rule.** What holds initially and is preserved by every step holds after every run. -/
theorem exec_invariant {s₀ : S} {I : S → Prop} (init : I s₀)
    (next : ∀ s a s', I s → step s a = some s' → I s') :
    ∀ as s, exec step s₀ as = some s → I s :=
  exec_induction (motive := fun _ s => I s) init (fun _ s a s' _ hi hst => next s a s' hi hst)

theorem Reachable.invariant {s₀ s : S} {I : S → Prop} (h : Reachable step s₀ s) (init : I s₀)
    (next : ∀ s a s', I s → step s a = some s' → I s') : I s := by
  obtain ⟨as, has⟩ := h
  exact exec_invariant init next as s has

variable (step) in
/-- Every step of the run `as` from `s` is taken in a state that meets `G`. -/
def Always (G : S → A → Prop) : S → List A → Prop
  | _, [] => True
  | s, a :: as => G s a ∧ ∀ s', step s a = some s' → Always G s' as

variable (step) in
/-- Evaluate a condition along a run. -/
def check (p : S → A → Bool) : S → List A → Bool
  | _, [] => true
  | s, a :: as =>
      p s a &&
        match step s a with
        | some s' => check p s' as
        | none => true

/-- A run that passes a check that implies `G`. -/
theorem always_of_check {G : S → A → Prop} {p : S → A → Bool} (imp : ∀ s a, p s a = true → G s a) :
    ∀ as s, check step p s as = true → Always step G s as := by
  intro as
  induction as with
  | nil => intro s _; trivial
  | cons a as ih =>
      intro s h
      rw [check, Bool.and_eq_true] at h
      refine ⟨imp s a h.1, fun s' hst => ih s' ?_⟩
      rw [hst] at h
      exact h.2

/-- What every step meets, the steps of a run meet. -/
theorem always_of_forall {G : S → A → Prop} (h : ∀ s a, G s a) : ∀ as s, Always step G s as := by
  intro as
  induction as with
  | nil => intro s; trivial
  | cons a as ih => intro s; exact ⟨h s a, fun s' _ => ih s'⟩

/-- **From a condition on the steps to a property of the steps.** An invariant that the steps meeting `G`
    preserve, and under which they have `G'`. -/
theorem always_imp {G G' : S → A → Prop} {I : S → Prop}
    (next : ∀ s a s', G s a → I s → step s a = some s' → I s')
    (imp : ∀ s a, G s a → I s → G' s a) :
    ∀ as s, I s → Always step G s as → Always step G' s as := by
  intro as
  induction as with
  | nil => intro s _ _; trivial
  | cons a as ih =>
      rintro s hi ⟨hG, hA⟩
      exact ⟨imp s a hG hi, fun s' hst => ih s' (next s a s' hG hi hst) (hA s' hst)⟩

/-- Two step properties that agree wherever the invariant holds agree along every run. -/
theorem always_congr {G G' : S → A → Prop} {I : S → Prop}
    (next : ∀ s a s', I s → step s a = some s' → I s') (congr : ∀ s a, I s → (G s a ↔ G' s a)) :
    ∀ as s, I s → (Always step G s as ↔ Always step G' s as) := by
  intro as s hi
  constructor
  · exact always_imp (fun s a s' _ => next s a s') (fun s a hG hi => (congr s a hi).mp hG) as s hi
  · exact always_imp (fun s a s' _ => next s a s') (fun s a hG hi => (congr s a hi).mpr hG) as s hi

/-- **Step conditions for a property.** A property that holds at first is kept by every step of a run exactly
    if every step meets the condition that is equivalent to keeping it. -/
theorem always_keeps_iff {G : S → A → Prop} {Q I : S → Prop}
    (next : ∀ s a s', I s → step s a = some s' → I s')
    (keeps : ∀ s a s', I s → Q s → step s a = some s' → (Q s' ↔ G s a)) :
    ∀ as s t, I s → Q s → exec step s as = some t →
      (Always step (fun s a => ∀ s', step s a = some s' → Q s') s as ↔ Always step G s as) := by
  intro as
  induction as with
  | nil =>
      intro s t _ _ _
      exact Iff.rfl
  | cons a as ih =>
      intro s t hi hq h
      obtain ⟨s', hst, hrest⟩ := exec_cons_some.mp h
      have hkeeps := keeps s a s' hi hq hst
      have hi' := next s a s' hi hst
      constructor
      · rintro ⟨hone, hmore⟩
        have hq' := hone s' hst
        refine ⟨hkeeps.mp hq', fun s'' hst' => ?_⟩
        obtain rfl := Option.some.inj (hst.symm.trans hst')
        exact (ih s' t hi' hq' hrest).mp (hmore s' hst)
      · rintro ⟨hone, hmore⟩
        have hq' := hkeeps.mpr hone
        constructor
        · intro s'' hst'
          obtain rfl := Option.some.inj (hst.symm.trans hst')
          exact hq'
        · intro s'' hst'
          obtain rfl := Option.some.inj (hst.symm.trans hst')
          exact (ih s' t hi' hq' hrest).mpr (hmore s' hst)

/-- **Fail-stop rule.** No step is taken without `Q`, so `Q` at the end means that no step of the run has
    lost it. -/
theorem final_iff_always {G : S → A → Prop} {Q I : S → Prop}
    (next : ∀ s a s', I s → step s a = some s' → I s')
    (stops : ∀ s a s', step s a = some s' → Q s)
    (keeps : ∀ s a s', I s → step s a = some s' → (Q s' ↔ G s a)) :
    ∀ as s t, I s → Q s → exec step s as = some t → (Q t ↔ Always step G s as) := by
  intro as s t hi hq h
  have hkept := always_keeps_iff next (fun s a s' hi _ hst => keeps s a s' hi hst) as s t hi hq h
  rw [← hkept]
  clear hkept hi
  induction as generalizing s with
  | nil =>
      obtain rfl := Option.some.inj h
      exact ⟨fun _ => trivial, fun _ => hq⟩
  | cons a as ih =>
      obtain ⟨s', hst, hrest⟩ := exec_cons_some.mp h
      have hnext : ∀ {s''}, step s a = some s'' → s'' = s' := fun hst' => Option.some.inj (hst'.symm.trans hst)
      constructor
      · intro ht
        have hq' : Q s' := by
          cases as with
          | nil =>
              obtain rfl := Option.some.inj hrest
              exact ht
          | cons b bs =>
              obtain ⟨s'', hst', -⟩ := exec_cons_some.mp hrest
              exact stops s' b s'' hst'
        refine ⟨fun s'' hst' => hnext hst' ▸ hq', fun s'' hst' => ?_⟩
        rw [hnext hst']
        exact (ih s' hq' hrest).mp ht
      · rintro ⟨hone, hmore⟩
        exact (ih s' (hone s' hst) hrest).mpr (hmore s' hst)

/-- An invariant that the steps meeting `G` keep holds at the end of a run of such steps. -/
theorem always_exec {G : S → A → Prop} {I : S → Prop}
    (next : ∀ s a s', G s a → I s → step s a = some s' → I s') :
    ∀ as s t, I s → Always step G s as → exec step s as = some t → I t := by
  intro as
  induction as with
  | nil =>
      intro s t hi _ h
      obtain rfl := Option.some.inj h
      exact hi
  | cons a as ih =>
      rintro s t hi ⟨hG, hA⟩ h
      obtain ⟨s', hst, hrest⟩ := exec_cons_some.mp h
      exact ih s' t (next s a s' hG hi hst) (hA s' hst) hrest

/-- **Silence rule.** A run whose steps show nothing, under an invariant that the steps meeting `G` keep. -/
theorem trace_eq_nil {B : Type} {f : S → A → List B} {G : S → A → Prop} {I : S → Prop}
    (next : ∀ s a s', G s a → I s → step s a = some s' → I s')
    (silent : ∀ s a s', G s a → I s → step s a = some s' → f s a = []) :
    ∀ as s t, I s → Always step G s as → exec step s as = some t → trace step f s as = [] := by
  intro as
  induction as with
  | nil => intro s t _ _ _; rfl
  | cons a as ih =>
      rintro s t hi ⟨hG, hA⟩ h
      obtain ⟨s', hst, hrest⟩ := exec_cons_some.mp h
      rw [trace_cons hst, silent s a s' hG hi hst, ih s' t (next s a s' hG hi hst) (hA s' hst) hrest]
      rfl

/-- What the steps that show nothing keep holds at the end of a run that shows nothing. -/
theorem silent_exec {B : Type} {f : S → A → List B} {I : S → Prop}
    (next : ∀ s a s', I s → step s a = some s' → f s a = [] → I s') :
    ∀ as s t, I s → exec step s as = some t → trace step f s as = [] → I t := by
  intro as
  induction as with
  | nil =>
      intro s t hi h _
      obtain rfl := Option.some.inj h
      exact hi
  | cons a as ih =>
      intro s t hi h hsilent
      obtain ⟨s', hst, hrest⟩ := exec_cons_some.mp h
      rw [trace_cons hst, List.append_eq_nil_iff] at hsilent
      exact ih s' t (next s a s' hi hst hsilent.1) hrest hsilent.2

/-! ## Measures -/

/-- **Measure rule.** The steps that are counted use up a measure that no step raises. -/
theorem countP_add_le {p : A → Bool} {μ : S → Nat} {I : S → Prop}
    (next : ∀ s a s', I s → step s a = some s' → I s')
    (spend : ∀ s a s', I s → step s a = some s' → (if p a then 1 else 0) + μ s' ≤ μ s) :
    ∀ as s t, I s → exec step s as = some t → as.countP p + μ t ≤ μ s := by
  intro as
  induction as with
  | nil =>
      intro s t _ h
      obtain rfl := Option.some.inj h
      exact Nat.le_of_eq (Nat.zero_add (μ s))
  | cons a as ih =>
      intro s t hi h
      obtain ⟨s', hst, hrest⟩ := exec_cons_some.mp h
      have hone := spend s a s' hi hst
      have hmore := ih s' t (next s a s' hi hst) hrest
      rw [List.countP_cons]
      omega

/-- **Accounting rule.** What the steps show is exactly what they take from a measure. -/
theorem length_trace_add_eq {B : Type} {f : S → A → List B} {μ : S → Nat} {I : S → Prop}
    (next : ∀ s a s', I s → step s a = some s' → I s')
    (spend : ∀ s a s', I s → step s a = some s' → (f s a).length + μ s' = μ s) :
    ∀ as s t, I s → exec step s as = some t → (trace step f s as).length + μ t = μ s := by
  intro as
  induction as with
  | nil =>
      intro s t _ h
      obtain rfl := Option.some.inj h
      exact Nat.zero_add (μ s)
  | cons a as ih =>
      intro s t hi h
      obtain ⟨s', hst, hrest⟩ := exec_cons_some.mp h
      have hone := spend s a s' hi hst
      have hmore := ih s' t (next s a s' hi hst) hrest
      rw [trace_cons hst, List.length_append]
      omega

/-- **Progress rule.** While nothing is shown some step goes on and lowers a measure, so something is shown
    in the end. -/
theorem exists_trace_ne_nil {B : Type} {f : S → A → List B} {I : S → Prop} (μ : S → Nat)
    (next : ∀ s a s', I s → step s a = some s' → f s a = [] → I s')
    (progress : ∀ s, I s → ∃ a s', step s a = some s' ∧ μ s' < μ s) :
    ∀ s, I s → ∃ as t, exec step s as = some t ∧ trace step f s as ≠ [] := by
  intro s
  induction hn : μ s using Nat.strongRecOn generalizing s with
  | ind n ih =>
      intro hi
      obtain ⟨a, s', hst, hlt⟩ := progress s hi
      by_cases hshown : f s a = []
      · obtain ⟨as, t, hrun, hshow⟩ := ih (μ s') (hn ▸ hlt) s' rfl (next s a s' hi hst hshown)
        refine ⟨a :: as, t, exec_cons_some.mpr ⟨s', hst, hrun⟩, ?_⟩
        rw [trace_cons hst, hshown]
        exact hshow
      · refine ⟨[a], s', exec_cons_some.mpr ⟨s', hst, rfl⟩, ?_⟩
        rw [trace_singleton]
        exact hshown

end Transition
