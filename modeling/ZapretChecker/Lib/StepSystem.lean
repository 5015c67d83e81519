import Mathlib.Data.List.Basic
import Mathlib.Data.List.Induction

/-!
# Labelled step systems

A concurrent program is modelled as a partial step function: the label says which party moves and
what its environment answers, so one label list is one interleaving. A label that is not enabled
gives `none`.

* `System.run` — the state an interleaving ends in
* `System.run_invariant` — what every step preserves holds at the end of every run
* `System.Along` — every step of the run is taken from a state that meets a condition
* `System.history` — what an observer writes down along the run, outside the state
* `System.traced` — the system whose states remember the steps before them
* `sublist_snoc` — labels that occur in a given order, at the next step
-/

namespace StepSystem

/-- A step system: an initial state and a partial step function. -/
structure System (σ ε : Type*) where
  init : σ
  step : σ → ε → Option σ

namespace System

variable {σ ε α : Type*} (S : System σ ε)

/-! ## Runs -/

/-- Take the steps `es` one after the other, from `s`. -/
def runFrom (s : σ) : List ε → Option σ
  | [] => some s
  | e :: es => (S.step s e).bind fun s' => runFrom s' es

/-- The run of `es` from the initial state. -/
def run (es : List ε) : Option σ := S.runFrom S.init es

variable {S}

@[simp] theorem runFrom_nil (s : σ) : S.runFrom s [] = some s := rfl

theorem runFrom_cons (s : σ) (e : ε) (es : List ε) :
    S.runFrom s (e :: es) = (S.step s e).bind fun s' => S.runFrom s' es := rfl

theorem runFrom_append (s : σ) (es fs : List ε) :
    S.runFrom s (es ++ fs) = (S.runFrom s es).bind fun s' => S.runFrom s' fs := by
  induction es generalizing s with
  | nil => simp
  | cons e es ih =>
    rw [List.cons_append, runFrom_cons, runFrom_cons]
    cases S.step s e with
    | none => rfl
    | some s' => exact ih s'

/-- A run with one more step is a run and a step. -/
theorem run_snoc {es : List ε} {e : ε} {s' : σ} :
    S.run (es ++ [e]) = some s' ↔ ∃ s, S.run es = some s ∧ S.step s e = some s' := by
  unfold run
  rw [runFrom_append, Option.bind_eq_some_iff]
  refine exists_congr fun s => and_congr_right fun _ => ?_
  rw [runFrom_cons]
  cases S.step s e with
  | none => simp
  | some s'' => simp

/-- A run goes on after one of its steps. -/
theorem run_append_cons {es : List ε} {e : ε} {s s' : σ} (h : S.run es = some s)
    (he : S.step s e = some s') (fs : List ε) : S.run (es ++ e :: fs) = S.runFrom s' fs := by
  unfold run at h ⊢
  rw [runFrom_append, h, Option.bind_some, runFrom_cons, he, Option.bind_some]

/-- **Induction over runs.** The motive may speak of the steps taken so far. -/
theorem run_induction {P : List ε → σ → Prop} (hinit : P [] S.init)
    (hstep : ∀ es s e s', S.run es = some s → P es s → S.step s e = some s' → P (es ++ [e]) s') :
    ∀ {es : List ε} {s : σ}, S.run es = some s → P es s := by
  intro es
  induction es using List.reverseRecOn with
  | nil =>
    intro s h
    have hs : S.init = s := by simpa [run] using h
    exact hs ▸ hinit
  | append_singleton es e ih =>
    intro s' h
    obtain ⟨s, hs, he⟩ := run_snoc.mp h
    exact hstep es s e s' hs (ih hs) he

/-- **The invariant rule.** -/
theorem run_invariant {I : σ → Prop} (hinit : I S.init)
    (hstep : ∀ s e s', I s → S.step s e = some s' → I s') {es : List ε} {s : σ}
    (h : S.run es = some s) : I s :=
  run_induction (P := fun _ s => I s) hinit (fun _ s e s' _ hi he => hstep s e s' hi he) h

/-! ## Runs whose steps meet a condition -/

variable (S) in
/-- Every step of `es`, taken from `s`, is taken from a state that meets `P`. -/
def AlongFrom (P : σ → ε → Prop) (s : σ) : List ε → Prop
  | [] => True
  | e :: es => P s e ∧ match S.step s e with
    | some s' => AlongFrom P s' es
    | none => True

variable (S) in
/-- Every step of the run `es` is taken from a state that meets `P`. -/
def Along (P : σ → ε → Prop) (es : List ε) : Prop := S.AlongFrom P S.init es

instance decidableAlongFrom (P : σ → ε → Prop) [∀ s e, Decidable (P s e)] :
    ∀ (s : σ) (es : List ε), Decidable (S.AlongFrom P s es)
  | _, [] => isTrue trivial
  | s, e :: es =>
    match h : S.step s e with
    | some s' =>
      haveI := decidableAlongFrom P s' es
      decidable_of_iff (P s e ∧ S.AlongFrom P s' es) (by rw [AlongFrom, h])
    | none => decidable_of_iff (P s e) (by rw [AlongFrom, h]; simp)

instance (P : σ → ε → Prop) [∀ s e, Decidable (P s e)] (es : List ε) : Decidable (S.Along P es) :=
  decidableAlongFrom P S.init es

theorem alongFrom_append {P : σ → ε → Prop} {s s' : σ} {es fs : List ε}
    (h : S.runFrom s es = some s') :
    S.AlongFrom P s (es ++ fs) ↔ S.AlongFrom P s es ∧ S.AlongFrom P s' fs := by
  induction es generalizing s with
  | nil =>
    have hs : s = s' := by simpa using h
    subst hs
    simp [AlongFrom]
  | cons e es ih =>
    rw [runFrom_cons, Option.bind_eq_some_iff] at h
    obtain ⟨s₁, hs₁, h⟩ := h
    simp only [List.cons_append, AlongFrom, hs₁]
    rw [ih h, and_assoc]

theorem along_append_cons {P : σ → ε → Prop} {es fs : List ε} {e : ε} {s s' : σ}
    (h : S.run es = some s) (he : S.step s e = some s') :
    S.Along P (es ++ e :: fs) ↔ S.Along P es ∧ P s e ∧ S.AlongFrom P s' fs := by
  unfold Along
  rw [alongFrom_append h, AlongFrom, he]

theorem along_snoc {P : σ → ε → Prop} {es : List ε} {e : ε} {s : σ} (h : S.run es = some s)
    (ha : S.Along P (es ++ [e])) : S.Along P es ∧ P s e := by
  obtain ⟨h1, h2⟩ := (alongFrom_append h).mp ha
  exact ⟨h1, h2.1⟩

/-- A condition on the labels alone is met along every run of such labels. -/
theorem along_of_forall {P : σ → ε → Prop} {es : List ε} (h : ∀ s, ∀ e ∈ es, P s e) :
    S.Along P es := by
  unfold Along
  generalize S.init = s
  induction es generalizing s with
  | nil => trivial
  | cons e es ih =>
    refine ⟨h s e (List.mem_cons_self ..), ?_⟩
    cases S.step s e with
    | none => trivial
    | some s' => exact ih (fun s e he => h s e (List.mem_cons_of_mem _ he)) s'

/-- Two conditions met along a run are met together. -/
theorem Along.and {P Q : σ → ε → Prop} {es : List ε} (hp : S.Along P es) (hq : S.Along Q es) :
    S.Along (fun s e => P s e ∧ Q s e) es := by
  unfold Along at hp hq ⊢
  generalize S.init = s at hp hq ⊢
  induction es generalizing s with
  | nil => trivial
  | cons e es ih =>
    obtain ⟨hp, hps⟩ := hp
    obtain ⟨hq, hqs⟩ := hq
    refine ⟨⟨hp, hq⟩, ?_⟩
    cases hstep : S.step s e with
    | none => trivial
    | some s' =>
      rw [hstep] at hps hqs
      exact ih s' hps hqs

/-- **The invariant rule for runs whose steps meet a condition.** -/
theorem along_invariant {P : σ → ε → Prop} {I : σ → Prop} (hinit : I S.init)
    (hstep : ∀ s e s', I s → P s e → S.step s e = some s' → I s') {es : List ε} {s : σ}
    (h : S.run es = some s) (ha : S.Along P es) : I s := by
  refine run_induction (P := fun es s => S.Along P es → I s) (fun _ => hinit) ?_ h ha
  intro es s e s' hs ih he ha
  obtain ⟨h1, h2⟩ := along_snoc hs ha
  exact hstep s e s' (ih h1) h2 he

/-- An invariant of a run holds at each of its steps, so that other invariants may use it. -/
theorem Along.and_invariant {P : σ → ε → Prop} {I : σ → Prop} {es : List ε} (hp : S.Along P es)
    (hinit : I S.init) (hstep : ∀ s e s', I s → P s e → S.step s e = some s' → I s') :
    S.Along (fun s e => I s ∧ P s e) es := by
  unfold Along at hp ⊢
  generalize S.init = s at hp hinit ⊢
  induction es generalizing s with
  | nil => trivial
  | cons e es ih =>
    obtain ⟨hp, hps⟩ := hp
    refine ⟨⟨hinit, hp⟩, ?_⟩
    cases he : S.step s e with
    | none => trivial
    | some s' =>
      rw [he] at hps
      exact ih s' hps (hstep s e s' hinit hp he)

/-! ## Histories -/

variable (S) in
/-- What an observer writes down along `es`, taken from `s`. -/
def historyFrom (obs : σ → ε → List α) (s : σ) : List ε → List α
  | [] => []
  | e :: es => obs s e ++ match S.step s e with
    | some s' => historyFrom obs s' es
    | none => []

variable (S) in
/-- What an observer writes down along the run `es`. -/
def history (obs : σ → ε → List α) (es : List ε) : List α := S.historyFrom obs S.init es

@[simp] theorem history_nil (obs : σ → ε → List α) : S.history obs [] = [] := rfl

theorem historyFrom_append {obs : σ → ε → List α} {s s' : σ} {es fs : List ε}
    (h : S.runFrom s es = some s') :
    S.historyFrom obs s (es ++ fs) = S.historyFrom obs s es ++ S.historyFrom obs s' fs := by
  induction es generalizing s with
  | nil =>
    have hs : s = s' := by simpa using h
    subst hs
    simp [historyFrom]
  | cons e es ih =>
    rw [runFrom_cons, Option.bind_eq_some_iff] at h
    obtain ⟨s₁, hs₁, h⟩ := h
    simp only [List.cons_append, historyFrom, hs₁]
    rw [ih h, List.append_assoc]

theorem history_snoc {obs : σ → ε → List α} {es : List ε} {e : ε} {s s' : σ}
    (h : S.run es = some s) (he : S.step s e = some s') :
    S.history obs (es ++ [e]) = S.history obs es ++ obs s e := by
  unfold history
  rw [historyFrom_append h]
  simp [historyFrom, he]

/-- **The invariant rule for a state and its history**, in runs whose steps meet a condition. -/
theorem along_history_invariant {P : σ → ε → Prop} {obs : σ → ε → List α} {I : σ → List α → Prop}
    (hinit : I S.init [])
    (hstep : ∀ s h e s', I s h → P s e → S.step s e = some s' → I s' (h ++ obs s e))
    {es : List ε} {s : σ} (h : S.run es = some s) (ha : S.Along P es) :
    I s (S.history obs es) := by
  refine run_induction (P := fun es s => S.Along P es → I s (S.history obs es)) (fun _ => hinit)
    ?_ h ha
  intro es s e s' hs ih he ha
  obtain ⟨h1, h2⟩ := along_snoc hs ha
  rw [history_snoc hs he]
  exact hstep s _ e s' (ih h1) h2 he

/-- **The invariant rule for a state and its history.** -/
theorem run_history_invariant {obs : σ → ε → List α} {I : σ → List α → Prop}
    (hinit : I S.init [])
    (hstep : ∀ s h e s', I s h → S.step s e = some s' → I s' (h ++ obs s e))
    {es : List ε} {s : σ} (h : S.run es = some s) : I s (S.history obs es) :=
  along_history_invariant (P := fun _ _ => True) hinit (fun s h e s' hi _ he => hstep s h e s' hi he)
    h (along_of_forall fun _ _ _ => trivial)

/-! ## The past of a state -/

variable (S) in
/-- The same system, whose states remember the steps before them. -/
def traced : System (σ × List ε) ε where
  init := (S.init, [])
  step := fun (s, past) e => (S.step s e).map fun s' => (s', past ++ [e])

theorem run_traced {es : List ε} {s : σ} (h : S.run es = some s) :
    S.traced.run es = some (s, es) := by
  refine run_induction (P := fun es s => S.traced.run es = some (s, es)) rfl ?_ h
  intro es s e s' _ ih he
  exact run_snoc.mpr ⟨(s, es), ih, by simp [traced, he]⟩

end System

/-! ## Labels in order -/

/-- Labels that end with `a` occur in this order once `a` comes after those before it. -/
theorem sublist_snoc {ε : Type*} {l es : List ε} {a e : ε} :
    (l ++ [a]).Sublist (es ++ [e]) ↔ (l ++ [a]).Sublist es ∨ a = e ∧ l.Sublist es := by
  have hlong : (a :: l.reverse).Sublist es.reverse ↔ (l ++ [a]).Sublist es := by
    rw [← List.reverse_sublist, List.reverse_cons, List.reverse_reverse, List.reverse_reverse]
  rw [← List.reverse_sublist, List.reverse_append, List.reverse_append]
  refine List.cons_sublist_cons'.trans ?_
  exact or_congr hlong (and_congr_right fun _ => List.reverse_sublist)

end StepSystem
