import Mathlib.Data.List.Forall2

/-!
# Code that may fail or panic

* `Checked ε α` — a computation that ends with a value, with an error of `ε`, or with a panic
* `Build` — an addition that overflows panics in a debug build and wraps in a release build
* `returns_*` — when a computation ends with a value, one lemma for each way to build it
* `bind_eq_ok_iff`, `foldlM_eq_ok_iff` — when a sequence and a loop of results end with a value
-/

/-! ## Overflow -/

inductive Build
  | debug
  | release
  deriving DecidableEq, Repr

/-- `a + b` in an unsigned type of `size` values. `none` is a panic. -/
def Build.add (build : Build) (size a b : Nat) : Option Nat :=
  if a + b < size then some (a + b)
  else
    match build with
    | .debug => none
    | .release => some ((a + b) % size)

/-- `saturating_add` in an unsigned type of `size` values -/
def saturatingAdd (size a b : Nat) : Nat := min (a + b) (size - 1)

theorem Build.add_of_lt (build : Build) {size a b : Nat} (h : a + b < size) :
    build.add size a b = some (a + b) := if_pos h

/-- Whatever the build, the sum that is returned is the true one modulo the size. -/
theorem Build.add_eq_mod {build : Build} {size a b c : Nat} (h : build.add size a b = some c) :
    c = (a + b) % size := by
  unfold Build.add at h
  split at h
  next hlt =>
    rw [Option.some.injEq] at h
    rw [Nat.mod_eq_of_lt hlt, h]
  next =>
    cases build with
    | debug => cases h
    | release => exact (Option.some.inj h).symm

theorem Build.add_debug_eq_some {size a b c : Nat} (h : Build.debug.add size a b = some c) :
    a + b < size := by
  by_contra hge
  rw [Build.add, if_neg hge] at h
  cases h

theorem Build.isSome_add_release (size a b : Nat) : (Build.release.add size a b).isSome := by
  unfold Build.add
  split <;> rfl

/-! ## Computations -/

/-- `none` is a panic. -/
abbrev Checked (ε : Type) := ExceptT ε Option

namespace Checked

variable {ε α β : Type}

/-- The computation ends with the value `a`. -/
def Returns (x : Checked ε α) (a : α) : Prop := x.run = some (.ok a)

instance [DecidableEq ε] [DecidableEq α] (x : Checked ε α) (a : α) : Decidable (x.Returns a) :=
  inferInstanceAs (Decidable (x.run = some (.ok a)))

/-- `if bad { bail!(error) }` -/
def bailIf (bad : Prop) [Decidable bad] (error : ε) : Checked ε Unit :=
  if bad then throw error else pure ()

/-- The `?` on a result. -/
def ofResult (x : Except ε α) : Checked ε α := ExceptT.mk (some x)

/-- An operation that may panic. -/
def ofOption (x : Option α) : Checked ε α := ExceptT.lift x

@[simp] theorem returns_pure {a b : α} : Returns (pure a : Checked ε α) b ↔ a = b := by
  show some (Except.ok a) = some (Except.ok b) ↔ a = b
  rw [Option.some.injEq, Except.ok.injEq]

@[simp] theorem returns_ofResult {x : Except ε α} {a : α} :
    Returns (ofResult x) a ↔ x = .ok a := Option.some.injEq _ _ ▸ Iff.rfl

@[simp] theorem returns_ofOption {x : Option α} {a : α} :
    Returns (ofOption x : Checked ε α) a ↔ x = some a := by
  cases x with
  | none => constructor <;> (intro h; cases h)
  | some b => exact returns_pure.trans (Option.some.injEq _ _ ▸ Iff.rfl)

@[simp] theorem returns_bailIf {bad : Prop} [Decidable bad] {error : ε} {u : Unit} :
    Returns (bailIf bad error) u ↔ ¬ bad := by
  by_cases h : bad
  · rw [bailIf, if_pos h]
    constructor
    · intro hr
      cases hr
    · exact absurd h
  · rw [bailIf, if_neg h]
    exact ⟨fun _ => h, fun _ => rfl⟩

@[simp] theorem returns_bind {x : Checked ε α} {f : α → Checked ε β} {b : β} :
    Returns (x >>= f) b ↔ ∃ a, Returns x a ∧ Returns (f a) b := by
  constructor
  · intro h
    match hx : x.run with
    | some (.ok a) =>
      refine ⟨a, hx, ?_⟩
      rw [Returns, ExceptT.run_bind, hx] at h
      exact h
    | some (.error e) =>
      rw [Returns, ExceptT.run_bind, hx] at h
      cases h
    | none =>
      rw [Returns, ExceptT.run_bind, hx] at h
      cases h
  · rintro ⟨a, ha, hf⟩
    rw [Returns, ExceptT.run_bind, show x.run = some (.ok a) from ha]
    exact hf

/-! ## Results -/

theorem bind_eq_ok_iff {x : Except ε α} {f : α → Except ε β} {b : β} :
    (x >>= f) = .ok b ↔ ∃ a, x = .ok a ∧ f a = .ok b := by
  cases x <;> simp [bind, Except.bind]

/-- A loop over results that are independent of what the loop carries. -/
theorem foldlM_eq_ok_iff {γ : Type} {f : α → Except ε β} {P : α → Prop} {h : α → β}
    (hf : ∀ x y, f x = .ok y ↔ P x ∧ y = h x) (g : γ → β → γ) (xs : List α) (c d : γ) :
    xs.foldlM (fun c x => do return g c (← f x)) c = .ok d ↔
      (∀ x ∈ xs, P x) ∧ d = (xs.map h).foldl g c := by
  induction xs generalizing c with
  | nil =>
    show Except.ok c = .ok d ↔ _
    simp [eq_comm]
  | cons x xs ih =>
    rw [List.foldlM_cons, bind_eq_ok_iff, List.forall_mem_cons, List.map_cons, List.foldl_cons]
    simp only [ih, bind_eq_ok_iff, hf]
    constructor
    · rintro ⟨_, ⟨_, ⟨hx, rfl⟩, hc⟩, hrest, hd⟩
      obtain rfl := Except.ok.inj hc
      exact ⟨⟨hx, hrest⟩, hd⟩
    · rintro ⟨⟨hx, hrest⟩, hd⟩
      exact ⟨_, ⟨_, ⟨hx, rfl⟩, rfl⟩, hrest, hd⟩

end Checked

/-! ## A list of results -/

/-- A loop that collects one result for each element ends when each of its steps does. -/
theorem List.mapM_eq_some_iff_forall₂ {α β : Type} {f : α → Option β} {xs : List α} {ys : List β} :
    xs.mapM f = some ys ↔ List.Forall₂ (fun x y => f x = some y) xs ys := by
  induction xs generalizing ys with
  | nil => simp [eq_comm]
  | cons x xs ih =>
    rw [List.mapM_cons, List.forall₂_cons_left_iff]
    constructor
    · intro h
      obtain ⟨y, hy, h⟩ := Option.bind_eq_some_iff.mp h
      obtain ⟨zs, hzs, h⟩ := Option.bind_eq_some_iff.mp h
      exact ⟨y, zs, hy, ih.mp hzs, (Option.some.inj h).symm⟩
    · rintro ⟨y, zs, hy, hzs, rfl⟩
      rw [hy, ih.mpr hzs]
      rfl

theorem List.exists_mapM_of_forall {α β : Type} {f : α → Option β} {xs : List α}
    (h : ∀ x ∈ xs, ∃ y, f x = some y) : ∃ ys, xs.mapM f = some ys := by
  induction xs with
  | nil => exact ⟨[], rfl⟩
  | cons x xs ih =>
    obtain ⟨y, hy⟩ := h x List.mem_cons_self
    obtain ⟨ys, hys⟩ := ih fun z hz => h z (List.mem_cons_of_mem x hz)
    refine ⟨y :: ys, ?_⟩
    rw [List.mapM_cons, hy, hys]
    rfl

/-- The loop over the numbers below `n` collects the result of step `i` at place `i`. -/
theorem List.mapM_range_eq_some_iff {β : Type} {f : Nat → Option β} {n : Nat} {ys : List β} :
    (List.range n).mapM f = some ys ↔
      ys.length = n ∧ ∀ i (h : i < ys.length), f i = some ys[i] := by
  rw [List.mapM_eq_some_iff_forall₂, List.forall₂_iff_get]
  constructor
  · rintro ⟨hlen, h⟩
    rw [List.length_range] at hlen
    refine ⟨hlen.symm, fun i hi => ?_⟩
    simpa using h i (by rw [List.length_range]; omega) hi
  · rintro ⟨hlen, h⟩
    refine ⟨by rw [List.length_range, hlen], fun i _ hi => ?_⟩
    simpa using h i hi
