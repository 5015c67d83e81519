import Mathlib.Data.List.Basic
import Mathlib.Data.List.TakeWhile

/-!
# Runs and separators

A list falls into runs of elements that are kept and separators between them. Putting one separator
for every group of them and trimming both ends gives the runs joined by single separators, whatever
stood between them.

* `runs` — the runs of a list
* `squeeze` — the loop that writes one separator for each group
* `trimMatches_squeeze` — squeezed and trimmed, the runs are joined by `sep`
-/

namespace Runs

variable {α : Type*} {keep : α → Bool}

/-! ## Runs -/

/-- The runs of elements that are kept. -/
def runs (keep : α → Bool) (l : List α) : List (List α) :=
  (l.splitOnP fun a => !keep a).filter fun run => !run.isEmpty

/-- Only elements that are kept. -/
def IsRun (keep : α → Bool) (l : List α) : Prop := ∀ a ∈ l, keep a = true

/-- Only separators. -/
def IsGap (keep : α → Bool) (l : List α) : Prop := ∀ a ∈ l, keep a = false

/-- A list is a run, or a run with a separator and a list behind it. -/
@[elab_as_elim]
theorem runInduction (keep : α → Bool) {motive : List α → Prop} (run : ∀ w, IsRun keep w → motive w)
    (gap : ∀ w a rest, IsRun keep w → keep a = false → motive rest → motive (w ++ a :: rest))
    (l : List α) : motive l := by
  induction hn : l.length using Nat.strongRecOn generalizing l with
  | ind n ih =>
    have hrun : IsRun keep (l.takeWhile keep) := fun a ha => List.mem_takeWhile_imp ha
    have hl := List.takeWhile_append_dropWhile (p := keep) (l := l)
    cases hrest : l.dropWhile keep with
    | nil =>
      rw [hrest, List.append_nil] at hl
      rw [← hl]
      exact run _ hrun
    | cons a rest =>
      have ha : keep a = false := by
        have hhead := List.head_dropWhile_not keep (l := l) (by rw [hrest]; exact List.cons_ne_nil _ _)
        simpa [hrest] using hhead
      rw [hrest] at hl
      rw [← hl]
      refine gap _ a rest hrun ha (ih rest.length ?_ rest rfl)
      rw [← hn, ← hl, List.length_append, List.length_cons]
      omega

@[simp] theorem runs_nil : runs keep [] = [] := rfl

/-- A separator parts the runs. -/
theorem runs_append_cons {a : α} (ha : keep a = false) (l m : List α) :
    runs keep (l ++ a :: m) = runs keep l ++ runs keep m := by
  unfold runs
  rw [List.splitOnP_append_cons l m (by rw [ha]; rfl), List.filter_append]

theorem runs_eq_singleton {l : List α} (h : IsRun keep l) (hl : l ≠ []) : runs keep l = [l] := by
  unfold runs
  rw [List.splitOnP_eq_singleton (fun a ha => by rw [h a ha]; rfl)]
  cases l with
  | nil => exact absurd rfl hl
  | cons a l => rfl

/-- What stands before the first run does not matter. -/
theorem runs_gap_append {gap : List α} (h : IsGap keep gap) (m : List α) :
    runs keep (gap ++ m) = runs keep m := by
  induction gap with
  | nil => rfl
  | cons a gap ih =>
    have hcons := runs_append_cons (h a List.mem_cons_self) [] (gap ++ m)
    rw [runs_nil, List.nil_append, List.nil_append] at hcons
    rw [List.cons_append, hcons, ih fun b hb => h b (List.mem_cons_of_mem a hb)]

/-- Any separators part the runs, if there are some. -/
theorem runs_append_gap_append {gap : List α} (h : IsGap keep gap) (hgap : gap ≠ [])
    (l m : List α) : runs keep (l ++ gap ++ m) = runs keep l ++ runs keep m := by
  cases gap with
  | nil => exact absurd rfl hgap
  | cons a gap =>
    have hrest : IsGap keep gap := fun b hb => h b (List.mem_cons_of_mem a hb)
    rw [List.append_assoc, List.cons_append, runs_append_cons (h a List.mem_cons_self),
      runs_gap_append hrest]

/-- What stands behind the last run does not matter. -/
theorem runs_append_gap {gap : List α} (h : IsGap keep gap) (l : List α) :
    runs keep (l ++ gap) = runs keep l := by
  by_cases hgap : gap = []
  · rw [hgap, List.append_nil]
  · have happend := runs_append_gap_append h hgap l []
    rwa [runs_nil, List.append_nil, List.append_nil] at happend

theorem runs_append_separator {w : List α} {a : α} (hw : IsRun keep w) (ha : keep a = false)
    (rest : List α) :
    runs keep (w ++ a :: rest) = if w = [] then runs keep rest else w :: runs keep rest := by
  rw [runs_append_cons ha]
  split
  · next hnil => rw [hnil, runs_nil, List.nil_append]
  · next hne => rw [runs_eq_singleton hw hne, List.singleton_append]

/-- A run that is found is not empty, and all of it is kept. -/
theorem mem_runs {l run : List α} (h : run ∈ runs keep l) : run ≠ [] ∧ IsRun keep run := by
  induction l using runInduction keep with
  | run w hw =>
    by_cases hne : w = []
    · rw [hne, runs_nil] at h
      cases h
    · rw [runs_eq_singleton hw hne, List.mem_singleton] at h
      rw [h]
      exact ⟨hne, hw⟩
  | gap w a rest hw ha ih =>
    rw [runs_append_separator hw ha] at h
    split at h
    · exact ih h
    · next hne =>
      rcases List.mem_cons.mp h with rfl | h
      · exact ⟨hne, hw⟩
      · exact ih h

/-- A run is made of elements of the list. -/
theorem mem_of_mem_runs {l run : List α} {b : α} (h : run ∈ runs keep l) (hb : b ∈ run) : b ∈ l := by
  induction l using runInduction keep with
  | run w hw =>
    by_cases hne : w = []
    · rw [hne, runs_nil] at h
      cases h
    · rw [runs_eq_singleton hw hne, List.mem_singleton] at h
      rwa [← h]
  | gap w a rest hw ha ih =>
    rw [runs_append_separator hw ha] at h
    rw [List.mem_append, List.mem_cons]
    split at h
    · exact Or.inr (Or.inr (ih h))
    · rcases List.mem_cons.mp h with rfl | h
      · exact Or.inl hb
      · exact Or.inr (Or.inr (ih h))

/-! ## Runs that are joined -/

/-- What `runs` finds: each is not empty and kept as a whole. -/
def AreRuns (keep : α → Bool) (rs : List (List α)) : Prop := ∀ run ∈ rs, run ≠ [] ∧ IsRun keep run

theorem areRuns_runs (keep : α → Bool) (l : List α) : AreRuns keep (runs keep l) :=
  fun _ h => mem_runs h

variable {sep : α}

/-- Joined runs are found again. -/
theorem runs_intercalate (hsep : keep sep = false) {rs : List (List α)} (h : AreRuns keep rs) :
    runs keep ([sep].intercalate rs) = rs := by
  induction rs with
  | nil => rfl
  | cons run rs ih =>
    obtain ⟨hne, hrun⟩ := h run List.mem_cons_self
    have hrest := ih fun run' hmem => h run' (List.mem_cons_of_mem run hmem)
    by_cases hrs : rs = []
    · rw [hrs, List.intercalate_singleton, runs_eq_singleton hrun hne]
    · rw [List.intercalate_cons_of_ne_nil hrs, List.append_assoc, List.singleton_append,
        runs_append_separator hrun hsep, if_neg hne, hrest]

/-- Joined runs do not begin with the separator. -/
theorem head_intercalate_ne (hsep : keep sep = false) {rs : List (List α)} (h : AreRuns keep rs) :
    ([sep].intercalate rs).head? ≠ some sep := by
  cases rs with
  | nil => simp
  | cons run rs =>
    obtain ⟨hne, hrun⟩ := h run List.mem_cons_self
    cases run with
    | nil => exact absurd rfl hne
    | cons a run =>
      have ha : a ≠ sep := by
        rintro rfl
        rw [hrun a List.mem_cons_self] at hsep
        cases hsep
      by_cases hrs : rs = []
      · rw [hrs, List.intercalate_singleton]
        simpa using ha
      · rw [List.intercalate_cons_of_ne_nil hrs]
        simpa using ha

theorem intercalate_eq_nil_iff (hsep : keep sep = false) {rs : List (List α)}
    (h : AreRuns keep rs) : [sep].intercalate rs = [] ↔ rs = [] := by
  constructor
  · intro hnil
    have hruns := runs_intercalate hsep h
    rw [hnil, runs_nil] at hruns
    exact hruns.symm
  · rintro rfl
    rfl

theorem getLast_intercalate_ne (hsep : keep sep = false) {rs : List (List α)}
    (h : AreRuns keep rs) : ([sep].intercalate rs).getLast? ≠ some sep := by
  induction rs with
  | nil => simp
  | cons run rs ih =>
    obtain ⟨hne, hrun⟩ := h run List.mem_cons_self
    by_cases hrs : rs = []
    · rw [hrs, List.intercalate_singleton]
      intro hlast
      rw [hrun sep (List.mem_of_getLast? hlast)] at hsep
      cases hsep
    · have hrest : AreRuns keep rs := fun run' hmem => h run' (List.mem_cons_of_mem run hmem)
      have hnonempty : [sep].intercalate rs ≠ [] := fun hnil =>
        hrs ((intercalate_eq_nil_iff hsep hrest).mp hnil)
      rw [List.intercalate_cons_of_ne_nil hrs, List.getLast?_append_of_ne_nil _ hnonempty]
      exact ih hrest

/-! ## The loop -/

/-- One element of the loop, which remembers whether the last one written is a separator. -/
def squeezeStep (keep : α → Bool) (sep : α) (state : List α × Bool) (a : α) : List α × Bool :=
  if keep a then (state.1 ++ [a], false)
  else if state.2 then state
  else (state.1 ++ [sep], true)

/-- One separator for each group of them. -/
def squeeze (keep : α → Bool) (sep : α) (l : List α) : List α :=
  (l.foldl (squeezeStep keep sep) ([], false)).1

theorem foldl_squeezeStep_run {w : List α} (hw : IsRun keep w) (out : List α) (flag : Bool) :
    w.foldl (squeezeStep keep sep) (out, flag) =
      (out ++ w, if w = [] then flag else false) := by
  induction w generalizing out flag with
  | nil => rw [List.foldl_nil, List.append_nil, if_pos rfl]
  | cons a w ih =>
    have hstep : squeezeStep keep sep (out, flag) a = (out ++ [a], false) :=
      if_pos (hw a List.mem_cons_self)
    rw [List.foldl_cons, hstep, ih fun b hb => hw b (List.mem_cons_of_mem a hb), ite_self,
      if_neg (List.cons_ne_nil a w), List.append_assoc, List.singleton_append]

/-- The runs are written, joined by one separator; at most before them and after them there is
another one. -/
theorem foldl_squeezeStep (keep : α → Bool) (sep : α) (l out : List α) (flag : Bool) :
    ∃ lead trail, (l.foldl (squeezeStep keep sep) (out, flag)).1 =
        out ++ (lead ++ [sep].intercalate (runs keep l) ++ trail) ∧
      (∀ a ∈ lead, a = sep) ∧ (∀ a ∈ trail, a = sep) ∧ (flag = true → lead = []) := by
  induction l using runInduction keep generalizing out flag with
  | run w hw =>
    refine ⟨[], [], ?_, by simp, by simp, fun _ => rfl⟩
    rw [foldl_squeezeStep_run hw, List.nil_append, List.append_nil]
    by_cases hne : w = []
    · rw [hne]
      rfl
    · rw [runs_eq_singleton hw hne, List.intercalate_singleton]
  | gap w a rest hw ha ih =>
    rw [List.foldl_append, List.foldl_cons, foldl_squeezeStep_run hw, runs_append_separator hw ha]
    by_cases hne : w = []
    · -- nothing is written before the separator
      subst hne
      rw [if_pos rfl, if_pos rfl, List.append_nil]
      cases flag with
      | true =>
        have hstep : squeezeStep keep sep (out, true) a = (out, true) := by
          simp [squeezeStep, ha]
        rw [hstep]
        exact ih out true
      | false =>
        have hstep : squeezeStep keep sep (out, false) a = (out ++ [sep], true) := by
          simp [squeezeStep, ha]
        obtain ⟨lead, trail, hfold, -, htrail, hnil⟩ := ih (out ++ [sep]) true
        refine ⟨[sep], trail, ?_, by simp, htrail, fun h => by cases h⟩
        rw [hstep, hfold, hnil rfl, List.nil_append, List.append_assoc, List.append_assoc]
    · have hstep : squeezeStep keep sep (out ++ w, false) a = (out ++ w ++ [sep], true) := by
        simp [squeezeStep, ha]
      obtain ⟨lead, trail, hfold, -, htrail, hnil⟩ := ih (out ++ w ++ [sep]) true
      rw [if_neg hne, if_neg hne, hstep, hfold, hnil rfl, List.nil_append]
      by_cases hrs : runs keep rest = []
      · -- the separator is trailing
        refine ⟨[], sep :: trail, ?_, by simp, ?_, fun _ => rfl⟩
        · rw [hrs, List.intercalate_singleton, List.intercalate_nil]
          simp
        · intro b hb
          rcases List.mem_cons.mp hb with rfl | hb
          · rfl
          · exact htrail b hb
      · refine ⟨[], trail, ?_, by simp, htrail, fun _ => rfl⟩
        rw [List.intercalate_cons_of_ne_nil hrs]
        simp

/-- `trim_matches` -/
def trimMatches [DecidableEq α] (sep : α) (l : List α) : List α :=
  ((l.dropWhile (· = sep)).reverse.dropWhile (· = sep)).reverse

theorem dropWhile_append_of_head [DecidableEq α] {lead m : List α} (hlead : ∀ a ∈ lead, a = sep)
    (hhead : m.head? ≠ some sep) : (lead ++ m).dropWhile (· = sep) = m := by
  rw [List.dropWhile_append_of_pos fun a ha => decide_eq_true (hlead a ha)]
  cases m with
  | nil => rfl
  | cons a m =>
    refine List.dropWhile_cons_of_neg ?_
    simpa using hhead

theorem trimMatches_append [DecidableEq α] {lead m trail : List α} (hlead : ∀ a ∈ lead, a = sep)
    (htrail : ∀ a ∈ trail, a = sep) (hhead : m.head? ≠ some sep) (hlast : m.getLast? ≠ some sep) :
    trimMatches sep (lead ++ m ++ trail) = m := by
  have hback : ∀ a ∈ trail.reverse, a = sep := fun a ha => htrail a (List.mem_reverse.mp ha)
  have hend : m.reverse.head? ≠ some sep := by rwa [List.head?_reverse]
  unfold trimMatches
  by_cases hm : m = []
  · -- nothing but separators
    subst hm
    have hall : ∀ a ∈ lead ++ [] ++ trail, a = sep := by
      intro a ha
      rw [List.append_nil, List.mem_append] at ha
      exact ha.elim (hlead a) (htrail a)
    have hdrop := dropWhile_append_of_head (m := []) hall (by simp)
    rw [List.append_nil] at hdrop
    rw [hdrop]
    rfl
  · have hfront : (m ++ trail).head? ≠ some sep := by
      rwa [List.head?_append_of_ne_nil _ hm]
    rw [List.append_assoc, dropWhile_append_of_head hlead hfront, List.reverse_append,
      dropWhile_append_of_head hback hend, List.reverse_reverse]

theorem trimMatches_squeeze [DecidableEq α] (hsep : keep sep = false) (l : List α) :
    trimMatches sep (squeeze keep sep l) = [sep].intercalate (runs keep l) := by
  obtain ⟨lead, trail, hfold, hlead, htrail, -⟩ := foldl_squeezeStep keep sep l [] false
  have hruns := areRuns_runs keep l
  rw [squeeze, hfold, List.nil_append]
  exact trimMatches_append hlead htrail (head_intercalate_ne hsep hruns)
    (getLast_intercalate_ne hsep hruns)

end Runs
