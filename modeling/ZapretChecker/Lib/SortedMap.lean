import Mathlib.Data.List.Nodup
import Mathlib.Data.List.Perm.Basic
import Mathlib.Order.Lattice

/-!
# Maps that are iterated in the order of their keys

`SortedMap κ ν` is `BTreeMap<κ, ν>`: the entries in the order of their keys. An insertion under a
key that is there already replaces its value.

* `insert_perm`, `insert_of_mem` — what an insertion does to the entries
* `ofEntries_perm_iff` — insertions keep all entries exactly when no key comes twice
-/

variable {κ ν : Type*} [LinearOrder κ]

structure SortedMap (κ ν : Type*) [LinearOrder κ] where
  entries : List (κ × ν)
  sorted : (entries.map Prod.fst).Pairwise (· < ·)

namespace SortedMap

def empty : SortedMap κ ν := ⟨[], .nil⟩

def keys (m : SortedMap κ ν) : List κ := m.entries.map Prod.fst

theorem nodup_keys (m : SortedMap κ ν) : m.keys.Nodup := m.sorted.imp ne_of_lt

/-! ## Insertion -/

/-- The entries after an insertion. -/
def insertEntry (k : κ) (v : ν) : List (κ × ν) → List (κ × ν)
  | [] => [(k, v)]
  | (k', v') :: entries =>
    if k < k' then (k, v) :: (k', v') :: entries
    else if k = k' then (k, v) :: entries
    else (k', v') :: insertEntry k v entries

theorem mem_keys_insertEntry {k a : κ} {v : ν} {entries : List (κ × ν)} :
    a ∈ (insertEntry k v entries).map Prod.fst ↔ a = k ∨ a ∈ entries.map Prod.fst := by
  induction entries with
  | nil => simp [insertEntry]
  | cons entry entries ih =>
    obtain ⟨k', v'⟩ := entry
    unfold insertEntry
    split
    · simp
    · split
      · next heq => simp [heq]
      · rw [List.map_cons, List.map_cons, List.mem_cons, List.mem_cons, ih]
        exact or_left_comm

theorem sorted_insertEntry (k : κ) (v : ν) {entries : List (κ × ν)}
    (h : (entries.map Prod.fst).Pairwise (· < ·)) :
    ((insertEntry k v entries).map Prod.fst).Pairwise (· < ·) := by
  induction entries with
  | nil => exact List.pairwise_singleton _ _
  | cons entry entries ih =>
    obtain ⟨k', v'⟩ := entry
    obtain ⟨hfirst, hrest⟩ := List.pairwise_cons.mp h
    unfold insertEntry
    split
    · next hlt =>
      refine List.pairwise_cons.mpr ⟨?_, h⟩
      intro a ha
      rcases List.mem_cons.mp ha with rfl | ha
      · exact hlt
      · exact lt_trans hlt (hfirst a ha)
    · next hge =>
      split
      · next heq =>
        subst heq
        exact List.pairwise_cons.mpr ⟨hfirst, hrest⟩
      · next hne =>
        refine List.pairwise_cons.mpr ⟨?_, ih hrest⟩
        intro a ha
        rcases mem_keys_insertEntry.mp ha with rfl | ha
        · exact lt_of_le_of_ne (not_lt.mp hge) (Ne.symm hne)
        · exact hfirst a ha

/-- `BTreeMap::insert` -/
def insert (m : SortedMap κ ν) (k : κ) (v : ν) : SortedMap κ ν :=
  ⟨insertEntry k v m.entries, sorted_insertEntry k v m.sorted⟩

theorem mem_keys_insert {m : SortedMap κ ν} {k a : κ} {v : ν} :
    a ∈ (m.insert k v).keys ↔ a = k ∨ a ∈ m.keys := mem_keys_insertEntry

/-- A new key adds an entry. -/
theorem insert_perm {m : SortedMap κ ν} {k : κ} (h : k ∉ m.keys) (v : ν) :
    (m.insert k v).entries.Perm ((k, v) :: m.entries) := by
  obtain ⟨entries, hsorted⟩ := m
  show (insertEntry k v entries).Perm ((k, v) :: entries)
  change k ∉ entries.map Prod.fst at h
  clear hsorted
  induction entries with
  | nil => exact List.Perm.refl _
  | cons entry entries ih =>
    obtain ⟨k', v'⟩ := entry
    rw [List.map_cons, List.mem_cons, not_or] at h
    unfold insertEntry
    split
    · exact List.Perm.refl _
    · rw [if_neg h.1]
      exact ((ih h.2).cons _).trans (List.Perm.swap _ _ _)

/-- A key that is there already adds none. -/
theorem length_insert_of_mem {m : SortedMap κ ν} {k : κ} (h : k ∈ m.keys) (v : ν) :
    (m.insert k v).entries.length = m.entries.length := by
  have hkeys : (m.insert k v).keys.Perm m.keys := by
    refine (List.perm_ext_iff_of_nodup (nodup_keys _) (nodup_keys _)).mpr fun a => ?_
    rw [mem_keys_insert]
    refine ⟨?_, Or.inr⟩
    rintro (rfl | ha)
    · exact h
    · exact ha
  simpa [keys] using hkeys.length_eq

/-! ## Many insertions -/

def insertAll (m : SortedMap κ ν) (l : List (κ × ν)) : SortedMap κ ν :=
  l.foldl (fun m entry => m.insert entry.1 entry.2) m

def ofEntries (l : List (κ × ν)) : SortedMap κ ν := empty.insertAll l

theorem mem_keys_insertAll {m : SortedMap κ ν} {l : List (κ × ν)} {a : κ} :
    a ∈ (m.insertAll l).keys ↔ a ∈ m.keys ∨ a ∈ l.map Prod.fst := by
  induction l generalizing m with
  | nil => simp [insertAll]
  | cons entry l ih =>
    show a ∈ ((m.insert entry.1 entry.2).insertAll l).keys ↔ _
    rw [ih, mem_keys_insert, List.map_cons, List.mem_cons]
    exact or_assoc.trans or_left_comm

theorem mem_keys_ofEntries {l : List (κ × ν)} {a : κ} :
    a ∈ (ofEntries l).keys ↔ a ∈ l.map Prod.fst := by
  rw [ofEntries, mem_keys_insertAll]
  exact or_iff_right List.not_mem_nil

theorem length_insert_le (m : SortedMap κ ν) (k : κ) (v : ν) :
    (m.insert k v).entries.length ≤ m.entries.length + 1 := by
  by_cases h : k ∈ m.keys
  · rw [length_insert_of_mem h]
    omega
  · exact Nat.le_of_eq (insert_perm h v).length_eq

theorem length_insertAll_le (m : SortedMap κ ν) (l : List (κ × ν)) :
    (m.insertAll l).entries.length ≤ m.entries.length + l.length := by
  induction l generalizing m with
  | nil => exact Nat.le_refl _
  | cons entry l ih =>
    have hfirst := length_insert_le m entry.1 entry.2
    have hrest := ih (m.insert entry.1 entry.2)
    show ((m.insert entry.1 entry.2).insertAll l).entries.length ≤ _
    rw [List.length_cons]
    omega

/-- Nothing is lost exactly when no key comes twice. -/
theorem insertAll_perm_iff (m : SortedMap κ ν) (l : List (κ × ν)) :
    (m.insertAll l).entries.Perm (m.entries ++ l) ↔ (m.keys ++ l.map Prod.fst).Nodup := by
  induction l generalizing m with
  | nil =>
    rw [List.append_nil, List.map_nil, List.append_nil]
    exact iff_of_true (List.Perm.refl _) (nodup_keys m)
  | cons entry l ih =>
    obtain ⟨k, v⟩ := entry
    show ((m.insert k v).insertAll l).entries.Perm _ ↔ _
    by_cases h : k ∈ m.keys
    · -- the entry that was there is gone
      refine iff_of_false ?_ ?_
      · intro hperm
        have hle := length_insertAll_le (m.insert k v) l
        rw [hperm.length_eq, length_insert_of_mem h, List.length_append, List.length_cons] at hle
        omega
      · intro hnodup
        exact (List.nodup_append.mp hnodup).2.2 k h k List.mem_cons_self rfl
    · have hentries : (m.entries ++ (k, v) :: l).Perm ((m.insert k v).entries ++ l) :=
        List.perm_middle.trans ((insert_perm h v).symm.append_right l)
      have hkeys : (m.keys ++ k :: l.map Prod.fst).Perm ((m.insert k v).keys ++ l.map Prod.fst) := by
        simpa [keys] using hentries.map Prod.fst
      rw [List.map_cons, hkeys.nodup_iff, ← ih]
      exact ⟨fun hperm => hperm.trans hentries, fun hperm => hperm.trans hentries.symm⟩

theorem ofEntries_perm_iff (l : List (κ × ν)) :
    (ofEntries l).entries.Perm l ↔ (l.map Prod.fst).Nodup := insertAll_perm_iff empty l

end SortedMap
