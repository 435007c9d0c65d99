import EdgeOperator.StringMap
import Mathlib.Data.List.Sort
import Mathlib.Data.String.Basic

set_option autoImplicit false

/-! # Maps in key order

A map that was built by writes has its keys in strictly ascending order. In such a map an entry is
in the list exactly when it is what the look-up of its key finds (`mem_iff_get?`), so nothing is
hidden behind another entry, and a scan of the whole list (`filterMap`) does not notice a write to
an entry that it passes over. -/

namespace EdgeOperator

namespace StringMap

variable {α β : Type}

/-! ## Order of the keys -/

/-- Whether the keys stand in strictly ascending order. -/
def IsSorted (entries : StringMap α) : Prop :=
  entries.Pairwise fun a b => a.1 < b.1

theorem isSorted_nil : IsSorted ([] : StringMap α) :=
  List.Pairwise.nil

/-- A write brings in no entry but its own. -/
theorem mem_set {entries : StringMap α} {key : String} {value : α} {entry : String × α}
    (h : entry ∈ set entries key value) : entry = (key, value) ∨ entry ∈ entries := by
  induction entries with
  | nil => exact Or.inl (List.mem_singleton.1 h)
  | cons head rest ih =>
    obtain ⟨k, v⟩ := head
    rw [set] at h
    split at h
    · rcases List.mem_cons.1 h with h | h
      · exact Or.inl h
      · exact Or.inr (List.mem_cons_of_mem _ h)
    · split at h
      · exact List.mem_cons.1 h
      · rcases List.mem_cons.1 h with h | h
        · exact Or.inr (h ▸ List.mem_cons_self ..)
        · exact (ih h).imp id (List.mem_cons_of_mem _)

theorem IsSorted.set {entries : StringMap α} (h : IsSorted entries) (key : String) (value : α) :
    IsSorted (set entries key value) := by
  induction entries with
  | nil => exact List.pairwise_singleton _ _
  | cons head rest ih =>
    obtain ⟨k, v⟩ := head
    obtain ⟨hhead, hrest⟩ := List.pairwise_cons.1 h
    rw [StringMap.set]
    split
    · next heq => exact List.pairwise_cons.2 ⟨fun e he => heq ▸ hhead e he, hrest⟩
    · next hne =>
      split
      · next hlt =>
        refine List.pairwise_cons.2 ⟨fun e he => ?_, h⟩
        rcases List.mem_cons.1 he with rfl | he
        · exact hlt
        · exact lt_trans hlt (hhead e he)
      · next hnlt =>
        have hkk : k < key := lt_of_le_of_ne (not_lt.1 hnlt) hne
        refine List.pairwise_cons.2 ⟨fun e he => ?_, ih hrest⟩
        rcases mem_set he with rfl | he
        · exact hkk
        · exact hhead e he

theorem IsSorted.erase {entries : StringMap α} (h : IsSorted entries) (key : String) :
    IsSorted (erase entries key) :=
  List.Pairwise.filter _ h

/-- What is stored under a key and removed leaves no trace. -/
theorem erase_set (entries : StringMap α) (key : String) (value : α) :
    StringMap.erase (StringMap.set entries key value) key = StringMap.erase entries key := by
  induction entries with
  | nil => simp [StringMap.set, StringMap.erase]
  | cons head rest ih =>
    obtain ⟨k, v⟩ := head
    simp only [StringMap.set, StringMap.erase] at ih ⊢
    split
    · next heq => simp [heq]
    · next hne =>
      split
      · simp [hne]
      · simpa [hne] using ih

/-! ## Entries and look-ups -/

theorem mem_of_get? {entries : StringMap α} {key : String} {value : α}
    (h : entries.get? key = some value) : (key, value) ∈ entries := by
  induction entries with
  | nil => simp at h
  | cons head rest ih =>
    obtain ⟨k, v⟩ := head
    rw [get?_cons] at h
    split at h
    · next heq =>
      obtain rfl := Option.some.inj h
      exact heq ▸ List.mem_cons_self ..
    · exact List.mem_cons_of_mem _ (ih h)

theorem mem_iff_get? {entries : StringMap α} (h : IsSorted entries) {key : String} {value : α} :
    (key, value) ∈ entries ↔ entries.get? key = some value := by
  refine ⟨fun hmem => ?_, mem_of_get?⟩
  induction entries with
  | nil => simp at hmem
  | cons head rest ih =>
    obtain ⟨k, v⟩ := head
    obtain ⟨hhead, hrest⟩ := List.pairwise_cons.1 h
    rw [get?_cons]
    rcases List.mem_cons.1 hmem with heq | hmem
    · obtain ⟨rfl, rfl⟩ := Prod.mk.inj heq
      rw [if_pos rfl]
    · have hlt : k < key := hhead _ hmem
      rw [if_neg (ne_of_lt hlt)]
      exact ih hrest hmem

/-- Maps in order are the same if their look-ups are. -/
theorem IsSorted.ext {entries others : StringMap α} (h : IsSorted entries) (h' : IsSorted others)
    (hget : ∀ key, entries.get? key = others.get? key) : entries = others := by
  have : Std.Irrefl fun a b : String × α => a.1 < b.1 := ⟨fun a => lt_irrefl a.1⟩
  have : Std.Antisymm fun a b : String × α => a.1 < b.1 :=
    ⟨fun a b hab hba => absurd hba (lt_asymm hab)⟩
  refine List.Pairwise.eq_of_mem_iff h h' fun (key, value) => ?_
  rw [mem_iff_get? h, mem_iff_get? h', hget]

/-! ## Maps of lists -/

theorem isSorted_ofList (entries : List (String × α)) : IsSorted (ofList entries) := by
  have hfold : ∀ acc : StringMap α, IsSorted acc →
      IsSorted (entries.foldl (fun acc entry => StringMap.set acc entry.1 entry.2) acc) := by
    induction entries with
    | nil => exact fun _ hacc => hacc
    | cons entry rest ih => exact fun acc hacc => ih _ (hacc.set entry.1 entry.2)
  exact hfold [] isSorted_nil

/-- A key behind all others is put at the end. -/
theorem set_of_lt {entries : StringMap α} {key : String} (h : ∀ entry ∈ entries, entry.1 < key)
    (value : α) : set entries key value = entries ++ [(key, value)] := by
  induction entries with
  | nil => rfl
  | cons entry rest ih =>
    obtain ⟨k, v⟩ := entry
    have hlt : k < key := h (k, v) (by simp)
    have hrest := ih fun entry hmem => h entry (by simp [hmem])
    rw [set, if_neg (ne_of_lt hlt), if_neg (not_lt_of_gt hlt), hrest]
    rfl

/-- A list that is in order is the map that it stands for. -/
theorem IsSorted.ofList_eq {entries : StringMap α} (h : IsSorted entries) :
    ofList entries = entries := by
  have hfold : ∀ acc rest : StringMap α, IsSorted (acc ++ rest) →
      rest.foldl (fun acc entry => StringMap.set acc entry.1 entry.2) acc = acc ++ rest := by
    intro acc rest
    induction rest generalizing acc with
    | nil => simp
    | cons entry rest ih =>
      intro hsorted
      have hlast : ∀ e ∈ acc, e.1 < entry.1 := fun e he =>
        (List.pairwise_append.1 hsorted).2.2 e he entry (by simp)
      rw [List.foldl_cons, set_of_lt hlast, ih _ (by simpa using hsorted)]
      simp
  exact hfold [] entries h

/-! ## Scans of the whole map -/

theorem filterMap_set_of_none {entries : StringMap α} {key : String} {value : α}
    {f : String × α → Option β} (hnew : f (key, value) = none)
    (hold : ∀ old, entries.get? key = some old → f (key, old) = none) :
    (set entries key value).filterMap f = entries.filterMap f := by
  induction entries with
  | nil => simp [set, hnew]
  | cons head rest ih =>
    obtain ⟨k, v⟩ := head
    rw [set]
    split
    · next heq =>
      subst heq
      have hv : f (k, v) = none := hold v (by rw [get?_cons, if_pos rfl])
      rw [List.filterMap_cons_none hnew, List.filterMap_cons_none hv]
    · next hne =>
      split
      · rw [List.filterMap_cons_none hnew]
      · have hrest := ih fun old hget => hold old (by rw [get?_cons, if_neg hne, hget])
        simp only [List.filterMap_cons, hrest]

theorem filterMap_erase_of_none {entries : StringMap α} (h : IsSorted entries) {key : String}
    {f : String × α → Option β}
    (hold : ∀ old, entries.get? key = some old → f (key, old) = none) :
    (erase entries key).filterMap f = entries.filterMap f := by
  rw [erase, List.filterMap_filter]
  refine List.filterMap_congr fun entry hmem => ?_
  obtain ⟨k, v⟩ := entry
  by_cases hk : k = key
  · subst hk
    rw [hold v ((mem_iff_get? h).1 hmem)]
    simp
  · simp [hk]

end StringMap

end EdgeOperator
