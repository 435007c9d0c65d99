import EdgeOperator.Metadata
import EdgeOperator.Proofs.Json.Source
import EdgeOperator.Proofs.Timestamp

set_option autoImplicit false

/-! # Metadata that is read and written

Metadata that was read is canonical: its maps are in key order, its timestamps are times that there
are, and nothing is kept for a member that was `null` (`Metadata.isCanonical_of_ofJson?`). Canonical
metadata is read as it was written, but for the fractions of seconds (`Metadata.ofJson?_toJson`), if
all of its timestamps lie in years of four digits. -/

namespace EdgeOperator

open Json (Source LawfulSource)

open Json.Source

variable {σ : Type} [Source σ]

/-! ## Timestamps -/

/-- Whether the year of a timestamp has at most four digits and no sign. -/
def Timestamp.IsFourDigit (t : Timestamp) : Prop :=
  0 ≤ t.year ∧ t.year ≤ 9999

instance (t : Timestamp) : Decidable t.IsFourDigit :=
  inferInstanceAs (Decidable (0 ≤ t.year ∧ t.year ≤ 9999))

theorem Timestamp.isReal_of_ofJson? {source : σ} {t : Timestamp}
    (h : Timestamp.ofJson? source = some t) : t.IsReal := by
  obtain ⟨text, -, hparse⟩ := Option.bind_eq_some_iff.1 h
  exact isReal_of_parse? hparse

theorem Timestamp.ofJson?_toJson {t : Timestamp} (h : t.IsReal) (hyear : t.IsFourDigit) :
    Timestamp.ofJson? t.toJson = some t.wholeSecond :=
  Option.bind_eq_some_iff.2 ⟨t.toText, rfl, parse?_toText h hyear.1 hyear.2⟩

theorem Timestamp.map_wholeSecond_eq {time? : Option Timestamp} (h : ∀ t ∈ time?, t.nanos = 0) :
    time?.map Timestamp.wholeSecond = time? := by
  cases time? with
  | none => rfl
  | some t =>
    have hnanos : t.nanos = 0 := h t rfl
    obtain ⟨year, month, day, hour, minute, second, nanos⟩ := t
    obtain rfl : nanos = 0 := hnanos
    rfl

theorem Timestamp.map_toJson_wholeSecond (time? : Option Timestamp) :
    (time?.map Timestamp.wholeSecond).map Timestamp.toJson = time?.map Timestamp.toJson := by
  cases time? with
  | none => rfl
  | some t => simp [Timestamp.toJson, toText_wholeSecond]

/-! ## References to owners -/

/-- A reference is read as it was written. -/
theorem OwnerReference.ofJson?_toJson (r : OwnerReference) : ofJson? r.toJson = some r := by
  have hkeys : ["apiVersion", "blockOwnerDeletion", "controller", "kind", "name", "uid"].Nodup := by
    decide
  unfold ofJson? toJson
  rw [members?_ofPresent]
  refine Option.bind_eq_some_iff.2 ⟨_, rfl, ?_⟩
  refine Option.bind_eq_some_iff.2 ⟨_, textOrEmpty?_present hkeys 0 rfl, ?_⟩
  refine Option.bind_eq_some_iff.2
    ⟨_, optional?_present_same hkeys 1 rfl fun _ _ => ⟨rfl, rfl⟩, ?_⟩
  refine Option.bind_eq_some_iff.2
    ⟨_, optional?_present_same hkeys 2 rfl fun _ _ => ⟨rfl, rfl⟩, ?_⟩
  refine Option.bind_eq_some_iff.2 ⟨_, textOrEmpty?_present hkeys 3 rfl, ?_⟩
  refine Option.bind_eq_some_iff.2 ⟨_, textOrEmpty?_present hkeys 4 rfl, ?_⟩
  refine Option.bind_eq_some_iff.2 ⟨_, textOrEmpty?_present hkeys 5 rfl, ?_⟩
  rfl

/-! ## What writers have set -/

namespace ManagedFields

/-- Whether an entry holds nothing that is not kept when it is written. -/
structure IsCanonical (m : ManagedFields) : Prop where
  fields : m.fields? ≠ some .null
  time : ∀ t ∈ m.time?, t.IsReal

theorem isCanonical_of_ofJson? [LawfulSource σ] {source : σ} {m : ManagedFields}
    (h : ofJson? source = some m) : m.IsCanonical := by
  unfold ofJson? at h
  obtain ⟨members, -, h⟩ := Option.bind_eq_some_iff.1 h
  -- of the members in turn, only those are kept that could have been something else
  obtain ⟨_, -, h⟩ := Option.bind_eq_some_iff.1 h
  obtain ⟨_, -, h⟩ := Option.bind_eq_some_iff.1 h
  obtain ⟨fields?, hfields, h⟩ := Option.bind_eq_some_iff.1 h
  obtain ⟨_, -, h⟩ := Option.bind_eq_some_iff.1 h
  obtain ⟨_, -, h⟩ := Option.bind_eq_some_iff.1 h
  obtain ⟨_, -, h⟩ := Option.bind_eq_some_iff.1 h
  obtain ⟨time?, htime, h⟩ := Option.bind_eq_some_iff.1 h
  obtain rfl := Option.some.inj h
  constructor
  · -- a null would have been taken for a missing member
    intro (heq : fields? = some .null)
    obtain ⟨found, hvalue, hnull⟩ := exists_of_optional? hfields .null heq
    rw [LawfulSource.isNull_of_value? hvalue] at hnull
    exact absurd hnull (by decide)
  · intro t ht
    obtain ⟨found, hread, -⟩ := exists_of_optional? htime t ht
    exact Timestamp.isReal_of_ofJson? hread

/-- An entry is read as it was written, but for the fraction of its second. -/
theorem ofJson?_toJson {m : ManagedFields} (h : m.IsCanonical)
    (hyear : ∀ t ∈ m.time?, t.IsFourDigit) : ofJson? m.toJson = some m.wholeSeconds := by
  have hkeys : ["apiVersion", "fieldsType", "fieldsV1", "manager", "operation", "subresource",
      "time"].Nodup := by decide
  unfold ofJson? toJson
  rw [members?_ofPresent]
  refine Option.bind_eq_some_iff.2 ⟨_, rfl, ?_⟩
  refine Option.bind_eq_some_iff.2 ⟨_, optionalText?_present hkeys 0 rfl, ?_⟩
  refine Option.bind_eq_some_iff.2 ⟨_, optionalText?_present hkeys 1 rfl, ?_⟩
  refine Option.bind_eq_some_iff.2 ⟨_, optionalValue?_present hkeys 2 rfl h.fields, ?_⟩
  refine Option.bind_eq_some_iff.2 ⟨_, optionalText?_present hkeys 3 rfl, ?_⟩
  refine Option.bind_eq_some_iff.2 ⟨_, optionalText?_present hkeys 4 rfl, ?_⟩
  refine Option.bind_eq_some_iff.2 ⟨_, optionalText?_present hkeys 5 rfl, ?_⟩
  refine Option.bind_eq_some_iff.2 ⟨_, optional?_present hkeys 6 rfl fun t ht =>
    ⟨rfl, Timestamp.ofJson?_toJson (h.time t ht) (hyear t ht)⟩, ?_⟩
  rfl

theorem toJson_wholeSeconds (m : ManagedFields) : m.wholeSeconds.toJson = m.toJson := by
  simp only [toJson, wholeSeconds, Timestamp.map_toJson_wholeSecond]

theorem wholeSeconds_eq {m : ManagedFields} (h : ∀ t ∈ m.time?, t.nanos = 0) :
    m.wholeSeconds = m := by
  have htime : m.time?.map Timestamp.wholeSecond = m.time? :=
    Timestamp.map_wholeSecond_eq h
  simp only [wholeSeconds, htime]

end ManagedFields

/-! ## Metadata -/

namespace Metadata

/-- Every timestamp in the metadata. -/
def times (m : Metadata) : List Timestamp :=
  m.creationTimestamp?.toList ++ m.deletionTimestamp?.toList ++
    (m.managedFields?.getD []).filterMap ManagedFields.time?

theorem mem_times_of_creation {m : Metadata} {t : Timestamp} (h : t ∈ m.creationTimestamp?) :
    t ∈ m.times := by
  simp [times, Option.mem_def.1 h]

theorem mem_times_of_deletion {m : Metadata} {t : Timestamp} (h : t ∈ m.deletionTimestamp?) :
    t ∈ m.times := by
  simp [times, Option.mem_def.1 h]

theorem mem_times_of_managedFields {m : Metadata} {entries : List ManagedFields}
    {entry : ManagedFields} {t : Timestamp} (hmem : entries ∈ m.managedFields?)
    (hentry : entry ∈ entries) (ht : t ∈ entry.time?) : t ∈ m.times := by
  refine List.mem_append_right _ (List.mem_filterMap.2 ⟨entry, ?_, ht⟩)
  rwa [Option.mem_def.1 hmem]

/-- Whether metadata holds nothing that is not kept when it is written. -/
structure IsCanonical (m : Metadata) : Prop where
  annotations : ∀ a ∈ m.annotations?, StringMap.IsSorted a
  creation : ∀ t ∈ m.creationTimestamp?, t.IsReal
  deletion : ∀ t ∈ m.deletionTimestamp?, t.IsReal
  labels : ∀ l ∈ m.labels?, StringMap.IsSorted l
  managed : ∀ entries ∈ m.managedFields?, ∀ entry ∈ entries, entry.IsCanonical

/-- What is read is canonical, in whatever spelling. -/
theorem isCanonical_of_ofJson? [LawfulSource σ] {source : σ} {m : Metadata}
    (h : ofJson? source = some m) : m.IsCanonical := by
  unfold ofJson? at h
  obtain ⟨members, -, h⟩ := Option.bind_eq_some_iff.1 h
  -- of the members in turn, only maps, timestamps and entries of writers are kept
  obtain ⟨_, hannotations, h⟩ := Option.bind_eq_some_iff.1 h
  obtain ⟨_, hcreation, h⟩ := Option.bind_eq_some_iff.1 h
  obtain ⟨_, -, h⟩ := Option.bind_eq_some_iff.1 h
  obtain ⟨_, hdeletion, h⟩ := Option.bind_eq_some_iff.1 h
  obtain ⟨_, -, h⟩ := Option.bind_eq_some_iff.1 h
  obtain ⟨_, -, h⟩ := Option.bind_eq_some_iff.1 h
  obtain ⟨_, -, h⟩ := Option.bind_eq_some_iff.1 h
  obtain ⟨_, hlabels, h⟩ := Option.bind_eq_some_iff.1 h
  obtain ⟨_, hmanaged, h⟩ := Option.bind_eq_some_iff.1 h
  obtain ⟨_, -, h⟩ := Option.bind_eq_some_iff.1 h
  obtain ⟨_, -, h⟩ := Option.bind_eq_some_iff.1 h
  obtain ⟨_, -, h⟩ := Option.bind_eq_some_iff.1 h
  obtain ⟨_, -, h⟩ := Option.bind_eq_some_iff.1 h
  obtain ⟨_, -, h⟩ := Option.bind_eq_some_iff.1 h
  obtain ⟨_, -, h⟩ := Option.bind_eq_some_iff.1 h
  obtain rfl := Option.some.inj h
  constructor
  · intro annotations hmem
    obtain ⟨found, hread, -⟩ := exists_of_optional? hannotations annotations hmem
    exact isSorted_of_mapOf? hread
  · intro t ht
    obtain ⟨found, hread, -⟩ := exists_of_optional? hcreation t ht
    exact Timestamp.isReal_of_ofJson? hread
  · intro t ht
    obtain ⟨found, hread, -⟩ := exists_of_optional? hdeletion t ht
    exact Timestamp.isReal_of_ofJson? hread
  · intro labels hmem
    obtain ⟨found, hread, -⟩ := exists_of_optional? hlabels labels hmem
    exact isSorted_of_mapOf? hread
  · intro entries hmem entry hentry
    obtain ⟨found, hread, -⟩ := exists_of_optional? hmanaged entries hmem
    obtain ⟨item, hitem⟩ := exists_of_mem_listOf? hread hentry
    exact ManagedFields.isCanonical_of_ofJson? hitem

/-- Canonical metadata is read as it was written, but for the fractions of seconds. -/
theorem ofJson?_toJson {m : Metadata} (h : m.IsCanonical)
    (hyears : ∀ t ∈ m.times, t.IsFourDigit) : ofJson? m.toJson = some m.wholeSeconds := by
  have hkeys : ["annotations", "creationTimestamp", "deletionGracePeriodSeconds",
      "deletionTimestamp", "finalizers", "generateName", "generation", "labels", "managedFields",
      "name", "namespace", "ownerReferences", "resourceVersion", "selfLink", "uid"].Nodup := by
    decide
  have hentries : ∀ entries ∈ m.managedFields?, listOf? ManagedFields.ofJson?
      (Json.arr (entries.map ManagedFields.toJson)) =
        some (entries.map ManagedFields.wholeSeconds) := by
    intro entries hmem
    refine listOf?_arr fun entry hentry => ?_
    refine ManagedFields.ofJson?_toJson (h.managed entries hmem entry hentry) fun t ht => ?_
    exact hyears t (mem_times_of_managedFields hmem hentry ht)
  have hreferences (references : List OwnerReference) : listOf? OwnerReference.ofJson?
      (Json.arr (references.map OwnerReference.toJson)) = some references :=
    listOf?_arr_same fun r _ => r.ofJson?_toJson
  unfold ofJson? toJson
  rw [members?_ofPresent]
  -- member by member, each at its place in what was written
  refine Option.bind_eq_some_iff.2 ⟨_, rfl, ?_⟩
  refine Option.bind_eq_some_iff.2 ⟨_, optional?_present_same hkeys 0 rfl fun _ hmem =>
    ⟨rfl, mapOf?_ofTexts (h.annotations _ hmem)⟩, ?_⟩
  refine Option.bind_eq_some_iff.2 ⟨_, optional?_present hkeys 1 rfl fun t ht =>
    ⟨rfl, Timestamp.ofJson?_toJson (h.creation t ht) (hyears t (mem_times_of_creation ht))⟩, ?_⟩
  refine Option.bind_eq_some_iff.2
    ⟨_, optional?_present_same hkeys 2 rfl fun n _ => ⟨rfl, int64?_int n⟩, ?_⟩
  refine Option.bind_eq_some_iff.2 ⟨_, optional?_present hkeys 3 rfl fun t ht =>
    ⟨rfl, Timestamp.ofJson?_toJson (h.deletion t ht) (hyears t (mem_times_of_deletion ht))⟩, ?_⟩
  refine Option.bind_eq_some_iff.2
    ⟨_, optional?_present_same hkeys 4 rfl fun _ _ => ⟨rfl, listOf?_ofTextList _⟩, ?_⟩
  refine Option.bind_eq_some_iff.2 ⟨_, optionalText?_present hkeys 5 rfl, ?_⟩
  refine Option.bind_eq_some_iff.2
    ⟨_, optional?_present_same hkeys 6 rfl fun n _ => ⟨rfl, int64?_int n⟩, ?_⟩
  refine Option.bind_eq_some_iff.2 ⟨_, optional?_present_same hkeys 7 rfl fun _ hmem =>
    ⟨rfl, mapOf?_ofTexts (h.labels _ hmem)⟩, ?_⟩
  refine Option.bind_eq_some_iff.2 ⟨_, optional?_present hkeys 8 rfl fun entries hmem =>
    ⟨rfl, hentries entries hmem⟩, ?_⟩
  refine Option.bind_eq_some_iff.2 ⟨_, optionalText?_present hkeys 9 rfl, ?_⟩
  refine Option.bind_eq_some_iff.2 ⟨_, optionalText?_present hkeys 10 rfl, ?_⟩
  refine Option.bind_eq_some_iff.2 ⟨_, optional?_present_same hkeys 11 rfl fun _ _ =>
    ⟨rfl, hreferences _⟩, ?_⟩
  refine Option.bind_eq_some_iff.2 ⟨_, optionalText?_present hkeys 12 rfl, ?_⟩
  refine Option.bind_eq_some_iff.2 ⟨_, optionalText?_present hkeys 13 rfl, ?_⟩
  refine Option.bind_eq_some_iff.2 ⟨_, optionalText?_present hkeys 14 rfl, ?_⟩
  rfl

/-- The fractions of seconds are not written. -/
theorem toJson_wholeSeconds (m : Metadata) : m.wholeSeconds.toJson = m.toJson := by
  have hentries : (m.managedFields?.map (·.map ManagedFields.wholeSeconds)).map
      (fun entries => Json.arr (entries.map ManagedFields.toJson)) =
        m.managedFields?.map fun entries => .arr (entries.map ManagedFields.toJson) := by
    simp [Option.map_map, Function.comp_def, List.map_map, ManagedFields.toJson_wholeSeconds]
  simp only [toJson, wholeSeconds, Timestamp.map_toJson_wholeSecond, hentries]

theorem wholeSeconds_eq {m : Metadata} (h : ∀ t ∈ m.times, t.nanos = 0) : m.wholeSeconds = m := by
  have hcreation : m.creationTimestamp?.map Timestamp.wholeSecond = m.creationTimestamp? :=
    Timestamp.map_wholeSecond_eq fun t ht => h t (mem_times_of_creation ht)
  have hdeletion : m.deletionTimestamp?.map Timestamp.wholeSecond = m.deletionTimestamp? :=
    Timestamp.map_wholeSecond_eq fun t ht => h t (mem_times_of_deletion ht)
  have hentries : m.managedFields?.map (·.map ManagedFields.wholeSeconds) = m.managedFields? := by
    cases hmanaged : m.managedFields? with
    | none => rfl
    | some entries =>
      have hwhole : entries.map ManagedFields.wholeSeconds = entries := by
        refine (List.map_congr_left fun entry hentry => ?_).trans (List.map_id entries)
        exact ManagedFields.wholeSeconds_eq fun t ht =>
          h t (mem_times_of_managedFields hmanaged hentry ht)
      exact congrArg some hwhole
  simp only [wholeSeconds, hcreation, hdeletion, hentries]

end Metadata

end EdgeOperator
