import EdgeOperator.Frontend
import EdgeOperator.Json.Written
import EdgeOperator.Proofs.StringMap

set_option autoImplicit false

/-! # Typed values that are written and read

An object is written as the list of its members, each of which may be missing, in which every key
stands once (`Json.present`). So what a reader finds under a key is what was written there
(`member?_present`), and each way to ask for a member gives it back as it was written, if only its
value is read as it was written. Which member it is, is told by its place in the list.

Conversely, what a reader gives for a member or an item was read somewhere
(`exists_of_optional?`, `exists_of_mem_listOf?`). -/

namespace EdgeOperator.Json

/-- The members that are there. -/
def present (entries : List (String × Option Json)) : List (String × Json) :=
  entries.filterMap fun m => m.2.map (m.1, ·)

namespace Source

variable {α β : Type}

/-! ## Members that were written -/

section Present

variable {entries : List (String × Option Json)} {key : String} {value? : Option Json}

theorem members?_ofPresent (entries : List (String × Option Json)) :
    members? (ofPresent entries) = some (present entries) := rfl

theorem filter_present_of_not_mem (h : key ∉ entries.map Prod.fst) :
    (present entries).filter (fun m => m.1 = key) = [] := by
  refine List.filter_eq_nil_iff.2 fun m hm => ?_
  obtain ⟨entry, hentry, heq⟩ := List.mem_filterMap.1 hm
  obtain ⟨value, _, rfl⟩ := Option.map_eq_some_iff.1 heq
  have hne : entry.1 ≠ key := fun heq => h (heq ▸ List.mem_map_of_mem hentry)
  simpa using hne

/-- Under a key there is what was written, and nothing else. -/
theorem filter_present (hkeys : (entries.map Prod.fst).Nodup) (hmem : (key, value?) ∈ entries) :
    (present entries).filter (fun m => m.1 = key) = (value?.map (key, ·)).toList := by
  induction entries with
  | nil => simp at hmem
  | cons entry rest ih =>
    obtain ⟨hhead, hrest⟩ := List.nodup_cons.1 hkeys
    rcases List.mem_cons.1 hmem with rfl | hmem
    · have hnone := filter_present_of_not_mem hhead
      cases value? with
      | none => exact hnone
      | some v =>
        show List.filter _ ((key, v) :: present rest) = _
        rw [List.filter_cons_of_pos (by simp), hnone]
        rfl
    · have hne : entry.1 ≠ key := by
        intro heq
        exact hhead (heq ▸ List.mem_map_of_mem hmem)
      have hrest := ih hrest hmem
      obtain ⟨k, v?⟩ := entry
      cases v? with
      | none => exact hrest
      | some v =>
        show List.filter _ ((k, v) :: present rest) = _
        rw [List.filter_cons_of_neg (by simpa using hne), hrest]

theorem member?_present {read : Json → Option α} (hkeys : (entries.map Prod.fst).Nodup)
    (i : Nat) (hvalue : entries[i]? = some (key, value?)) :
    member? read (present entries) key =
      match value? with
      | none => some none
      | some value => (read value).map some := by
  unfold member?
  rw [filter_present hkeys (List.mem_of_getElem? hvalue)]
  cases value? with
  | none => rfl
  | some value =>
    cases hread : read value <;> simp [hread]

/-- A member that may be missing is read as it was written. -/
theorem optional?_present {read : Json → Option β} {write : α → Json} {f : α → β}
    {field? : Option α} (hkeys : (entries.map Prod.fst).Nodup)
    (i : Nat) (hvalue : entries[i]? = some (key, field?.map write))
    (hread : ∀ a ∈ field?, isNull (write a) = false ∧ read (write a) = some (f a)) :
    optional? read (present entries) key = some (field?.map f) := by
  unfold optional?
  rw [member?_present hkeys i hvalue]
  cases field? with
  | none => rfl
  | some a =>
    obtain ⟨hnull, hread⟩ := hread a rfl
    simp [nullOr?, hnull, hread]

/-- A member that may be missing is read as it was written if its value is. -/
theorem optional?_present_same {read : Json → Option α} {write : α → Json} {field? : Option α}
    (hkeys : (entries.map Prod.fst).Nodup)
    (i : Nat) (hvalue : entries[i]? = some (key, field?.map write))
    (hread : ∀ a ∈ field?, isNull (write a) = false ∧ read (write a) = some a) :
    optional? read (present entries) key = some field? := by
  have hfield : optional? read (present entries) key = some (field?.map id) :=
    optional?_present hkeys i hvalue hread
  rwa [Option.map_id_apply] at hfield

theorem optionalText?_present {field? : Option String} (hkeys : (entries.map Prod.fst).Nodup)
    (i : Nat) (hvalue : entries[i]? = some (key, field?.map .str)) :
    optional? text? (present entries) key = some field? :=
  optional?_present_same hkeys i hvalue fun _ _ => ⟨rfl, rfl⟩

/-- A value that may be missing is kept as it is, but it must not be `null`. -/
theorem optionalValue?_present (hkeys : (entries.map Prod.fst).Nodup) (i : Nat)
    (hvalue : entries[i]? = some (key, value?)) (hnull : value? ≠ some .null) :
    optional? Source.value? (present entries) key = some value? := by
  have hwrite : entries[i]? = some (key, value?.map id) := by rwa [Option.map_id_apply]
  refine optional?_present_same hkeys i hwrite fun value hmem => ⟨?_, rfl⟩
  obtain rfl : value? = some value := hmem
  cases value with
  | null => exact absurd rfl hnull
  | bool | int | real | str | arr | obj => rfl

theorem required?_present {read : Json → Option α} {value : Json} {a : α}
    (hkeys : (entries.map Prod.fst).Nodup) (i : Nat) (hvalue : entries[i]? = some (key, some value))
    (hread : read value = some a) : required? read (present entries) key = some a := by
  unfold required?
  rw [member?_present hkeys i hvalue]
  simp [hread]

theorem withDefault?_present {read : Json → Option α} {default : α} {value : Json} {a : α}
    (hkeys : (entries.map Prod.fst).Nodup) (i : Nat) (hvalue : entries[i]? = some (key, some value))
    (hread : read value = some a) :
    withDefault? read default (present entries) key = some a := by
  unfold withDefault?
  rw [member?_present hkeys i hvalue]
  simp [hread]

theorem textOrEmpty?_present {text : String} (hkeys : (entries.map Prod.fst).Nodup)
    (i : Nat) (hvalue : entries[i]? = some (key, some (.str text))) :
    textOrEmpty? (present entries) key = some text := by
  have hoptional : optional? text? (present entries) key = some (some text) :=
    optionalText?_present hkeys i hvalue
  unfold textOrEmpty?
  rw [hoptional]
  rfl

/-- What is written is no array, and repeats no key. -/
theorem record?_ofPresent (keys : List String) (hkeys : (entries.map Prod.fst).Nodup) :
    record? keys (ofPresent entries) = some (present entries) := by
  have hone : ∀ key, (present entries).countP (fun m => m.1 = key) ≤ 1 := by
    intro key
    rw [List.countP_eq_length_filter]
    by_cases hmem : key ∈ entries.map Prod.fst
    · obtain ⟨⟨_, value?⟩, hentry, rfl⟩ := List.mem_map.1 hmem
      rw [filter_present hkeys hentry]
      cases value? <;> simp
    · simp [filter_present_of_not_mem hmem]
  have hall : (keys.all fun key => (present entries).countP (fun m => m.1 = key) ≤ 1) = true :=
    List.all_eq_true.2 fun key _ => decide_eq_true (hone key)
  exact if_pos hall

end Present

/-! ## Numbers, lists and maps that were written -/

theorem int32?_ofInt32 (n : Int32) : int32? (ofInt32 n) = some n := by
  have hlow := n.le_toInt
  have hhigh := n.toInt_lt
  have hwithin : intWithin? (-2147483648) 2147483647 (ofInt32 n) = some n.toInt := by
    show Option.filter _ (some n.toInt) = _
    simp only [Option.filter_some]
    rw [if_pos]
    simp
    omega
  simp [int32?, hwithin]

theorem int64?_int (n : Int64) : int64? (Json.int n.toInt) = some n := by
  have hlow := n.le_toInt
  have hhigh := n.toInt_lt
  have hwithin : intWithin? (-9223372036854775808) 9223372036854775807 (Json.int n.toInt) =
      some n.toInt := by
    show Option.filter _ (some n.toInt) = _
    simp only [Option.filter_some]
    rw [if_pos]
    simp
    omega
  simp [int64?, hwithin]

theorem mapM_map_eq {σ τ : Type} {read : σ → Option τ} {write : α → σ} {f : α → τ}
    {items : List α} (hread : ∀ a ∈ items, read (write a) = some (f a)) :
    (items.map write).mapM read = some (items.map f) := by
  induction items with
  | nil => rfl
  | cons a rest ih =>
    have hhead := hread a (by simp)
    have hrest := ih fun b hb => hread b (by simp [hb])
    simp [hhead, hrest]

/-- A list is read as it was written if its items are. -/
theorem listOf?_arr {read : Json → Option β} {write : α → Json} {f : α → β} {items : List α}
    (hread : ∀ a ∈ items, read (write a) = some (f a)) :
    listOf? read (.arr (items.map write)) = some (items.map f) :=
  mapM_map_eq hread

theorem listOf?_arr_same {read : Json → Option α} {write : α → Json} {items : List α}
    (hread : ∀ a ∈ items, read (write a) = some a) :
    listOf? read (.arr (items.map write)) = some items := by
  have hlist : listOf? read (.arr (items.map write)) = some (items.map id) := listOf?_arr hread
  rwa [List.map_id] at hlist

theorem listOf?_ofTextList (texts : List String) :
    listOf? text? (ofTextList texts) = some texts :=
  listOf?_arr_same fun _ _ => rfl

/-- A map is read as it was written if it is in key order. -/
theorem mapOf?_ofTexts {texts : StringMap String} (h : texts.IsSorted) :
    mapOf? text? (ofTexts texts) = some texts := by
  have hentries : (texts.map fun t => (t.1, Json.str t.2)).mapM
      (fun m => (text? m.2).map (m.1, ·)) = some (texts.map id) :=
    @mapM_map_eq (String × String) (String × Json) (String × String) _
      (fun t => (t.1, Json.str t.2)) id texts fun _ _ => rfl
  have hmembers : members? (ofTexts texts) = some (texts.map fun t => (t.1, Json.str t.2)) := rfl
  unfold mapOf?
  rw [hmembers, Option.bind_eq_bind, Option.bind_some, hentries, List.map_id]
  exact congrArg some h.ofList_eq

/-! ## What was read -/

section Read

variable {σ : Type}

theorem exists_of_mem_mapM {f : α → Option β} {items : List α} {results : List β}
    (h : items.mapM f = some results) {result : β} (hmem : result ∈ results) :
    ∃ item ∈ items, f item = some result := by
  induction items generalizing results with
  | nil =>
    simp at h
    simp [h] at hmem
  | cons item rest ih =>
    rw [List.mapM_cons] at h
    obtain ⟨first, hfirst, h⟩ := Option.bind_eq_some_iff.1 h
    obtain ⟨others, hothers, h⟩ := Option.bind_eq_some_iff.1 h
    obtain rfl := Option.some.inj h
    rcases List.mem_cons.1 hmem with rfl | hmem
    · exact ⟨item, by simp, hfirst⟩
    · obtain ⟨found, hfound, hresult⟩ := ih hothers hmem
      exact ⟨found, by simp [hfound], hresult⟩

variable {read : σ → Option α} {members : List (String × σ)} {key : String}

/-- A member that has to be there was read. -/
theorem exists_of_required? {a : α} (h : required? read members key = some a) :
    ∃ source, read source = some a := by
  obtain ⟨results, hresults, hlast⟩ := Option.map_eq_some_iff.1 (Option.join_eq_some_iff.1 h)
  obtain ⟨m, -, hread⟩ := exists_of_mem_mapM hresults (List.mem_of_getLast? hlast)
  exact ⟨m.2, hread⟩

variable [Source σ]

/-- A member that was read is no null. -/
theorem exists_of_optional? {field? : Option α} (h : optional? read members key = some field?) :
    ∀ a ∈ field?, ∃ source, read source = some a ∧ isNull source = false := by
  intro a ha
  obtain rfl : field? = some a := ha
  obtain ⟨last?, hlast, hjoin⟩ := Option.map_eq_some_iff.1 h
  obtain ⟨results, hresults, rfl⟩ := Option.map_eq_some_iff.1 hlast
  have hmem : some a ∈ results := by
    refine List.mem_of_getLast? ?_
    exact Option.join_eq_some_iff.1 hjoin
  obtain ⟨m, -, hread⟩ := exists_of_mem_mapM hresults hmem
  refine ⟨m.2, ?_⟩
  unfold nullOr? at hread
  split at hread
  · cases hread
  · next hnull => simpa [hnull] using hread

theorem exists_of_mem_listOf? {source : σ} {items : List α} (h : listOf? read source = some items)
    {a : α} (ha : a ∈ items) : ∃ item, read item = some a := by
  obtain ⟨sources, -, hread⟩ := Option.bind_eq_some_iff.1 h
  obtain ⟨item, -, hitem⟩ := exists_of_mem_mapM hread ha
  exact ⟨item, hitem⟩

theorem isSorted_of_mapOf? {source : σ} {entries : StringMap α}
    (h : mapOf? read source = some entries) : entries.IsSorted := by
  obtain ⟨members, -, h⟩ := Option.bind_eq_some_iff.1 h
  obtain ⟨read, -, h⟩ := Option.bind_eq_some_iff.1 h
  obtain rfl := Option.some.inj h
  exact StringMap.isSorted_ofList read

end Read

end Source

/-! ## Null and its value -/

/-- A form of JSON in which nothing but `null` has the value `null`. -/
class LawfulSource (σ : Type) [Source σ] : Prop where
  /-- What has the value `null` is `null`. -/
  isNull_of_value? {source : σ} : Source.value? source = some .null → Source.isNull source = true

instance : LawfulSource Json where
  isNull_of_value? h := by
    obtain rfl := Option.some.inj h
    rfl

instance : LawfulSource Written where
  isNull_of_value? {source} h := by
    have hvalue : source.value? = some .null := h
    cases source with
    | null => rfl
    | unreadable | bool | int | real | str => simp [Written.value?] at hvalue
    | arr items => simp [Written.value?] at hvalue
    | obj members => simp [Written.value?, ofMembers] at hvalue

end EdgeOperator.Json
