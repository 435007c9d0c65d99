import EdgeOperator.Proofs.Metadata
import EdgeOperator.Resource

set_option autoImplicit false

/-! # Custom resources that are stored and read again

A store keeps a custom resource as JSON and reads it again for every pass, so what one of the two
ways drops is lost. Nothing is: a frontend or an anchor is read as it was written, but for the
fractions of seconds, if its metadata was ever read (`Resource.ofJson?_toJson`). Its specification
and status may be anything. -/

namespace EdgeOperator

open Json (Source LawfulSource)

open Json.Source

/-! ## Specifications -/

/-- A variable is read as it was written. -/
theorem EnvironmentVariable.ofJson?_toJson (v : EnvironmentVariable) :
    ofJson? v.toJson = some v := by
  have hkeys : ["name", "value"].Nodup := by decide
  have hwritten : v.toJson = .ofPresent [("name", some (.str v.name)),
    ("value", some (.str v.value))] := rfl
  unfold ofJson?
  rw [hwritten]
  refine Option.bind_eq_some_iff.2 ⟨_, record?_ofPresent keys hkeys, ?_⟩
  refine Option.bind_eq_some_iff.2 ⟨_, withDefault?_present hkeys 0 rfl rfl, ?_⟩
  refine Option.bind_eq_some_iff.2 ⟨_, withDefault?_present hkeys 1 rfl rfl, ?_⟩
  rfl

/-- A specification is read as it was written. -/
theorem FrontendSpec.ofJson?_toJson (spec : FrontendSpec) : ofJson? spec.toJson = some spec := by
  have hkeys : ["environmentVariables", "imageName", "isHost", "nodeName", "port",
      "replicas"].Nodup := by decide
  have hvariables (vs : List EnvironmentVariable) : listOf? EnvironmentVariable.ofJson?
      (Json.arr (vs.map EnvironmentVariable.toJson)) = some vs :=
    listOf?_arr_same fun v _ => v.ofJson?_toJson
  unfold ofJson? toJson
  -- the members are read in the order of an array, but written in key order
  refine Option.bind_eq_some_iff.2 ⟨_, record?_ofPresent keys hkeys, ?_⟩
  refine Option.bind_eq_some_iff.2 ⟨_, required?_present hkeys 1 rfl rfl, ?_⟩
  refine Option.bind_eq_some_iff.2 ⟨_, required?_present hkeys 4 rfl (int32?_ofInt32 _), ?_⟩
  refine Option.bind_eq_some_iff.2
    ⟨_, optional?_present_same hkeys 5 rfl fun n _ => ⟨rfl, int32?_ofInt32 n⟩, ?_⟩
  refine Option.bind_eq_some_iff.2 ⟨_, optionalText?_present hkeys 3 rfl, ?_⟩
  refine Option.bind_eq_some_iff.2 ⟨_, withDefault?_present hkeys 2 rfl rfl, ?_⟩
  refine Option.bind_eq_some_iff.2
    ⟨_, optional?_present_same hkeys 0 rfl fun vs _ => ⟨rfl, hvariables vs⟩, ?_⟩
  rfl

/-! ## Custom resources as they are written -/

namespace Resource

variable {kind : Kind}

/-- The members of a custom resource, in key order. -/
def customEntries (kind : Kind) (metadata spec : Json) (hasStatus : Bool) :
    List (String × Option Json) :=
  [("apiVersion", some (.str kind.apiVersion)), ("kind", some (.str kind.name)),
    ("metadata", some metadata), ("spec", some spec),
    ("status", if hasStatus then some (.obj []) else none)]

theorem toJson_frontend (x : Resource .frontend) :
    x.toJson = .ofPresent (customEntries .frontend x.metadata.toJson x.content.spec.toJson
      x.content.hasStatus) := by
  obtain ⟨metadata, spec, hasStatus⟩ := x
  cases hasStatus <;> rfl

theorem toJson_anchor (x : Resource .anchor) :
    x.toJson = .ofPresent (customEntries .anchor x.metadata.toJson (.obj [])
      x.content.hasStatus) := by
  obtain ⟨metadata, ⟨hasStatus⟩⟩ := x
  cases hasStatus <;> rfl

section Entries

variable (metadata spec : Json) (hasStatus : Bool)

theorem nodup_customEntries :
    ((customEntries kind metadata spec hasStatus).map Prod.fst).Nodup :=
  show ["apiVersion", "kind", "metadata", "spec", "status"].Nodup by decide

theorem membersOf?_customEntries (hkind : kind = .frontend ∨ kind = .anchor) :
    membersOf? kind (Json.ofPresent (customEntries kind metadata spec hasStatus)) =
      some (Json.present (customEntries kind metadata spec hasStatus)) := by
  have hmembers : customMembers? (Json.ofPresent (customEntries kind metadata spec hasStatus)) =
      some (Json.present (customEntries kind metadata spec hasStatus)) := by
    unfold customMembers?
    dsimp only
    rw [record?_ofPresent _ (nodup_customEntries metadata spec hasStatus)]
    rfl
  rcases hkind with rfl | rfl <;> exact hmembers

theorem metadataOf?_customEntries (hkind : kind = .frontend ∨ kind = .anchor) {m : Metadata}
    (h : Metadata.ofJson? metadata = some m) :
    metadataOf? kind (Json.present (customEntries kind metadata spec hasStatus)) = some m := by
  have hrequired : required? Metadata.ofJson?
      (Json.present (customEntries kind metadata spec hasStatus)) "metadata" = some m :=
    required?_present (nodup_customEntries metadata spec hasStatus) 2 rfl h
  rcases hkind with rfl | rfl <;> exact hrequired

theorem reservedStatus?_customEntries :
    Content.reservedStatus? (Json.present (customEntries kind metadata spec hasStatus)) =
      some hasStatus := by
  have hvalue : (customEntries kind metadata spec hasStatus)[4]? =
      some ("status", (if hasStatus then some () else none).map fun _ => Json.obj []) := by
    cases hasStatus <;> rfl
  have hstatus : optional? Content.emptyRecord?
      (Json.present (customEntries kind metadata spec hasStatus)) "status" =
        some (if hasStatus then some () else none) :=
    optional?_present_same (nodup_customEntries metadata spec hasStatus) 4 hvalue
      fun _ _ => ⟨rfl, rfl⟩
  unfold Content.reservedStatus?
  rw [hstatus]
  cases hasStatus <;> rfl

end Entries

/-- A frontend or an anchor is written with its specification and status, and its content is read
off them. -/
theorem exists_customEntries (hkind : kind = .frontend ∨ kind = .anchor) (x : Resource kind) :
    ∃ spec hasStatus,
      x.toJson = .ofPresent (customEntries kind x.metadata.toJson spec hasStatus) ∧
      Content.ofMembers? kind
        (Json.present (customEntries kind x.metadata.toJson spec hasStatus)) = some x.content := by
  rcases hkind with rfl | rfl
  · refine ⟨x.content.spec.toJson, x.content.hasStatus, toJson_frontend x, ?_⟩
    refine Option.bind_eq_some_iff.2 ⟨_, required?_present (nodup_customEntries ..) 3 rfl
      x.content.spec.ofJson?_toJson, ?_⟩
    exact Option.bind_eq_some_iff.2 ⟨_, reservedStatus?_customEntries .., rfl⟩
  · refine ⟨.obj [], x.content.hasStatus, toJson_anchor x, ?_⟩
    refine Option.bind_eq_some_iff.2 ⟨(), required?_present (nodup_customEntries ..) 3 rfl rfl, ?_⟩
    exact Option.bind_eq_some_iff.2 ⟨_, reservedStatus?_customEntries .., rfl⟩

/-- A custom resource is read as it was written, but for the fractions of seconds. -/
theorem ofJson?_toJson (hkind : kind = .frontend ∨ kind = .anchor) {x : Resource kind}
    (h : x.metadata.IsCanonical) (hyears : ∀ t ∈ x.metadata.times, t.IsFourDigit) :
    ofJson? kind x.toJson = some x.wholeSeconds := by
  obtain ⟨spec, hasStatus, hwritten, hcontent⟩ := exists_customEntries hkind x
  have hmetadata := Metadata.ofJson?_toJson h hyears
  rw [hwritten]
  refine Option.bind_eq_some_iff.2 ⟨_, membersOf?_customEntries _ _ _ hkind, ?_⟩
  refine Option.bind_eq_some_iff.2 ⟨_, metadataOf?_customEntries _ _ _ hkind hmetadata, ?_⟩
  exact Option.bind_eq_some_iff.2 ⟨_, hcontent, rfl⟩

theorem toJson_wholeSeconds (x : Resource kind) : x.wholeSeconds.toJson = x.toJson := by
  simp only [toJson, ownMembers, wholeSeconds, Metadata.toJson_wholeSeconds]

theorem wholeSeconds_eq {x : Resource kind} (h : ∀ t ∈ x.metadata.times, t.nanos = 0) :
    x.wholeSeconds = x := by
  simp only [wholeSeconds, Metadata.wholeSeconds_eq h]

section Read

variable {σ : Type} [Source σ] [LawfulSource σ]

/-- The metadata of a custom resource that was read is canonical. -/
theorem isCanonical_of_ofJson? (hkind : kind = .frontend ∨ kind = .anchor) {source : σ}
    {x : Resource kind} (h : ofJson? kind source = some x) : x.metadata.IsCanonical := by
  obtain ⟨members, -, h⟩ := Option.bind_eq_some_iff.1 h
  obtain ⟨metadata, hmetadata, h⟩ := Option.bind_eq_some_iff.1 h
  obtain ⟨content, -, h⟩ := Option.bind_eq_some_iff.1 h
  obtain rfl := Option.some.inj h
  have hrequired : required? Metadata.ofJson? members "metadata" = some metadata := by
    rcases hkind with rfl | rfl <;> exact hmetadata
  obtain ⟨found, hread⟩ := exists_of_required? hrequired
  exact Metadata.isCanonical_of_ofJson? hread

/-- Custom resources survive being stored. One with metadata that was ever read, and without
fractions of seconds, is read as it was written, whatever its specification and status are. And one
that was read, in whatever spelling, is read again after it was written, and is then written the
same way. -/
theorem custom_resource_survives_storage (hkind : kind = .frontend ∨ kind = .anchor)
    (x : Resource kind) (hyears : ∀ t ∈ x.metadata.times, t.IsFourDigit) :
    ((∃ source : σ, Metadata.ofJson? source = some x.metadata) →
      (∀ t ∈ x.metadata.times, t.nanos = 0) → ofJson? kind x.toJson = some x) ∧
    ((∃ source : σ, ofJson? kind source = some x) →
      (ofJson? kind x.toJson).map toJson = some x.toJson) := by
  constructor
  · intro hmetadata hwhole
    obtain ⟨source, hread⟩ := hmetadata
    rw [ofJson?_toJson hkind (Metadata.isCanonical_of_ofJson? hread) hyears, wholeSeconds_eq hwhole]
  · intro hresource
    obtain ⟨source, hread⟩ := hresource
    rw [ofJson?_toJson hkind (isCanonical_of_ofJson? hkind hread) hyears, Option.map_some,
      toJson_wholeSeconds]

end Read

/-- A frontend in a loose spelling: of another version, with arrays for records, a null, a member
that nobody asks for, and a local time with a fraction of a second. -/
def looseFrontend : Json :=
  .obj [
    ("apiVersion", .int 7),
    ("metadata", .obj [
      ("creationTimestamp", .str "2024-03-01 1:30:00.5+02:00"),
      ("labels", .null),
      ("name", .str "blog")]),
    ("note", .bool true),
    ("spec", .arr [.str "blog:1", .int 80, .null, .null, .bool true,
      .arr [.arr [.str "MODE"], .obj [("value", .str "fast")]]]),
    ("status", .arr [])]

/-- The frontend that is spelt so. -/
def looseFrontendRead : Resource .frontend where
  metadata := {
    creationTimestamp? := some ⟨2024, 2, 29, 23, 30, 0, 500000000⟩
    name? := some "blog" }
  content := {
    spec := {
      imageName := "blog:1"
      port := 80
      isHost := true
      environmentVariables? := some [⟨"MODE", ""⟩, ⟨"", "fast"⟩] }
    hasStatus := true }

theorem looseFrontend_survives_storage :
    ofJson? .frontend looseFrontend = some looseFrontendRead ∧
      (ofJson? .frontend looseFrontendRead.toJson).map toJson = some looseFrontendRead.toJson ∧
      ofJson? .frontend looseFrontendRead.wholeSeconds.toJson =
        some looseFrontendRead.wholeSeconds := by
  have hread : ofJson? .frontend looseFrontend = some looseFrontendRead := rfl
  have hmetadata : Metadata.ofJson? looseFrontendRead.wholeSeconds.metadata.toJson =
      some looseFrontendRead.wholeSeconds.metadata := rfl
  refine ⟨hread, ?_, ?_⟩
  · exact (custom_resource_survives_storage (.inl rfl) looseFrontendRead (by decide)).2
      ⟨looseFrontend, hread⟩
  · exact (custom_resource_survives_storage (.inl rfl) looseFrontendRead.wholeSeconds
      (by decide)).1 ⟨_, hmetadata⟩ (by decide)

end Resource

end EdgeOperator
