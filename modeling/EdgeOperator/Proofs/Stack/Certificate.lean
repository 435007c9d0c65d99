import EdgeOperator.Proofs.Stack.References

set_option autoImplicit false

/-! # The certificate of the admission webhook

Two jobs bring the certificate of the admission webhook into being: one makes it, for the names of
the service that the webhook calls, and keeps it in a secret that the controller mounts, the other
puts it into the webhook. All of them have to agree on the secret and on the namespace it lives in,
and the jobs run under the account of the admission jobs (`Stack.CertificateLinks`).

The last link is missing: the second job is told a name under which no anchor has a webhook
(`Stack.certificate_misses_webhook`). -/

namespace EdgeOperator

/-! ## Jobs and secrets -/

namespace Blueprint

/-- The account that the pods of a job run under. -/
def jobAccount? (job : Blueprint .job) : Option ObjectKey :=
  job.plan.spec.serviceAccountName?.map fun name => ⟨name, job.metadata.namespaceName?⟩

/-- The secrets that the containers of a deployment find under a path. -/
def secretsAt (deployment : Blueprint .deployment) (path : String) : List String :=
  let pod := deployment.plan.template.spec
  let mounts := (pod.containers.flatMap (·.volumeMounts?.getD [])).filter (·.mountPath = path)
  mounts.flatMap fun mount =>
    ((pod.volumes?.getD []).filter (·.name = mount.name)).map (·.secretName)

end Blueprint

/-- The entries of a list that is written with commas. -/
def entries (text : String) : List String :=
  (text.toList.splitOn ',').map String.ofList

theorem entries_eq_singleton {text : String} (h : ',' ∉ text.toList) : entries text = [text] := by
  rw [entries, List.splitOn_eq_singleton h]
  simp

theorem entries_append {first : String} (h : ',' ∉ first.toList) (rest : String) :
    entries (first ++ "," ++ rest) = first :: entries rest := by
  have hcomma : ",".toList = [','] := rfl
  have hlists : (first ++ "," ++ rest).toList = first.toList ++ ',' :: rest.toList := by
    simp [String.toList_append, hcomma]
  rw [entries, hlists, List.splitOn_append_cons_self_of_not_mem h]
  simp [entries]

namespace Stack

/-! ## The flags of the jobs -/

/-- The flags of the job that makes the certificate. -/
def createFlags : List (String × String) :=
  [("host", Names.controllerAdmission ++ "," ++ Names.controllerAdmission ++
      ".$(POD_NAMESPACE).svc"),
    ("namespace", "$(POD_NAMESPACE)"),
    ("secret-name", certificateSecret)]

/-- The flags of the job that puts the certificate into the webhook. -/
def patchFlags : List (String × String) :=
  [("webhook-name", Names.admission),
    ("namespace", "$(POD_NAMESPACE)"),
    ("patch-mutating", "false"),
    ("secret-name", certificateSecret),
    ("patch-failure-policy", "Fail")]

/-- The container of a certificate job that does one step, with flags. -/
def stepContainer (step : String) (flags : List (String × String)) : Container :=
  certificateContainer step (step :: flags.map fun f => flagArgument f.1 f.2)

variable {owner : Owner} {scope step : String} {flags : List (String × String)}
  {value? : String → Option String} {read : String → String}

/-- The flags of a step are read one by one. -/
theorem values_stepContainer (h : (stepContainer step flags).Starts scope value? read)
    (hstep : ∀ c ∈ step.toList, c ≠ '$' ∧ c ≠ '-')
    (hflags : ∀ f ∈ flags, '=' ∉ f.1.toList ∧ '$' ∉ f.1.toList) {flag : String}
    (hflag : '=' ∉ flag.toList) :
    (stepContainer step flags).values read flag =
      (flags.filter fun f => f.1 = flag).map fun f => read f.2 := by
  have hread : read step = step := h.read_eq fun hmem => (hstep _ hmem).1 rfl
  refine Container.values_eq rfl ?_ ?_ hflag fun f hf => (hflags f hf).1
  · refine Option.eq_none_iff_forall_ne_some.2 fun value hvalue => ?_
    rw [hread] at hvalue
    have hlists := congrArg String.toList (flagValue?_eq_some.1 hvalue)
    rw [toList_flagArgument] at hlists
    exact (hstep '-' (by simp [hlists])).2 rfl
  · intro f hf
    exact h.read_flagArgument (hflags f hf).2 f.2

/-- The namespace in which a step runs is what its variable is read as. -/
theorem read_namespace (h : (stepContainer step flags).Starts scope value? read) (rest : String) :
    read ("$(POD_NAMESPACE)" ++ rest) = scope ++ read rest := by
  have hsplit : "$(POD_NAMESPACE)" ++ rest = "$(" ++ "POD_NAMESPACE" ++ ")" ++ rest := rfl
  rw [hsplit]
  exact h.read_reference _ _ _ (by decide) (h.namespace_eq _ rfl)

/-! ## The links -/

/-- Whether a job works on the secret that the controller mounts for its certificate, in the
namespace of the controller, and under the account of the admission jobs. -/
structure SharesSecret (owner : Owner) (job : Blueprint .job) (container : Container)
    (read : String → String) : Prop where
  runs : job.plan.spec.containers = [container]
  namespace_eq : job.metadata.namespaceName? = (controllerDeployment owner).metadata.namespaceName?
  namespace_told : (container.values read "namespace").map some =
    [(controllerDeployment owner).metadata.namespaceName?]
  secret_told : container.values read "secret-name" =
    (controllerDeployment owner).secretsAt certificatePath
  account : job.jobAccount? = some (Component.admissionServiceAccount.key owner)

theorem secretsAt_certificatePath (owner : Owner) :
    (controllerDeployment owner).secretsAt certificatePath = [certificateSecret] := by
  simp [Blueprint.secretsAt, controllerDeployment, controllerContainer]

/-- A step that is told its own namespace and the secret shares the secret with the controller. -/
theorem sharesSecret_of_flags {name : String}
    (h : (stepContainer step flags).Starts (Names.scope owner.name) value? read)
    (hstep : ∀ c ∈ step.toList, c ≠ '$' ∧ c ≠ '-')
    (hflags : ∀ f ∈ flags, '=' ∉ f.1.toList ∧ '$' ∉ f.1.toList)
    (hnamespace : (flags.filter fun f => f.1 = "namespace") = [("namespace", "$(POD_NAMESPACE)")])
    (hsecret : (flags.filter fun f => f.1 = "secret-name") = [("secret-name", certificateSecret)]) :
    SharesSecret owner (certificateJob owner name (stepContainer step flags))
      (stepContainer step flags) read where
  runs := rfl
  namespace_eq := rfl
  namespace_told := by
    have hread : read "$(POD_NAMESPACE)" = Names.scope owner.name := by
      have happend := read_namespace h ""
      rwa [String.append_empty, h.read_empty, String.append_empty] at happend
    rw [values_stepContainer h hstep hflags (by decide), hnamespace]
    show [some (read "$(POD_NAMESPACE)")] = _
    rw [hread]
    rfl
  secret_told := by
    rw [values_stepContainer h hstep hflags (by decide), hsecret, secretsAt_certificatePath]
    show [read certificateSecret] = _
    rw [h.read_eq (by decide)]
  account := rfl

/-- The names that a step is told the certificate is for. -/
def hosts (container : Container) (read : String → String) : List String :=
  (container.values read "host").flatMap entries

/-- How far the objects of a stack agree on the certificate of its webhook, given how the arguments
of the two jobs are read. -/
structure CertificateLinks (owner : Owner) (readCreate readPatch : String → String) : Prop where
  /-- The controller mounts one secret for its certificate. -/
  mounts : ∃ secret, (controllerDeployment owner).secretsAt certificatePath = [secret]
  /-- The first job makes the certificate there. -/
  creates : SharesSecret owner (admissionCreateJob owner) (stepContainer "create" createFlags)
    readCreate
  /-- The second job takes it from there. -/
  patches : SharesSecret owner (admissionPatchJob owner) (stepContainer "patch" patchFlags)
    readPatch
  /-- The certificate is for the service that the webhook calls. -/
  certifies : ∃ webhook, (admissionWebhook owner).plan = [webhook] ∧
    webhook.serviceName ∈ hosts (stepContainer "create" createFlags) readCreate ∧
    (',' ∉ owner.name.toList →
      hosts (stepContainer "create" createFlags) readCreate =
        [webhook.serviceName, webhook.serviceName ++ "." ++ webhook.serviceNamespace ++ ".svc"])
  /-- The second job is told one webhook, and that is the webhook of no anchor. -/
  misses : ∃ name, (stepContainer "patch" patchFlags).values readPatch "webhook-name" = [name] ∧
    ∀ other : Owner, (Component.admissionWebhook.key other).name ≠ name

theorem createFlags_plain : ∀ f ∈ createFlags, '=' ∉ f.1.toList ∧ '$' ∉ f.1.toList := by
  simp only [createFlags, List.forall_mem_cons]
  decide

theorem patchFlags_plain : ∀ f ∈ patchFlags, '=' ∉ f.1.toList ∧ '$' ∉ f.1.toList := by
  simp only [patchFlags, List.forall_mem_cons]
  decide

theorem create_sharesSecret
    (h : (stepContainer "create" createFlags).Starts (Names.scope owner.name) value? read) :
    SharesSecret owner (admissionCreateJob owner) (stepContainer "create" createFlags) read :=
  sharesSecret_of_flags h (by simp) createFlags_plain rfl rfl

theorem patch_sharesSecret
    (h : (stepContainer "patch" patchFlags).Starts (Names.scope owner.name) value? read) :
    SharesSecret owner (admissionPatchJob owner) (stepContainer "patch" patchFlags) read :=
  sharesSecret_of_flags h (by simp) patchFlags_plain rfl rfl

/-- The certificate is made for the service, by its name alone and by its name in the cluster. -/
theorem hosts_create (h : (stepContainer "create" createFlags).Starts scope value? read) :
    hosts (stepContainer "create" createFlags) read =
      Names.controllerAdmission ::
        entries (Names.controllerAdmission ++ "." ++ scope ++ ".svc") := by
  let front := Names.controllerAdmission ++ "," ++ Names.controllerAdmission ++ "."
  have hread : read (front ++ ("$(POD_NAMESPACE)" ++ ".svc")) = front ++ (scope ++ ".svc") := by
    rw [h.read_plain front _ (by decide), read_namespace h, h.read_eq (by decide)]
  have hnames : front ++ (scope ++ ".svc") = Names.controllerAdmission ++ "," ++
      (Names.controllerAdmission ++ "." ++ scope ++ ".svc") := by
    simp only [front, String.append_assoc]
  have hvalues : (stepContainer "create" createFlags).values read "host" =
      [read (front ++ ("$(POD_NAMESPACE)" ++ ".svc"))] := by
    rw [values_stepContainer h (by simp) createFlags_plain (by decide)]
    rfl
  rw [hosts, hvalues, hread, hnames]
  show entries _ ++ [] = _
  rw [List.append_nil, entries_append (by decide)]

theorem name_admissionWebhook_ne (owner : Owner) :
    (Component.admissionWebhook.key owner).name ≠ Names.admission := by
  intro heq
  have hlength := congrArg String.length heq
  simp only [Component.key, ObjectKey.clusterWide, Names.admissionWebhook, String.length_append]
    at hlength
  have hdash : "-".length = 1 := rfl
  omega

/-- Everything about the certificate of the webhook fits together, in whatever way the API starts the
two jobs in their namespace, but the name of the webhook that is to get it: it is a fixed one, and
webhooks are stored under names that follow from their scope. -/
theorem certificate_misses_webhook (owner : Owner) {scope : String}
    {valueCreate? valuePatch? : String → Option String} {readCreate readPatch : String → String}
    (hscope : (admissionCreateJob owner).metadata.namespaceName? = some scope)
    (hcreate : (stepContainer "create" createFlags).Starts scope valueCreate? readCreate)
    (hpatch : (stepContainer "patch" patchFlags).Starts scope valuePatch? readPatch) :
    CertificateLinks owner readCreate readPatch := by
  obtain rfl : Names.scope owner.name = scope := Option.some.inj hscope
  have hhosts := hosts_create hcreate
  exact {
    mounts := ⟨certificateSecret, secretsAt_certificatePath owner⟩
    creates := create_sharesSecret hcreate
    patches := patch_sharesSecret hpatch
    certifies := by
      refine ⟨webhook owner, rfl, ?_, fun howner => ?_⟩
      · rw [hhosts]
        exact List.mem_cons_self ..
      · rw [hhosts, entries_eq_singleton]
        · rfl
        · simp only [Names.scope, String.toList_append, List.mem_append, not_or]
          exact ⟨⟨by decide, howner, by decide⟩, by decide⟩
    misses := by
      refine ⟨Names.admission, ?_, name_admissionWebhook_ne⟩
      rw [values_stepContainer hpatch (by simp) patchFlags_plain (by decide)]
      show [readPatch Names.admission] = _
      rw [hpatch.read_eq (by decide)] }

/-- So it is where references to variables are expanded. -/
theorem edge_certificate_misses_webhook :
    CertificateLinks (ownerOf .anchor "team" "edge")
      (expand ((stepContainer "create" createFlags).valueIn "create-0" "edge-ns"))
      (expand ((stepContainer "patch" patchFlags).valueIn "patch-0" "edge-ns")) :=
  certificate_misses_webhook _ rfl (Container.starts_expand _ "create-0" "edge-ns")
    (Container.starts_expand _ "patch-0" "edge-ns")

/-- The job of the anchor `edge` is to patch a webhook that is not the one of `edge`. -/
theorem edge_webhook_not_patched :
    (Component.admissionPatchJob.blueprint (ownerOf .anchor "team" "edge")).plan.spec.containers =
        [stepContainer "patch" patchFlags] ∧
      (stepContainer "patch" patchFlags).values
        (expand ((stepContainer "patch" patchFlags).valueIn "patch-0" "edge-ns")) "webhook-name" =
          ["ingress-nginx-admission"] ∧
      (Component.admissionWebhook.key (ownerOf .anchor "team" "edge")).name =
        "ingress-nginx-admission-edge-ns" ∧
      (Component.admissionWebhook.blueprint
        (ownerOf .anchor "team" "edge")).toResource.metadata.name? =
          some "ingress-nginx-admission-edge-ns" := by
  refine ⟨rfl, ?_, rfl, rfl⟩
  decide

end Stack

end EdgeOperator
