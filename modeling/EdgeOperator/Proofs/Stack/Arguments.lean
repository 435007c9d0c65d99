import EdgeOperator.Proofs.ObjectKey
import EdgeOperator.Stack

set_option autoImplicit false

/-! # The command line of the controller

The controller is told by flags which objects it works with. What a flag is set to can be read off
the command line, since no flag is taken for another one (`flagValue?_flagArgument`).

An argument may refer to a variable of the container, `$(NAME)`, and then it is read with the value
of the variable in its place. That is done by the API, so here it is what is said of it there
(`Container.Starts`), and `expand` is a way of reading that does so. -/

namespace EdgeOperator

/-! ## Flags -/

/-- The argument that sets a flag. -/
def flagArgument (flag value : String) : String :=
  "--" ++ flag ++ "=" ++ value

/-- What an argument sets a flag to; `none` if it sets another one or none at all. -/
def flagValue? (flag argument : String) : Option String :=
  (argument.toList.dropPrefix? (flagArgument flag "").toList).map String.ofList

theorem toList_flagArgument (flag value : String) :
    (flagArgument flag value).toList = '-' :: '-' :: (flag.toList ++ '=' :: value.toList) := by
  have hdashes : "--".toList = ['-', '-'] := rfl
  have hequals : "=".toList = ['='] := rfl
  simp only [flagArgument, String.toList_append, hdashes, hequals, List.append_assoc,
    List.cons_append, List.nil_append]

theorem flagValue?_eq_some {flag argument value : String} :
    flagValue? flag argument = some value ↔ argument = flagArgument flag value := by
  simp only [flagValue?, Option.map_eq_some_iff, List.dropPrefix?_eq_some_iff, beq_iff_eq,
    exists_eq_right]
  constructor
  · rintro ⟨rest, harg, rfl⟩
    refine String.toList_inj.1 (harg.trans ?_)
    simp [toList_flagArgument]
  · rintro rfl
    exact ⟨value.toList, by simp [toList_flagArgument], String.ofList_toList⟩

/-- No flag is taken for another one. -/
theorem flagValue?_flagArgument {flag other : String} (hflag : '=' ∉ flag.toList)
    (hother : '=' ∉ other.toList) (value : String) :
    flagValue? flag (flagArgument other value) = if other = flag then some value else none := by
  split
  · next h => exact flagValue?_eq_some.2 (by rw [h])
  · next hne =>
    refine Option.eq_none_iff_forall_ne_some.2 fun found hfound => hne ?_
    have hlists := congrArg String.toList (flagValue?_eq_some.1 hfound)
    simp only [toList_flagArgument, List.cons.injEq, true_and] at hlists
    exact String.toList_inj.1 (segment_inj hother hflag hlists).1

/-! ## Containers -/

namespace Container

/-- Where the value of a variable comes from; of two variables with one name the later counts. -/
def source? (container : Container) (name : String) : Option EnvironmentSource :=
  (container.environment.reverse.find? fun v => v.name = name).map (·.source)

/-- What a flag is set to, by each argument that sets it. -/
def values (container : Container) (read : String → String) (flag : String) : List String :=
  (container.args?.getD []).filterMap fun argument => flagValue? flag (read argument)

/-- What the API says of a container that starts in a namespace: which values its variables have,
and how its arguments are read. -/
structure Starts (container : Container) (scope : String) (value? : String → Option String)
    (read : String → String) : Prop where
  namespace_eq : ∀ name, container.source? name = some (.field "metadata.namespace") →
    value? name = some scope
  read_empty : read "" = ""
  read_plain : ∀ text rest, '$' ∉ text.toList → read (text ++ rest) = text ++ read rest
  read_reference : ∀ name value rest, ')' ∉ name.toList → value? name = some value →
    read ("$(" ++ name ++ ")" ++ rest) = value ++ read rest

variable {container : Container} {scope : String} {value? : String → Option String}
  {read : String → String}

theorem Starts.read_eq (h : container.Starts scope value? read) {text : String}
    (htext : '$' ∉ text.toList) : read text = text := by
  simpa [h.read_empty] using h.read_plain text "" htext

theorem Starts.read_flagArgument (h : container.Starts scope value? read) {flag : String}
    (hflag : '$' ∉ flag.toList) (value : String) :
    read (flagArgument flag value) = flagArgument flag (read value) := by
  refine h.read_plain ("--" ++ flag ++ "=") value ?_
  simpa [String.toList_append] using hflag

/-- The values of a flag are told by the arguments that set flags. -/
theorem values_eq {program flag : String} {flags : List (String × String)}
    (hargs : container.args? = some (program :: flags.map fun f => flagArgument f.1 f.2))
    (hprogram : flagValue? flag (read program) = none)
    (hread : ∀ f ∈ flags, read (flagArgument f.1 f.2) = flagArgument f.1 (read f.2))
    (hflag : '=' ∉ flag.toList) (hflags : ∀ f ∈ flags, '=' ∉ f.1.toList) :
    container.values read flag = (flags.filter fun f => f.1 = flag).map fun f => read f.2 := by
  have hvalues : container.values read flag =
      flags.filterMap fun f => flagValue? flag (read (flagArgument f.1 f.2)) := by
    simp only [values, hargs, Option.getD_some, List.filterMap_cons, hprogram, List.filterMap_map,
      Function.comp_def]
  rw [hvalues]
  clear hargs hvalues
  induction flags with
  | nil => rfl
  | cons f rest ih =>
    have hrest := ih (fun g hg => hread g (List.mem_cons_of_mem _ hg))
      (fun g hg => hflags g (List.mem_cons_of_mem _ hg))
    rw [List.filterMap_cons, hread f List.mem_cons_self,
      flagValue?_flagArgument hflag (hflags f List.mem_cons_self), hrest]
    by_cases h : f.1 = flag <;> simp [h]

end Container

/-! ## References to variables -/

/-- What is read for an argument, some characters of which are to be left out: a reference to a
variable gives way to its value, a reference to nothing stays, and of two dollar signs one is
left. -/
def expandFrom (value? : String → Option String) : Nat → List Char → List Char
  | _, [] => []
  | skip + 1, _ :: rest => expandFrom value? skip rest
  | 0, c :: rest =>
    match c, rest with
    | '$', '$' :: _ => '$' :: expandFrom value? 1 rest
    | '$', '(' :: more =>
      let name := more.takeWhile (· ≠ ')')
      if ')' ∈ more then
        ((value? (String.ofList name)).map String.toList).getD ("$(".toList ++ name ++ [')']) ++
          expandFrom value? (name.length + 2) rest
      else '$' :: '(' :: expandFrom value? 1 rest
    | _, _ => c :: expandFrom value? 0 rest

/-- What is read for an argument. -/
def expand (value? : String → Option String) (argument : String) : String :=
  String.ofList (expandFrom value? 0 argument.toList)

section expand

variable {value? : String → Option String}

theorem expandFrom_eq_drop (skip : Nat) (chars : List Char) :
    expandFrom value? skip chars = expandFrom value? 0 (chars.drop skip) := by
  induction chars generalizing skip with
  | nil => simp [expandFrom]
  | cons c rest ih =>
    cases skip with
    | zero => rfl
    | succ skip => exact ih skip

theorem expandFrom_plain {text : List Char} (h : '$' ∉ text) (rest : List Char) :
    expandFrom value? 0 (text ++ rest) = text ++ expandFrom value? 0 rest := by
  induction text with
  | nil => rfl
  | cons c text ih =>
    obtain ⟨hne, htext⟩ := not_or.1 (mt List.mem_cons.2 h)
    rw [List.cons_append, List.cons_append, ← ih htext, expandFrom]
    all_goals exact fun _ hdollar _ => hne hdollar.symm

theorem expandFrom_reference {name : List Char} (h : ')' ∉ name) {value : String}
    (hvalue : value? (String.ofList name) = some value) (rest : List Char) :
    expandFrom value? 0 ('$' :: '(' :: (name ++ ')' :: rest)) =
      value.toList ++ expandFrom value? 0 rest := by
  have hname : (name ++ ')' :: rest).takeWhile (· ≠ ')') = name := by
    rw [List.takeWhile_append_of_pos fun c hc => by simpa using ne_of_mem_of_not_mem hc h]
    simp
  rw [expandFrom]
  simp only [hname, hvalue, List.mem_append, List.mem_cons, true_or, or_true, if_true,
    Option.map_some, Option.getD_some]
  have hskip : ('(' :: (name ++ ')' :: rest)).drop (name.length + 2) = rest := by
    simp [List.drop_append, List.drop_eq_nil_of_le]
  rw [expandFrom_eq_drop, hskip]

/-- The value of a variable in a pod of some name and namespace. -/
def Container.valueIn (container : Container) (pod scope name : String) : Option String :=
  match container.source? name with
  | some (.value text) => some text
  | some (.field path) =>
    if path = "metadata.name" then some pod
    else if path = "metadata.namespace" then some scope
    else none
  | none => none

/-- Arguments that are read in this way are read as the API says. -/
theorem Container.starts_expand (container : Container) (pod scope : String) :
    container.Starts scope (container.valueIn pod scope)
      (expand (container.valueIn pod scope)) where
  namespace_eq name h := by simp [valueIn, h]
  read_empty := rfl
  read_plain text rest htext := by
    refine String.toList_inj.1 ?_
    simp only [expand, String.toList_append, String.toList_ofList, expandFrom_plain htext]
  read_reference name value rest hname hvalue := by
    have hopen : "$(".toList = ['$', '('] := rfl
    have hclose : ")".toList = [')'] := rfl
    refine String.toList_inj.1 ?_
    simp only [expand, String.toList_append, String.toList_ofList, hopen, hclose,
      List.append_assoc, List.cons_append, List.nil_append]
    exact expandFrom_reference hname (by rwa [String.ofList_toList]) _

/-- A reference whose dollar sign is doubled is not one. -/
example : expand (fun _ => some "edge-ns") "$$(SCOPE)=$(SCOPE)" = "$(SCOPE)=edge-ns" := by decide

end expand

/-! ## The controller -/

namespace Stack

/-- The flags that the controller is started with. -/
def controllerFlags (owner : Owner) : List (String × String) :=
  let scope := Names.scope owner.name
  [("election-id", leaderLock),
    ("controller-class", Names.ingressClassController scope),
    ("ingress-class", Names.ingressClass scope),
    ("configmap", "$(POD_NAMESPACE)/" ++ Names.controller),
    ("validating-webhook", ":8443"),
    ("validating-webhook-certificate", certificatePath ++ "cert"),
    ("validating-webhook-key", certificatePath ++ "key"),
    ("tcp-services-configmap", Names.tcpServicesConfigMap owner.name)]

theorem args?_controllerContainer (owner : Owner) :
    (controllerContainer owner).args? = some ("/nginx-ingress-controller" ::
      (controllerFlags owner).map fun f => flagArgument f.1 f.2) := rfl

theorem plain_of_mem_controllerFlags {owner : Owner} {f : String × String}
    (h : f ∈ controllerFlags owner) : '=' ∉ f.1.toList ∧ '$' ∉ f.1.toList := by
  have hnames : f.1 ∈ (controllerFlags owner).map Prod.fst := List.mem_map_of_mem h
  revert hnames
  generalize f.1 = name
  simp only [controllerFlags, List.map_cons, List.map_nil, List.mem_cons, List.not_mem_nil,
    or_false]
  rintro (rfl | rfl | rfl | rfl | rfl | rfl | rfl | rfl) <;> decide

/-- What the flags of the controller are set to, whatever is read for their values. -/
theorem values_controllerContainer (owner : Owner) {read : String → String}
    (hprogram : read "/nginx-ingress-controller" = "/nginx-ingress-controller")
    (hread : ∀ flag value, '$' ∉ flag.toList →
      read (flagArgument flag value) = flagArgument flag (read value))
    {flag : String} (hflag : '=' ∉ flag.toList) :
    (controllerContainer owner).values read flag =
      ((controllerFlags owner).filter fun f => f.1 = flag).map fun f => read f.2 := by
  refine Container.values_eq (args?_controllerContainer owner) ?_ ?_ hflag ?_
  · refine Option.eq_none_iff_forall_ne_some.2 fun value hvalue => ?_
    have hlists := congrArg String.toList (flagValue?_eq_some.1 (hprogram ▸ hvalue))
    rw [toList_flagArgument] at hlists
    exact absurd (List.cons.inj hlists).1 (by decide)
  · exact fun f hf => hread f.1 f.2 (plain_of_mem_controllerFlags hf).2
  · exact fun f hf => (plain_of_mem_controllerFlags hf).1

end Stack

end EdgeOperator
