import EdgeOperator.Error
import EdgeOperator.Resource

set_option autoImplicit false

/-! # Programs of API calls

All the operator does to a cluster is a sequence of single calls, each of which may depend on the
answers to the ones before. A `Program` is such a sequence as data: it has ended, or it makes a call
and goes on with the answer. It says nothing about who answers, so the same pass can be run on a
cluster in memory or over the wire, and the calls of several programs can be interleaved.

`run_bind` says that a program in two parts runs one part after the other. -/

namespace EdgeOperator

/-- A call to the API. -/
inductive Request where
  | get (kind : Kind) (key : ObjectKey)
  | list (kind : Kind) (namespaceName? : Option String)
  | create (kind : Kind) (object : Resource kind)
  | replace (kind : Kind) (object : Resource kind)
  | delete (kind : Kind) (key : ObjectKey)

/-- What is answered to a call: a look-up may find nothing, and writing an object gives the object
as it is then. -/
@[reducible] def Request.Answer : Request → Type
  | .get kind _ => Option (Resource kind)
  | .list kind _ => List (Resource kind)
  | .create kind _ => Resource kind
  | .replace kind _ => Resource kind
  | .delete _ _ => Unit

/-- A sequence of calls, each depending on the answers so far, and the result at its end. -/
inductive Program (α : Type) where
  | done (result : Except OperatorError α)
  | call (request : Request) (next : Except OperatorError request.Answer → Program α)

namespace Program

variable {α β σ : Type}

/-! ## Building programs -/

/-- Goes on with the result of a program, unless it failed. -/
def bind : Program α → (α → Program β) → Program β
  | .done (.ok value), next => next value
  | .done (.error e), _ => .done (.error e)
  | .call request rest, next => .call request fun answer => (rest answer).bind next

instance : Monad Program where
  pure value := .done (.ok value)
  bind := bind

/-- The program that fails at once. -/
def fail (e : OperatorError) : Program α :=
  .done (.error e)

/-- A call whose failure is looked at. -/
def attempt (request : Request) : Program (Except OperatorError request.Answer) :=
  .call request fun answer => .done (.ok answer)

/-- A call whose failure ends the program. -/
def perform (request : Request) : Program request.Answer :=
  .call request .done

/-- Looks up an object. -/
def get (kind : Kind) (key : ObjectKey) : Program (Option (Resource kind)) :=
  perform (.get kind key)

/-- Lists the objects of a kind, in one namespace or everywhere. -/
def list (kind : Kind) (namespaceName? : Option String) : Program (List (Resource kind)) :=
  perform (.list kind namespaceName?)

/-- Replaces an object. -/
def replace {kind : Kind} (object : Resource kind) : Program (Resource kind) :=
  perform (.replace kind object)

/-! ## Running programs -/

/-- Runs a program against something that answers calls and changes by doing so. -/
def run (serve : (request : Request) → σ → Except OperatorError request.Answer × σ) :
    Program α → σ → Except OperatorError α × σ
  | .done result, state => (result, state)
  | .call request next, state =>
    let (answer, state) := serve request state
    (next answer).run serve state

theorem run_bind (serve : (request : Request) → σ → Except OperatorError request.Answer × σ)
    (program : Program α) (next : α → Program β) (state : σ) :
    (program >>= next).run serve state =
      match program.run serve state with
      | (.ok value, state) => (next value).run serve state
      | (.error e, state) => (.error e, state) := by
  induction program generalizing state with
  | done result => cases result <;> rfl
  | call request rest ih => exact ih _ _

end Program

end EdgeOperator
