import WebhookRelay.Call

/-!
# Programs

An activity of the pipeline is a program: it ends with a value, or it makes a call
and goes on with the answer. The same program can be run alone or interleaved with
others, call by call.
-/

set_option autoImplicit false

namespace WebhookRelay

inductive Program (α : Type) where
  | done (value : α)
  | call (request : Call) (next : request.Answer → Program α)

namespace Program

variable {α β : Type}

def bind (program : Program α) (after : α → Program β) : Program β :=
  match program with
  | .done value => after value
  | .call request next => .call request fun answer => (next answer).bind after

instance : Monad Program where
  pure := .done
  bind := bind

def ask (request : Call) : Program request.Answer :=
  .call request .done

@[simp] theorem done_bind (value : α) (after : α → Program β) :
    (done value).bind after = after value := rfl

@[simp] theorem call_bind (request : Call) (next : request.Answer → Program α)
    (after : α → Program β) :
    (call request next).bind after = call request fun answer => (next answer).bind after :=
  rfl

theorem bind_assoc {γ : Type} (program : Program α) (f : α → Program β)
    (g : β → Program γ) : (program.bind f).bind g = program.bind fun a => (f a).bind g := by
  induction program with
  | done value => rfl
  | call request next ih => simp [ih]

end Program

abbrev Attempt (ε α : Type) := ExceptT ε Program α

namespace Attempt

variable {ε ε' α : Type}

def asking (program : Program (Except ε' α)) (restate : ε' → ε) : Attempt ε α :=
  ExceptT.mk do
    match ← program with
    | .ok value => return .ok value
    | .error error => return .error (restate error)

def outcome (attempt : Attempt ε α) : Program (Except ε α) :=
  ExceptT.run attempt

end Attempt

end WebhookRelay
