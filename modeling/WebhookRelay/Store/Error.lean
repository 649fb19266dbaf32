/-!
# Store errors

What an event store or a store of expiring marks can answer instead of doing its
work.
-/

set_option autoImplicit false

namespace WebhookRelay

inductive StoreError where
  | duplicate (key : String)
  | notFound (key : String)
  | unavailable (reason : String)
  deriving DecidableEq, Repr

def StoreError.message : StoreError → String
  | .duplicate key => s!"Duplicate key: {key}"
  | .notFound key => s!"Not found: {key}"
  | .unavailable reason => s!"Store unavailable: {reason}"

end WebhookRelay
