/-!
# Exceptions and their HTTP status — `service_error_to_http`

The exceptions that leave the service, with the text they carry. The first
four are the classes of `app/services/control_plane.py`; `valueError` is the
engine's own; `integrityError` is what the database driver raises on a
uniqueness violation and `lookupError` what `record_outcome` raises when its
row is gone. `unavailable` stands for whatever else an awaited call raises.
-/

namespace ControlPlane

/-- An exception of the service, by its class. -/
inductive ServiceError
  | authentication (detail : String)
  | authorization (detail : String)
  | notFound (detail : String)
  | quotaExceeded (detail : String)
  | valueError (detail : String)
  | integrityError (constraint : String)
  | lookupError (key : String)
  | unavailable
deriving DecidableEq, Repr

/-- Status code and detail, by class; anything unnamed is a server error. -/
def serviceErrorToHttp : ServiceError → Nat × String
  | .authorization detail => (403, detail)
  | .authentication detail => (401, detail)
  | .notFound detail => (404, detail)
  | .quotaExceeded detail => (429, detail)
  | .valueError detail => (400, detail)
  | .integrityError _ => (500, "internal control-plane error")
  | .lookupError _ => (500, "internal control-plane error")
  | .unavailable => (500, "internal control-plane error")

/-- Exceptions of the language and of pydantic, as far as the modelled code
can raise them. -/
inductive PyError
  | unicodeDecodeError
  | jsonDecodeError
  | validationError (schema : String)
  | valueError
  | keyError (key : String)
  | typeError
  | attributeError
  | overflowError
  | zeroDivisionError
  | recursionError
  | osError
deriving DecidableEq, Repr

/-- `isinstance(exc, ValueError)`: the first three derive from it. -/
def PyError.isValueError : PyError → Bool
  | .unicodeDecodeError => true
  | .jsonDecodeError => true
  | .validationError _ => true
  | .valueError => true
  | _ => false

end ControlPlane
