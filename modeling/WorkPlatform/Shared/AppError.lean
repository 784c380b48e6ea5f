import Mathlib.Data.Nat.Notation

/-!
# Shared/AppError — the errors the services throw

`AppError` and the subclasses of `shared/errors/app-errors`, each with the status code it fixes.
The optional `details` are left out: no modelled function reads them.
-/

namespace WorkPlatform

/-- `AppError`: HTTP status, machine-readable code, message. -/
structure AppError where
  statusCode : ℕ
  code : String
  message : String
  deriving DecidableEq, Repr

namespace AppError

def badRequest (code message : String) : AppError := ⟨400, code, message⟩

def unauthorized (code message : String) : AppError := ⟨401, code, message⟩

def forbidden (code message : String) : AppError := ⟨403, code, message⟩

def notFound (resource : String) : AppError := ⟨404, "NOT_FOUND", resource ++ " not found"⟩

def conflict (code message : String) : AppError := ⟨409, code, message⟩

def unprocessable (code message : String) : AppError := ⟨422, code, message⟩

end AppError

end WorkPlatform
