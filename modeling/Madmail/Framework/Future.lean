import Mathlib.Data.List.Basic

namespace Madmail

structure Future (ρ : Type) where
  result : Option ρ := none

namespace Future

/-- `Set`. A future that is set keeps its result, and the call is only logged. -/
def set (f : Future ρ) (result : ρ) : Future ρ :=
  if f.result.isSome then f else { result := some result }

/-- What `GetContext` returns when it does. It waits for a future that is not set,
until the context is done. -/
def getContext (f : Future (Except ε ρ)) (ctxErr : Option ε) : Option (Except ε ρ) :=
  match f.result with
  | some result => some result
  | none => ctxErr.map .error

end Future

end Madmail
