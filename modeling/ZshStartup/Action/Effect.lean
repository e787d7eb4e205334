import ZshStartup.Error
import ZshStartup.Files.System

/-! Operations of the system as steps of an action, which stops at the first error. -/

namespace ZshStartup.Effect

open Files (Refusal)

variable {m : Type → Type} [Monad m] {α : Type}

/-- A step that cannot fail. -/
def ask (operation : m α) : ExceptT Error m α :=
  ExceptT.lift operation

/-- A step that fails if the system refuses it; the error names the path. -/
def access (path : String) (operation : m (Except Refusal α)) : ExceptT Error m α :=
  ExceptT.mk ((·.mapError (.io path)) <$> operation)

/-- A step whose result was found before. -/
def settle (result : Except Error α) : ExceptT Error m α :=
  ExceptT.mk (pure result)

end ZshStartup.Effect
