import CallDiagram.Action.Basic

/-!
# Loading settings

Settings come from the environment, to which the variables of an environment file are added first.
Where such a file is looked for and how it is read is left to the library that does it.
-/

namespace CallDiagram.Action

/-- The settings of an environment with the variables of the environment file. -/
def loadSettings (env : Environment) : Action Settings := do
  let w ← get
  let env ← ofExcept .environment (w.extend env w.files)
  ofExcept .settings (Settings.ofEnvironment env)

end CallDiagram.Action
