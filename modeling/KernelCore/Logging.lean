import KernelCore.Traced

/-!
# The level of the log

The log shows events up to a level that can be changed at any time. Installing the log resets
the level; another listener is always there before it, which the log notes.
-/

namespace KernelCore

namespace LevelFilter

def installed : LevelFilter := some .debug

/-- Installs the log where there already is a listener. -/
def install : Traced LevelFilter := do
  Traced.note .listenerInstalled
  return installed

end LevelFilter

end KernelCore
