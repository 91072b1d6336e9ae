/-
# Client settings

* `Settings` : the main process and how it is shown;
* `Settings.standard` : the settings of a project that makes none.
-/
import Stepwise.Process.Snapshot

namespace Stepwise

/-- The settings of a client. -/
structure Settings where
  /-- The process that is started after login. -/
  mainProcess : String
  /-- The locale of users who have none. -/
  locale : String
  viewport : Viewport
  /-- Steps that go on by themselves do not wait for the user. -/
  autoContinue : Bool
deriving DecidableEq, Inhabited

/-- The settings of a project that makes none. -/
def Settings.standard : Settings := ⟨"Main", "en-US", ⟨1024, 768⟩, true⟩

end Stepwise
