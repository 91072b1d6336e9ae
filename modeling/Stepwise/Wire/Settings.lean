/-
# Settings as documents

* `Settings.toJson`, `Settings.ofJson?` : what is left out is as in the standard settings.
-/
import Stepwise.Process.Settings
import Stepwise.Wire.Snapshot

namespace Stepwise.Settings

def fields : List String := ["main_process", "locale", "viewport", "auto_continue"]

def toJson (s : Settings) : Json :=
  .obj [("main_process", .str s.mainProcess), ("locale", .str s.locale),
    ("viewport", s.viewport.toJson), ("auto_continue", .bool s.autoContinue)]

def ofJson? (j : Json) : Option Settings := do
  let ms ← j.record? fields
  let mainProcess ← ms.optional? "main_process" standard.mainProcess Json.string?
  let locale ← ms.optional? "locale" standard.locale Json.string?
  let viewport ← ms.optional? "viewport" standard.viewport Viewport.ofJson?
  let autoContinue ← ms.optional? "auto_continue" standard.autoContinue Json.bool?
  some ⟨mainProcess, locale, viewport, autoContinue⟩

end Stepwise.Settings
