import FileDepot.Settings.File

/-!
# Held settings

Settings are loaded once and kept until they are loaded again with a path or forgotten. A step that
fails changes nothing, since it gives no new holder.

Contents:

* `SettingsHolder` — the settings that are held, and the path with which they were loaded;
* `SettingsHolder.load`, `SettingsHolder.current` — loading;
* `SettingsHolder.get` — the setting under a dotted key.
-/

namespace FileDepot

/-- The settings that are held, and the path with which they were loaded. -/
structure SettingsHolder where
  settings : Option Settings := none
  path : Option String := none
  deriving Repr, Inhabited

namespace SettingsHolder

/-- The settings: those of the file at a path where one is given, and else those that are held. -/
def load (h : SettingsHolder) (source : SettingsSource) (path : Option String) :
    Except Failure (Settings × SettingsHolder) :=
  match h.settings, path with
  | some settings, none => .ok (settings, h)
  | _, path => do
    let settings ← source.settings path
    .ok (settings, ⟨some settings, path⟩)

/-- The settings that are held, loaded first if there are none. -/
def current (h : SettingsHolder) (source : SettingsSource) :
    Except Failure (Settings × SettingsHolder) :=
  h.load source none

/-- The setting under a dotted key, or a value for its absence. -/
def get (h : SettingsHolder) (source : SettingsSource) (key : String) (absent : Value) :
    Except Failure (Value × SettingsHolder) := do
  let (settings, h) ← h.current source
  .ok ((settings.get? key).getD absent, h)

end SettingsHolder

end FileDepot
