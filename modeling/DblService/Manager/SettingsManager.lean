import DblService.Db.Effects

/-!
# The settings manager

`SettingsManager` reads and writes the `settings` table.  A read that raises is
answered like a key that is not there.
-/

namespace DblService

open Framework Session

namespace SettingsManager

def get (key default : String) : Code String := do
  let value ← catchRuntime
    (do
      let row ← queryOne (.getSetting key)
      pure (row.getD ""))
    fun _ => pure ""
  pure (if value = "" then default else value)

def set (key value : String) : Code Bool := committed [.insertOrReplaceSetting key value]

def remove (key : String) : Code Bool := committed [.deleteSetting key]

end SettingsManager

/-- The value of a setting, or the default for an empty or missing one. -/
def Db.settingOr (db : Db) (key default : String) : String :=
  let value := (db.setting key).getD ""
  if value = "" then default else value

private theorem Db.rows_getSetting (db : Db) (key : String) :
    ((Query.getSetting key).rows db).head? = db.setting key := by
  simp only [Query.rows, Db.setting, lookup, List.head?_map, List.head?_filter]

namespace Store

variable (s : Store)

/-- A busy database reads as a setting that is not there. -/
theorem exec_settingsGet (key default : String) (hs : s.held = false) :
    s.exec (SettingsManager.get key default) =
      if s.ambient.faulty then some (.ok default, s.afterRaise s.conn 1)
      else some (.ok (s.conn.view.settingOr key default), s.after s.conn 1) := by
  rw [SettingsManager.get, exec_bind, exec_catchRuntime, exec_bind, exec_queryOne s _ hs]
  cases hf : s.ambient.faulty with
  | true => rfl
  | false =>
    simp only [Db.settingOr, ← Db.rows_getSetting]
    rfl

open Framework.Code in
theorem keeps_settingsGet {J : Connection → Prop} {A : Option Response → Prop}
    (key default : String) : Keeps handle (Holds J A) (SettingsManager.get key default) :=
  (keeps_catchRuntime ((keeps_queryOne _).bind fun _ => Keeps.pure _) fun _ => Keeps.pure _).bind
    fun _ => Keeps.pure _

theorem exec_settingsSet (key value : String) (hs : s.held = false) :
    ∃ done s', s.exec (SettingsManager.set key value) = some (.ok done, s') ∧
      Transacted [.insertOrReplaceSetting key value] s done s' :=
  exec_committed s _ hs

theorem exec_settingsRemove (key : String) (hs : s.held = false) :
    ∃ done s', s.exec (SettingsManager.remove key) = some (.ok done, s') ∧
      Transacted [.deleteSetting key] s done s' :=
  exec_committed s _ hs

end Store

end DblService
