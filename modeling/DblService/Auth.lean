import DblService.Crypto
import DblService.Manager.SettingsManager

/-!
# Authentication

`Auth` holds the token of one connection.  The password is kept as a hash in the
settings, and a client proves that it knows it by hashing it with the token.
-/

namespace DblService

open Framework Session

/-- `auth::Auth`; the token is the text of a random UUID. -/
structure Auth where
  uuid : Uuid
  deriving DecidableEq

namespace Auth

def token (a : Auth) : String := a.uuid.text

private theorem token_length (a : Auth) : a.token.length = 36 := a.uuid.text_length

theorem token_ne_empty (a : Auth) : a.token ≠ "" := by
  intro h
  have hlength := a.token_length
  rw [h] at hlength
  cases hlength

def auth (env : Env) (a : Auth) (hash : String) : Code Bool := do
  let passwd ← SettingsManager.get "service_password" ""
  if passwd = "" then
    pure true
  else if hash = "" then
    pure false
  else
    pure (env.md5 (passwd ++ a.token) = hash)

/-- The result and the errors reported. -/
def setPassword (env : Env) (a : Auth) (passwdHash hashedToken : String) :
    Code (Bool × List String) :=
  if passwdHash = "" then
    pure (false, ["Cannot set empty password"])
  else if passwdHash.length ≠ 32 then
    pure (false, ["Password must be a md5 hash"])
  else if env.md5 (passwdHash ++ a.token) ≠ hashedToken then
    pure (false, ["Token hashed with different password"])
  else do
    let success ← SettingsManager.set "service_password" passwdHash
    pure (success, [])

def removePassword : Code Bool := SettingsManager.remove "service_password"

/-- What a connection is answered when the settings can be read. -/
def accepts (env : Env) (a : Auth) (passwd hash : String) : Bool :=
  passwd = "" || (hash ≠ "" && env.md5 (passwd ++ a.token) = hash)

/-- Why a new password is refused before it is stored. -/
def complaint (env : Env) (a : Auth) (passwdHash hashedToken : String) : Option String :=
  if passwdHash = "" then some "Cannot set empty password"
  else if passwdHash.length ≠ 32 then some "Password must be a md5 hash"
  else if env.md5 (passwdHash ++ a.token) ≠ hashedToken then
    some "Token hashed with different password"
  else none

theorem accepts_iff {env : Env} {a : Auth} {passwd hash : String} :
    a.accepts env passwd hash = true ↔ passwd = "" ∨ hash = env.md5 (passwd ++ a.token) := by
  simp only [accepts, Bool.or_eq_true, decide_eq_true_eq, Bool.and_eq_true]
  constructor
  · rintro (h | ⟨_, h⟩)
    · exact Or.inl h
    · exact Or.inr h.symm
  · rintro (h | rfl)
    · exact Or.inl h
    · exact Or.inr ⟨env.md5_ne_empty _, rfl⟩

/-- A hash of the right length with the token hashed with it passes every check. -/
theorem setPassword_of_agreed {env : Env} {a : Auth} {passwdHash hashedToken : String}
    (hlength : passwdHash.length = 32) (htoken : env.md5 (passwdHash ++ a.token) = hashedToken) :
    a.setPassword env passwdHash hashedToken =
      (do
        let success ← SettingsManager.set "service_password" passwdHash
        pure (success, [])) := by
  have hne : passwdHash ≠ "" := by
    rintro rfl
    cases hlength
  rw [setPassword, if_neg hne, if_neg (not_not.mpr hlength), if_neg (not_not.mpr htoken)]

end Auth

def Db.password (db : Db) : String := db.settingOr "service_password" ""

theorem Db.password_eq {db : Db} {p : String} (h : db.setting "service_password" = some p) :
    db.password = p := by
  simp only [password, settingOr, h, Option.getD_some]
  split_ifs with hp
  · exact hp.symm
  · rfl

namespace Store

/-- A busy database accepts every hash. -/
theorem exec_auth (s : Store) (env : Env) (a : Auth) (hash : String) (hs : s.held = false) :
    s.exec (a.auth env hash) =
      if s.ambient.faulty then some (.ok true, s.afterRaise s.conn 1)
      else some (.ok (a.accepts env s.conn.view.password hash), s.after s.conn 1) := by
  rw [Auth.auth, exec_bind, exec_settingsGet s _ _ hs]
  cases hf : s.ambient.faulty with
  | true => rfl
  | false =>
    simp only [Bool.false_eq_true, if_false, Option.bind_some]
    change Store.exec _ (if s.conn.view.password = "" then _ else _) = _
    unfold Auth.accepts
    by_cases hp : s.conn.view.password = ""
    · simp only [hp, if_true, decide_true, Bool.true_or]
      rfl
    · by_cases hh : hash = ""
      · simp only [hp, hh, if_false, if_true]
        rfl
      · simp only [hp, hh, if_false, ne_eq, not_false_eq_true, decide_true, decide_false,
          Bool.false_or, Bool.true_and]
        rfl

open Framework.Code in
theorem keeps_auth {J : Connection → Prop} {A : Option Response → Prop} (env : Env) (a : Auth)
    (hash : String) : Keeps handle (Holds J A) (a.auth env hash) := by
  apply (keeps_settingsGet _ _).bind
  intro passwd
  split_ifs <;> exact Keeps.pure _

theorem exec_setPassword (s : Store) (env : Env) (a : Auth) (passwdHash hashedToken : String)
    (hs : s.held = false) :
    ∃ done s', s.exec (a.setPassword env passwdHash hashedToken) =
        some (.ok (done, (a.complaint env passwdHash hashedToken).toList), s') ∧
      ((a.complaint env passwdHash hashedToken ≠ none ∧ done = false ∧ s' = s) ∨
        a.complaint env passwdHash hashedToken = none ∧ passwdHash.length = 32 ∧
          Transacted [.insertOrReplaceSetting "service_password" passwdHash] s done s') := by
  unfold Auth.setPassword Auth.complaint
  split_ifs with _ hlength
  · exact ⟨false, s, rfl, Or.inl ⟨by simp, rfl, rfl⟩⟩
  · exact ⟨false, s, rfl, Or.inl ⟨by simp, rfl, rfl⟩⟩
  · exact ⟨false, s, rfl, Or.inl ⟨by simp, rfl, rfl⟩⟩
  · obtain ⟨done, s', hrun, ht⟩ := exec_settingsSet s "service_password" passwdHash hs
    refine ⟨done, s', ?_, Or.inr ⟨rfl, not_not.mp hlength, ht⟩⟩
    rw [exec_bind, hrun]
    rfl

end Store

end DblService
