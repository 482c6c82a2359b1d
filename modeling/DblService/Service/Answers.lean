import DblService.Client.Wire
import DblService.Service.Outcome

/-!
# What is sent for a request

Every request should be answered by one JSON object that says whether it succeeded.  The
`try` of `process_request` turns a `std::runtime_error` into such an answer; an access of
jsoncpp may raise another `std::exception`, which leaves it, and a null pointer ends the
service.  An answer that is not written at once is read from a string that is gone.
-/

namespace DblService

open Framework Session

/-! ## The bytes that are sent -/

/-- A reload has closed the socket. -/
def ServiceConnection.Served.sent (room : Nat) (served : Served) : Option String :=
  if served.stop then none else respond room served.text

/-- Nothing that is read of the request raises a `std::exception` that is no
`std::runtime_error`, no null pointer is dereferenced, and the answer is written at once. -/
structure Answerable (env : Env) (status : Status) (conn : ServiceConnection) (request : String)
    (s : Store) (room : Nat) : Prop where
  typed : ∀ what, ServiceConnection.readRequest env conn request ≠ .error (.std what)
  found : ∀ job, ServiceConnection.readRequest env conn request = .ok (some job) → job.Found env s
  fits : (env.styled (ServiceConnection.answer env status conn request s) ++ "\r\n").length ≤
    min room MAX_TRANSFER_SIZE

/-- An object that says whether the request succeeded: with an error message if it did not, with
data if it did, and a request that raised did not. -/
structure Verdict (members : List (String × Json)) (raised : Prop) (success : Bool) : Prop where
  verdict : (Json.object members).get "success" = .ok (.bool success)
  message : success = false →
    ∃ what, (Json.object members).get "error_message" = .ok (.string what)
  data : success = true → "data" ∈ members.map Prod.fst
  failed : raised → success = false

/-- The text of such an object, and CR LF. -/
def Reply (env : Env) (raised : Prop) (text : String) : Prop :=
  ∃ members success, text = env.styled (.object members) ++ "\r\n" ∧
    Verdict members raised success

/-- The writer begins an object with a brace. -/
def Env.WritesObjects (env : Env) : Prop :=
  ∀ members, ∃ rest, (env.styled (.object members)).toList = '\x7b' :: rest

private theorem reply_accepted (env : Env) (response : Json) {raised : Prop} (hraised : ¬ raised) :
    Reply env raised (env.styled (ServiceConnection.accepted response) ++ "\r\n") :=
  ⟨[("success", .bool true), ("data", response)], true, rfl,
    rfl, nofun, fun _ => List.mem_cons_of_mem _ List.mem_cons_self, fun h => absurd h hraised⟩

private theorem reply_failure (env : Env) (what : String) (errors : List String) (raised : Prop) :
    Reply env raised (env.styled (ServiceConnection.failure what errors) ++ "\r\n") := by
  cases errors with
  | nil => exact ⟨[("success", .bool false), ("error_message", .string what)], false, rfl, rfl,
      fun _ => ⟨what, rfl⟩, nofun, fun _ => rfl⟩
  | cons e es => exact ⟨[("success", .bool false), ("error_message", .string what),
      ("error_details", .array ((e :: es).map .string))], false, rfl, rfl, fun _ => ⟨what, rfl⟩,
      nofun, fun _ => rfl⟩

private theorem not_reply_processing {env : Env} (hobject : env.WritesObjects) {raised : Prop}
    (rest : String) : ¬ Reply env raised ("Processing failed." ++ rest) := by
  rintro ⟨members, success, htext, _⟩
  obtain ⟨tail, hbrace⟩ := hobject members
  have hlist := congrArg String.toList htext
  rw [String.toList_append, String.toList_append, hbrace] at hlist
  cases hlist

/-- The `try` block ended with a value or with what it catches. -/
def Caught {α : Type} (r : Except Exc α) : Prop := ∀ e, r = .error e → e.isRuntimeError = true

namespace Answered

variable {env : Env} {s : Store} {asked : Except Exc (Option Job)} {outcome : Except Exc Handled}
  {r : Except Exc (Handled × ServiceConnection)}

private theorem caught_iff (h : Answered env s asked outcome r) (hstandard : Standard asked) :
    Caught r ↔ (∀ what, asked ≠ .error (.std what)) ∧
      ∀ job, asked = .ok (some job) → job.Found env s := by
  unfold Caught
  cases h with
  | unread e =>
    have hexception := hstandard e rfl
    constructor
    · intro hcaught
      have he := hcaught e rfl
      refine ⟨?_, by simp⟩
      intro what h
      cases h
      cases he
    · rintro ⟨htyped, _⟩ e' he
      cases he
      cases e with
      | std what => exact absurd rfl (htyped what)
      | nullDereference => cases hexception
      | _ => rfl
  | handled asked hfound handled conn =>
    refine iff_of_true (by simp) ⟨by simp, ?_⟩
    intro job h
    cases h
    exact hfound job rfl
  | refused e he =>
    refine iff_of_true ?_ (by simp)
    intro e' h
    cases h
    exact he
  | crashed job hlost outcome =>
    apply iff_of_false
    · intro hcaught
      cases hcaught _ rfl
    · exact fun h => hlost (h.2 job rfl)

private theorem outcome_eq (h : Answered env s asked outcome r) (hcaught : Caught r) :
    outcome = r.map Prod.fst := by
  cases h with
  | crashed job hlost outcome => cases hcaught _ rfl
  | _ => rfl

end Answered

open ServiceConnection

private theorem served_of_caught (env : Env) (config : Config) (conn : ServiceConnection)
    {r : Except Exc (Handled × ServiceConnection)} (hcaught : Caught r) :
    ∃ text stop conn', served env config conn (answered env conn r) =
        .ok { text, conn := conn', stop } ∧
      (text = match r.map Prod.fst with
        | .ok handled => env.styled (accepted handled.response) ++ "\r\n"
        | .error e => env.styled (failure (what env e) (details e)) ++ "\r\n") ∧
      (stop = true → ∃ handled, r.map Prod.fst = .ok handled ∧ handled.stop = true) ∧
      ∀ raised, (raised → ∃ e, r = .error e) → Reply env raised text := by
  cases r with
  | ok x =>
    refine ⟨_, _, _, rfl, rfl, fun hstop => ⟨x.1, rfl, hstop⟩, ?_⟩
    intro raised hraised
    apply reply_accepted
    intro h
    obtain ⟨e, he⟩ := hraised h
    cases he
  | error e =>
    refine ⟨_, false, conn, ?_, rfl, nofun, fun raised _ => reply_failure env _ _ _⟩
    simp only [answered, hcaught e rfl, if_true]
    rfl

private theorem caught_of_reply {env : Env} {config : Config} {conn : ServiceConnection}
    (hobject : env.WritesObjects) {r : Except Exc (Handled × ServiceConnection)} {sent : Served}
    (hsent : served env config conn (answered env conn r) = .ok sent) {raised : Prop}
    (hreply : Reply env raised sent.text) : Caught r := by
  intro e he
  subst he
  cases hcaught : e.isRuntimeError with
  | true => rfl
  | false =>
    simp only [answered, hcaught, Bool.false_eq_true, if_false] at hsent
    cases e with
    | std what =>
      cases hsent
      dsimp only at hreply
      split_ifs at hreply
      · rw [String.append_assoc, String.append_assoc] at hreply
        exact absurd hreply (not_reply_processing hobject _)
      · exact absurd hreply (not_reply_processing hobject _)
    | nullDereference => cases hsent
    | _ => cases hcaught

private theorem text_eq_answer (env : Env) (status : Status) (conn : ServiceConnection)
    (request : String) (s : Store) :
    (match parseRequest env request >>= fun x => outcome env status conn x.1 x.2 s with
      | .ok handled => env.styled (accepted handled.response) ++ "\r\n"
      | .error e => env.styled (failure (what env e) (details e)) ++ "\r\n") =
      env.styled (answer env status conn request s) ++ "\r\n" := by
  unfold answer
  cases parseRequest env request >>= fun x => outcome env status conn x.1 x.2 s <;> rfl

/-- For every request but a reload the bytes sent are the text of one object that says whether it
succeeded, exactly when no access raises an exception that leaves `process_request`, no null
pointer is dereferenced, and the answer is no longer than what is written at once. -/
theorem reply_iff (env : Env) (config : Config) (status : Status) (conn : ServiceConnection)
    (request : String) (s : Store) (room : Nat) (hs : s.held = false)
    (hobject : env.WritesObjects)
    (hreload : conn.isAuthenticated = true → ∀ data, parseRequest env request ≠ .ok ("reload", data)) :
    (∃ served s' text, s.exec (read env config status conn request) = some (.ok served, s') ∧
      served.sent room = some text ∧
      Reply env (∃ e s₁, s.exec (tryBody env status conn request) = some (.error e, s₁)) text) ↔
    Answerable env status conn request s room := by
  obtain ⟨r, s', hrun, hanswered⟩ := answered_tryBody env status conn request s hs
  have hread : s.exec (read env config status conn request) =
      some (served env config conn (answered env conn r), s') := by
    rw [exec_read, exec_processRequest_eq, hrun]
    rfl
  have hcaught := hanswered.caught_iff (standard_readRequest env conn request)
  rw [hread, hrun]
  constructor
  · rintro ⟨sent, s₁, text, hsent, htext, hreply⟩
    obtain ⟨hserve, rfl⟩ := Prod.mk.inj (Option.some.inj hsent)
    unfold Served.sent respond at htext
    split_ifs at htext with _ hfits
    cases htext
    have hended : Caught r := caught_of_reply hobject hserve hreply
    obtain ⟨text, stop, conn', hserved, htext, _⟩ := served_of_caught env config conn hended
    rw [hserved] at hserve
    cases hserve
    rw [← hanswered.outcome_eq hended, text_eq_answer] at htext
    rw [htext] at hfits
    exact ⟨(hcaught.mp hended).1, (hcaught.mp hended).2, hfits⟩
  · intro h
    have hended : Caught r := hcaught.mpr ⟨h.typed, h.found⟩
    obtain ⟨text, stop, conn', hserved, htext, hstop, hreply⟩ :=
      served_of_caught env config conn hended
    rw [← hanswered.outcome_eq hended] at htext hstop
    rw [text_eq_answer] at htext
    have hfits : text.length ≤ min room MAX_TRANSFER_SIZE := htext ▸ h.fits
    have hruns : stop ≠ true := by
      intro h
      obtain ⟨handled, hhandled, hends⟩ := hstop h
      obtain ⟨⟨cmd, data⟩, hparse, houtcome⟩ := exists_of_bind_eq_ok hhandled
      obtain ⟨hauth, rfl⟩ := stop_of_outcome houtcome hends
      exact hreload hauth data hparse
    rw [hserved]
    refine ⟨_, s', text, rfl, ?_, hreply _ ?_⟩
    · rw [Served.sent, if_neg hruns, respond, if_pos hfits]
    · rintro ⟨e, s₁, h⟩
      obtain ⟨rfl, _⟩ := Prod.mk.inj (Option.some.inj h)
      exact ⟨e, rfl⟩

def versionRequest : Json := .object [("command", .string "get_version"), ("data", .null)]

/-- The version is answered on a socket that takes 128 bytes. -/
theorem reply_version :
    let env := Env.documents [versionRequest]
    let conn : ServiceConnection := ⟨⟨Uuid.zero⟩, true⟩
    let s := Store.free ⟨Db.seeded, none⟩
    ∃ served s' text, s.exec (read env {} {} conn versionRequest.document) = some (.ok served, s') ∧
      served.sent 128 = some text ∧
      Reply env
        (∃ e s₁, s.exec (tryBody env {} conn versionRequest.document) = some (.error e, s₁)) text := by
  intro env conn s
  have hparse : parseRequest env versionRequest.document = .ok ("get_version", .null) := by
    have hjson : env.parseJson versionRequest.document = some versionRequest := by
      simp [env, Env.documents]
    rw [parseRequest, hjson]
    rfl
  have hread : readRequest env conn versionRequest.document = .ok none := by
    rw [readRequest, hparse]
    rfl
  have hanswerable : Answerable env {} conn versionRequest.document s 128 := by
    constructor
    · intro what h
      rw [hread] at h
      cases h
    · intro job h
      rw [hread] at h
      cases h
    · decide +kernel
  refine (reply_iff env {} {} conn versionRequest.document s 128 rfl Json.document_object ?_).mpr
    hanswerable
  intro _ data h
  rw [hparse] at h
  simp at h

/-- A command that is an object is answered by a text that is no JSON. -/
theorem reply_command_object :
    let request := Json.object [("command", .object [])]
    let env := Env.documents [request]
    let conn : ServiceConnection := ⟨⟨Uuid.zero⟩, false⟩
    let s := Store.free ⟨Db.seeded, none⟩
    (∃ served, s.exec (ServiceConnection.read env {} {} conn request.document) =
        some (.ok served, s) ∧ served.sent 128 = some "Processing failed.\r\n") ∧
      ∀ raised, ¬ Reply env raised "Processing failed.\r\n" := by
  intro request env conn s
  refine ⟨⟨{ text := "Processing failed.\r\n", conn }, ?_, by decide⟩, ?_⟩
  · have hparse : env.parseJson request.document = some request := by
      simp [env, Env.documents]
    have hrequest : ServiceConnection.parseRequest env request.document =
        .error (.std "Type is not convertible to string") := by
      unfold ServiceConnection.parseRequest
      rw [hparse]
      rfl
    rw [ServiceConnection.exec_read, ServiceConnection.exec_processRequest_error s env {} conn
      hrequest]
    rfl
  · intro raised
    exact @not_reply_processing env Json.document_object _ "\r\n"

end DblService
